import MarketFeed.Proofs.Capture.Delivery
import MarketFeed.Session.Schedule

/-!
# Every Order of Turns

What the consumer has when it leaves, whoever acted when.

A batch of the reading is in one of three places: taken, waiting, or owed.
Taking moves the first that waits behind those that were taken, the
producer's moves keep what waits and what is owed together, and nothing else
moves a batch. So the batches that were taken, followed by those that can
still be taken, are the batches of the reading at any time.

What remains is that a consumer does not leave while there is something to
take. One that blocks on the queue leaves when the queue is empty and has
been let go. One that sleeps looks at the running flag after it found the
queue empty, and a batch may have come in between; but once the flag is down
none comes any more, so taking what waits takes what is left.

## Main definitions

* `Session.Follows`: The session is on its way through these batches.

## Theorems

* `Holds.waiting_eq_queue`: With the flag down nothing is owed.
* `Follows.turn`, `Follows.play`: Every turn keeps the session on its way.
* `Follows.of_isOver`: A consumer that has left has fed all batches.
-/

namespace MarketFeed

namespace Buffer

variable {b : Buffer} {waiting : List Batch} {outcome : CaptureOutcome}

/-- Once the flag is down, nothing is to come but what waits in the queue. -/
theorem Holds.waiting_eq_queue (h : b.Holds waiting outcome) (hflag : b.phase.running = false) :
    waiting = b.queue := by
  rcases h.owes with ⟨owed, howes, hwaiting⟩
  -- The flag falls only after the last batch was handed over.
  have hnil : owed = [] := by
    generalize b.phase = phase at howes hflag
    cases howes with
    | resting => rfl
    | closed => rfl
    | _ => cases hflag
  rw [← hwaiting, hnil, List.append_nil]

/-- A flag that is down stays down. -/
theorem running_produce (hflag : b.phase.running = false) : b.produce.phase.running = false := by
  unfold Buffer.produce
  cases hphase : b.phase with
  | idle file => exact congrArg Phase.running hphase
  | resting o => rfl
  | closed o => exact congrArg Phase.running hphase
  | _ => rw [hphase] at hflag; cases hflag

theorem running_expire (hflag : b.phase.running = false) : b.expire.phase.running = false := by
  unfold Buffer.expire
  split
  · next batch p hphase =>
    rw [hphase] at hflag
    cases hflag
  · exact hflag

end Buffer

namespace Session

variable {τ : Type} {feed : Batch → τ → τ} {first : τ} {batches : List Batch}
variable {outcome : CaptureOutcome} {s : Session τ}

/-- The session is on its way through these batches: those that were taken have
    been fed, the others can still be taken, and a consumer that has left or is
    about to leave overlooks none. -/
structure Follows (feed : Batch → τ → τ) (first : τ) (batches : List Batch)
    (outcome : CaptureOutcome) (s : Session τ) : Prop where
  fed : ∃ taken waiting, taken ++ waiting = batches ∧ s.buffer.Holds waiting outcome ∧
    s.state = taken.foldl (fun t batch => feed batch t) first ∧ (s.stage = .exited → waiting = [])
  flag : s.stage = .draining → s.buffer.phase.running = false

theorem afterEmpty_ne_draining (s : Session τ) : s.afterEmpty ≠ .draining := by
  unfold afterEmpty
  split
  · exact Stage.noConfusion
  · split <;> exact Stage.noConfusion

/-- Only a blocking consumer leaves right after it found the queue empty, and
    only if the queue has been let go. -/
theorem not_running_of_afterEmpty (h : s.afterEmpty = .exited) :
    s.buffer.phase.running = false := by
  unfold afterEmpty at h
  split at h
  · cases h
  · split at h
    · next hclosed =>
      unfold Phase.isClosed at hclosed
      split at hclosed
      · next hphase => rw [hphase]; rfl
      · cases hclosed
    · cases h

/-- Taking from the queue, where to go if it is empty being known to be right. -/
theorem Follows.take (h : s.Follows feed first batches outcome) (hstage : s.stage ≠ .exited)
    {otherwise : Stage} (hdraining : otherwise ≠ .draining)
    (hexited : otherwise = .exited → s.buffer.phase.running = false) :
    (s.take feed otherwise).Follows feed first batches outcome := by
  rcases h.fed with ⟨taken, waiting, happend, hholds, hstate, -⟩
  unfold Session.take
  -- What is taken from the queue is the first of what is still to come.
  cases hnext : s.buffer.next? with
  | mk found rest =>
      cases found with
      | none =>
          rcases Buffer.next?_eq_none hnext with ⟨hqueue, rfl⟩
          refine ⟨⟨taken, waiting, happend, hholds, hstate, fun hleft => ?_⟩, fun hd => ?_⟩
          · rw [hholds.waiting_eq_queue (hexited hleft), hqueue]
          · exact absurd hd hdraining
      | some batch =>
          rcases hholds.next hnext with ⟨waiting', rfl, hrest⟩
          refine ⟨⟨taken ++ [batch], waiting', ?_, hrest, ?_, fun hleft => ?_⟩, fun hd => ?_⟩
          · rw [List.append_assoc]
            exact happend
          · rw [List.foldl_append, ← hstate]
            rfl
          · exact absurd hleft hstage
          · -- Taking leaves the phase alone.
            have hflag := h.flag hd
            unfold Buffer.next? at hnext
            split at hnext
            · cases hnext
            · cases hnext
              exact hflag

theorem Follows.consume (h : s.Follows feed first batches outcome) :
    (s.consume feed).Follows feed first batches outcome := by
  unfold Session.consume
  cases hstage : s.stage with
  -- A look at the queue either takes a batch or finds none.
  | polling =>
      exact h.take (by rw [hstage]; exact Stage.noConfusion) (afterEmpty_ne_draining s)
        not_running_of_afterEmpty
  -- The look at the flag moves no batch. What it has seen, `flag` remembers.
  | checking =>
      rcases h.fed with ⟨taken, waiting, happend, hholds, hstate, -⟩
      refine ⟨⟨taken, waiting, happend, hholds, hstate, fun hleft => ?_⟩, fun hd => ?_⟩
      · simp only at hleft
        split at hleft <;> cases hleft
      · simp only at hd
        split at hd
        · cases hd
        · next hflag => exact Bool.eq_false_iff.mpr hflag
  -- The flag is down, so an empty queue means that nothing is left.
  | draining =>
      refine h.take (by rw [hstage]; exact Stage.noConfusion) Stage.noConfusion fun _ => ?_
      exact h.flag hstage
  | exited => exact h

theorem Follows.turn (h : s.Follows feed first batches outcome) {t : Turn} (ht : t ≠ .stop) :
    (s.turn feed t).Follows feed first batches outcome := by
  rcases h.fed with ⟨taken, waiting, happend, hholds, hstate, hleft⟩
  cases t with
  | producer =>
      exact ⟨⟨taken, waiting, happend, hholds.produce, hstate, hleft⟩,
        fun hd => Buffer.running_produce (h.flag hd)⟩
  | expiry =>
      exact ⟨⟨taken, waiting, happend, hholds.expire, hstate, hleft⟩,
        fun hd => Buffer.running_expire (h.flag hd)⟩
  | consumer => exact h.consume
  | stop => exact absurd rfl ht

/-- Without a stop, any order of turns follows the reading. -/
theorem Follows.play (h : s.Follows feed first batches outcome) {schedule : List Turn}
    (hstop : Turn.stop ∉ schedule) : (s.play feed schedule).Follows feed first batches outcome := by
  induction schedule generalizing s with
  | nil => exact h
  | cons t rest ih =>
      rcases List.ne_and_not_mem_of_not_mem_cons hstop with ⟨hne, hrest⟩
      exact ih (h.turn (Ne.symm hne)) hrest

/-- A consumer that has left has fed all batches in order. -/
theorem Follows.of_isOver (h : s.Follows feed first batches outcome) (hover : s.isOver = true) :
    s.state = batches.foldl (fun t batch => feed batch t) first ∧ s.buffer.Holds [] outcome := by
  rcases h.fed with ⟨taken, waiting, happend, hholds, hstate, hleft⟩
  -- Who has left has overlooked nothing, so nothing waits.
  have hnil := hleft (eq_of_beq hover)
  subst hnil
  rw [List.append_nil] at happend
  rw [← happend]
  exact ⟨hstate, hholds⟩

end Session

end MarketFeed
