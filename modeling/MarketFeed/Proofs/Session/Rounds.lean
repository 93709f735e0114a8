import MarketFeed.Proofs.Session.Turns

/-!
# Rounds Come to an End

Turn by turn the two sides finish, if each gets its turn.

A turn may pass: the producer waits for room, or the consumer finds nothing.
In a round in which both act, one of them gets on. A producer that has a move
has less work after it, which is worth more than a batch in the queue and the
looks that the consumer may take in vain. A producer without a move waits
behind a batch, which the consumer takes, or is done, and then a look in vain
brings the consumer closer to leaving.

The measure counts the work four times, the batches once, and the looks that
are left at the end.

## Main definitions

* `Stage.looks`: How many more looks a consumer may take in vain.
* `Session.toGo`: A bound on the rounds that are left.

## Theorems

* `Follows.toGo_round_lt`: A round leaves less to go.
* `Follows.isOver_drive`: Alternating turns end with the consumer gone.
* `exists_play_drive`: Alternating turns are one order of turns.
-/

namespace MarketFeed

/-- How many looks a consumer at this stage may take in vain, with the running
    flag up and with the flag down. -/
def Stage.looks : Stage → Bool → Nat
  | .checking, true => 1
  | .polling, true | .draining, true | .exited, true => 0
  | .polling, false => 3
  | .checking, false => 2
  | .draining, false => 1
  | .exited, false => 0

/-- A consumer that finds nothing has looked three times at most before it
    leaves or knows that more will come. -/
theorem Stage.looks_le (stage : Stage) (flag : Bool) : stage.looks flag ≤ 3 := by
  cases stage <;> cases flag <;> decide

namespace Buffer

variable {b : Buffer}

theorem produce_eq_self (hcan : b.canProduce = false) : b.produce = b := by
  unfold canProduce at hcan
  unfold produce
  cases hphase : b.phase with
  | idle file => rfl
  | closed o => rfl
  | sending batch p =>
      simp only [hphase] at hcan
      simp only [hcan, Bool.false_eq_true, if_false]
  | _ => simp only [hphase, Bool.true_eq_false] at hcan

/-- Only a producer that goes on reading has added a batch. -/
theorem pending_produce_le (b : Buffer) :
    b.produce.pending ≤ b.pending + if b.produce.isRunning then 1 else 0 := by
  unfold produce
  cases hphase : b.phase with
  | sending batch p =>
      simp only
      split
      · simp only [pending, isRunning, Phase.running, List.length_append, List.length_cons,
          List.length_nil, if_true, Nat.le_refl]
      · exact Nat.le_add_right _ _
  | reading p =>
      cases hread : p.read b.stopped <;> simp only [hread] <;> exact Nat.le_add_right _ _
  | rechecking batch p =>
      cases hstopped : b.stopped <;> exact Nat.le_add_right _ _
  | _ => exact Nat.le_add_right _ _

end Buffer

namespace Session

variable {τ : Type} {feed : Batch → τ → τ} {first : τ} {batches : List Batch}
variable {outcome : CaptureOutcome} {s : Session τ}

/-- A bound on the rounds that are left. -/
def toGo (s : Session τ) : Nat :=
  4 * s.buffer.phase.work + s.buffer.pending + s.stage.looks s.buffer.isRunning

/-! ## The consumer's side -/

theorem take_of_nil (hnil : s.buffer.queue = []) (otherwise : Stage) :
    s.take feed otherwise = { s with stage := otherwise } := by
  unfold take Buffer.next?
  rw [hnil]

/-- A batch that is taken is one step less to go. -/
theorem toGo_take (feed : Batch → τ → τ) (hne : s.buffer.queue ≠ []) (otherwise : Stage) :
    (s.take feed otherwise).toGo + 1 = s.toGo := by
  unfold take Buffer.next?
  cases hqueue : s.buffer.queue with
  | nil => exact absurd hqueue hne
  | cons batch rest =>
      simp only [toGo, Buffer.pending, Buffer.isRunning, hqueue, List.length_cons]
      omega

/-- A look in vain takes the consumer one stage on. With the flag up it may have
    to look again. -/
theorem toGo_consume_le (feed : Batch → τ → τ) (s : Session τ) :
    (s.consume feed).toGo ≤ s.toGo + if s.buffer.isRunning then 1 else 0 := by
  -- A batch in the queue is taken and pays for the turn, so only a look at an
  -- empty queue can need the one round more.
  unfold consume
  cases hstage : s.stage with
  | polling =>
      by_cases hnil : s.buffer.queue = []
      · simp only [take_of_nil hnil, toGo, hstage, Nat.add_assoc, Nat.add_le_add_iff_left]
        cases s.buffer.isRunning <;> cases s.afterEmpty <;> decide
      · have htake := toGo_take feed hnil s.afterEmpty
        simp only
        omega
  | checking =>
      simp only [toGo, hstage, Nat.add_assoc, Nat.add_le_add_iff_left]
      cases s.buffer.isRunning <;> decide
  | draining =>
      by_cases hnil : s.buffer.queue = []
      · simp only [take_of_nil hnil, toGo, hstage, Nat.add_assoc, Nat.add_le_add_iff_left]
        cases s.buffer.isRunning <;> decide
      · have htake := toGo_take feed hnil .exited
        simp only
        omega
  | exited => exact Nat.le_add_right _ _

/-- With a batch to take, or with none to come, the consumer gets on. -/
theorem toGo_consume_lt (hover : s.stage ≠ .exited)
    (h : s.buffer.queue ≠ [] ∨ s.buffer.phase.isClosed = true) :
    (s.consume feed).toGo < s.toGo := by
  -- Without a batch to take the queue has been let go, and then the flag is
  -- down as well.
  have hdone (hnil : s.buffer.queue = []) :
      s.buffer.phase.isClosed = true ∧ s.buffer.isRunning = false := by
    have hclosed := h.resolve_left fun hne => hne hnil
    unfold Buffer.isRunning
    unfold Phase.isClosed at hclosed
    split at hclosed
    · next hphase => rw [hphase]; exact ⟨rfl, rfl⟩
    · cases hclosed
  unfold consume
  cases hstage : s.stage with
  | polling =>
      by_cases hnil : s.buffer.queue = []
      · rcases hdone hnil with ⟨hclosed, hflag⟩
        simp only [take_of_nil hnil, toGo, hstage, hflag, Nat.add_lt_add_iff_left, afterEmpty,
          hclosed, if_true]
        cases s.poll with
        | sleep nanos => exact Nat.lt_succ_self 2
        | blocking => exact Nat.succ_pos 2
      · have htake := toGo_take feed hnil s.afterEmpty
        simp only
        omega
  | checking =>
      simp only [toGo, hstage, Nat.add_lt_add_iff_left]
      cases s.buffer.isRunning <;> decide
  | draining =>
      by_cases hnil : s.buffer.queue = []
      · rcases hdone hnil with ⟨-, hflag⟩
        simp only [take_of_nil hnil, toGo, hstage, hflag, Nat.add_lt_add_iff_left]
        decide
      · have htake := toGo_take feed hnil .exited
        simp only
        omega
  | exited => exact absurd hstage hover

/-! ## Both sides -/

/-- The producer's move is worth the batch it may add and the looks that the
    consumer may take in vain because of it. -/
theorem Follows.toGo_produce_lt (h : s.Follows feed first batches outcome)
    (hcan : s.buffer.canProduce = true) :
    (s.turn feed .producer).toGo + (if s.buffer.produce.isRunning then 1 else 0) < s.toGo := by
  rcases h.fed with ⟨taken, waiting, -, hholds, -⟩
  have hwork := Buffer.work_produce_lt hholds hcan
  have hpending := s.buffer.pending_produce_le
  simp only [Session.turn, toGo]
  -- A batch is added only with the flag up, before and after. When the flag
  -- falls the consumer gets up to three looks, and no batch is added.
  cases hflag : s.buffer.isRunning with
  | false =>
      have hfallen : s.buffer.produce.isRunning = false := Buffer.running_produce hflag
      simp only [hfallen, Bool.false_eq_true, if_false] at hpending ⊢
      omega
  | true =>
      cases hfallen : s.buffer.produce.isRunning with
      | false =>
          have hlooks := s.stage.looks_le false
          simp only [hfallen, Bool.false_eq_true, if_false] at hpending ⊢
          omega
      | true =>
          simp only [hfallen, if_true] at hpending ⊢
          omega

/-- A round in which both sides act leaves less to go. -/
theorem Follows.toGo_round_lt (h : s.Follows feed first batches outcome)
    (hover : s.isOver = false) : (s.play feed [.producer, .consumer]).toGo < s.toGo := by
  have hstage : s.stage ≠ .exited := ne_of_beq_false hover
  change ((s.turn feed .producer).consume feed).toGo < s.toGo
  cases hcan : s.buffer.canProduce with
  | true =>
      have hproduce := h.toGo_produce_lt hcan
      have hconsume : ((s.turn feed .producer).consume feed).toGo
          ≤ (s.turn feed .producer).toGo + if s.buffer.produce.isRunning then 1 else 0 :=
        toGo_consume_le feed _
      omega
  | false =>
      -- The producer passes, so the consumer has a batch to take, or is let go.
      have hself : s.turn feed .producer = s := by
        rw [Session.turn, Buffer.produce_eq_self hcan]
      rw [hself]
      rcases h.fed with ⟨taken, waiting, -, hholds, -⟩
      refine toGo_consume_lt hstage ?_
      rcases hholds.of_canProduce hcan with ⟨hphase, -⟩ | hne
      · rw [hphase]
        exact Or.inr rfl
      · exact Or.inl hne

/-- With as many rounds as there are steps to go, the consumer leaves. -/
theorem Follows.isOver_driveFor (h : s.Follows feed first batches outcome) {rounds : Nat}
    (hrounds : s.toGo ≤ rounds) : (driveFor feed rounds s).isOver = true := by
  -- There is always some work, so no rounds means nothing to go on.
  induction rounds generalizing s with
  | zero =>
      have hpos : 0 < s.buffer.phase.work := by
        unfold Phase.work
        split <;> omega
      rw [toGo] at hrounds
      omega
  | succ rounds ih =>
      unfold driveFor
      split
      · next hover => exact hover
      · next hover =>
        have hless := h.toGo_round_lt (Bool.eq_false_iff.mpr hover)
        exact ih (h.play (by decide)) (by omega)

/-- If the two sides alternate, the consumer leaves in the end. -/
theorem Follows.isOver_drive (h : s.Follows feed first batches outcome) :
    (s.drive feed).isOver = true := by
  refine h.isOver_driveFor ?_
  have hlooks := s.stage.looks_le s.buffer.isRunning
  rw [toGo]
  omega

/-- Alternating rounds are an order of turns without a stop. -/
theorem exists_play_driveFor (feed : Batch → τ → τ) (rounds : Nat) (s : Session τ) :
    ∃ schedule, Turn.stop ∉ schedule ∧ driveFor feed rounds s = s.play feed schedule := by
  induction rounds generalizing s with
  | zero => exact ⟨[], List.not_mem_nil, rfl⟩
  | succ rounds ih =>
      unfold driveFor
      split
      · exact ⟨[], List.not_mem_nil, rfl⟩
      · rcases ih (s.play feed [.producer, .consumer]) with ⟨schedule, hstop, hplay⟩
        refine ⟨[.producer, .consumer] ++ schedule, ?_, ?_⟩
        · simp only [List.mem_append, List.mem_cons, hstop, List.not_mem_nil, reduceCtorEq,
            or_false, not_false_eq_true]
        · rw [hplay, play_append]

/-- Letting the two sides alternate is one of the orders of turns. -/
theorem exists_play_drive (feed : Batch → τ → τ) (s : Session τ) :
    ∃ schedule, Turn.stop ∉ schedule ∧ s.drive feed = s.play feed schedule :=
  exists_play_driveFor feed _ s

end Session

end MarketFeed
