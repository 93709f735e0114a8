import MarketFeed.Capture.Buffer
import MarketFeed.Proofs.Capture.Reading

/-!
# Delivery Through the Queue

What the queue does to the batches of a reading, which is nothing.

At any moment a batch of the reading is in one of two places: it waits in the
queue, or the producer has still to put it there. The batches that wait,
followed by those that are owed, are the same before and after every move of
the producer and after every spell of waiting. Only the other side takes
batches away, and it takes them from the front. So the order of the moves and
the bound on the queue have no say in what comes out, as long as no stop is
asked for.

Every move that can be made leaves the producer with less work. That is why
letting it act for as much work as it has lets it act until it must wait, and
why taking batches one after the other comes to an end.

## Main definitions

* `Phase.Owes`: What a producer has still to put into the queue.
* `Buffer.Holds`: What can still be taken, and how the reading ends.

## Theorems

* `Holds.produce`, `Holds.expire`: The producer's moves keep it.
* `Holds.next`: Taking a batch takes the first.
* `canProduce_settle`: Settling ends where the producer must wait.
* `Holds.drain`: Draining takes all batches, and the producer is done.
* `Holds.join`: The outcome is that of the reading.
-/

namespace MarketFeed

/-- These batches have still to be put into the queue, and then the reading
    ends like this. -/
inductive Phase.Owes : Phase → List Batch → CaptureOutcome → Prop
  | reading {p : Producer} {batches : List Batch} {outcome : CaptureOutcome} (hsound : p.Sound)
      (hrest : p.Publishes batches outcome) : Owes (.reading p) batches outcome
  | sending {p : Producer} {batch : Batch} {batches : List Batch} {outcome : CaptureOutcome}
      (hsound : p.Sound) (hrest : p.Publishes batches outcome) :
      Owes (.sending batch p) (batch :: batches) outcome
  | rechecking {p : Producer} {batch : Batch} {batches : List Batch} {outcome : CaptureOutcome}
      (hsound : p.Sound) (hrest : p.Publishes batches outcome) :
      Owes (.rechecking batch p) (batch :: batches) outcome
  | returned {outcome : CaptureOutcome} : Owes (.returned outcome) [] outcome
  | resting {outcome : CaptureOutcome} : Owes (.resting outcome) [] outcome
  | closed {outcome : CaptureOutcome} : Owes (.closed outcome) [] outcome

namespace Buffer

/-- These batches can still be taken from a buffer that nobody has asked to
    stop, and then the reading ends like this. -/
structure Holds (b : Buffer) (waiting : List Batch) (outcome : CaptureOutcome) : Prop where
  unstopped : b.stopped = false
  unjoined : b.joined = false
  room : ∀ count, b.capacity = some count → 0 < count
  owes : ∃ owed, b.phase.Owes owed outcome ∧ b.queue ++ owed = waiting

variable {b : Buffer} {batch : Batch} {waiting owed : List Batch} {outcome : CaptureOutcome}

/-! ## The producer's moves -/

/-- A move of the producer loses nothing of what is to come. -/
theorem Holds.produce (h : b.Holds waiting outcome) : b.produce.Holds waiting outcome := by
  rcases h.owes with ⟨owed, howes, hwaiting⟩
  unfold Buffer.produce
  cases hphase : b.phase with
  | idle file => rw [hphase] at howes; cases howes
  | reading p =>
      rw [hphase] at howes
      cases howes with
      | reading hsound hrest =>
          rw [h.unstopped]
          cases hrest with
          | finish hread =>
              simp only [hread]
              exact ⟨rfl, h.unjoined, h.room, [], .returned, hwaiting⟩
          | publish hread hrest =>
              simp only [hread]
              exact ⟨rfl, h.unjoined, h.room, _,
                .sending (hsound.of_publish hread).1 hrest, hwaiting⟩
  | sending batch p =>
      rw [hphase] at howes
      cases howes with
      | sending hsound hrest =>
          -- The batch goes from the front of what is owed to the end of what waits.
          simp only
          split
          · refine ⟨h.unstopped, h.unjoined, h.room, _, .reading hsound hrest, ?_⟩
            rw [List.append_assoc]
            exact hwaiting
          · exact h
  | rechecking batch p =>
      rw [hphase] at howes
      cases howes with
      | rechecking hsound hrest =>
          simp only [h.unstopped, Bool.false_eq_true, if_false]
          exact ⟨rfl, h.unjoined, h.room, _, .sending hsound hrest, hwaiting⟩
  | returned o =>
      rw [hphase] at howes
      cases howes
      exact ⟨h.unstopped, h.unjoined, h.room, [], .resting, hwaiting⟩
  | resting o =>
      rw [hphase] at howes
      cases howes
      exact ⟨h.unstopped, h.unjoined, h.room, [], .closed, hwaiting⟩
  | closed o => exact h

theorem Holds.expire (h : b.Holds waiting outcome) : b.expire.Holds waiting outcome := by
  unfold Buffer.expire
  cases hphase : b.phase with
  | sending batch p =>
      rcases h.owes with ⟨owed, howes, hwaiting⟩
      rw [hphase] at howes
      cases howes with
      | sending hsound hrest =>
          simp only
          split
          · exact h
          · exact ⟨h.unstopped, h.unjoined, h.room, _, .rechecking hsound hrest, hwaiting⟩
  | _ => exact h

/-- A move that can be made leaves less work. -/
-- A read that gives a batch costs two more moves, to hand it over and to go on,
-- and a batch takes at least two off the work for the octets it has.
theorem work_produce_lt (h : b.Holds waiting outcome) (hcan : b.canProduce = true) :
    b.produce.phase.work < b.phase.work := by
  rcases h.owes with ⟨owed, howes, -⟩
  unfold Buffer.produce
  cases hphase : b.phase with
  | idle file => rw [hphase] at howes; cases howes
  | reading p =>
      rw [hphase] at howes
      cases howes with
      | reading hsound hrest =>
          rw [h.unstopped]
          cases hrest with
          | finish hread =>
              simp only [hread, Phase.work]
              omega
          | publish hread hrest =>
              have hless := (hsound.of_publish hread).2
              simp only [hread, Phase.work]
              omega
  | sending batch p =>
      -- The producer that waits for room can go on only where there is some.
      simp only [canProduce, hphase] at hcan
      simp only [hcan, if_true, Phase.work]
      omega
  | rechecking batch p =>
      simp only [h.unstopped, Bool.false_eq_true, if_false, Phase.work]
      omega
  | returned o => exact Nat.lt_succ_self 2
  | resting o => exact Nat.lt_succ_self 1
  | closed o =>
      rw [canProduce, hphase] at hcan
      cases hcan

theorem Holds.produceFor (h : b.Holds waiting outcome) (moves : Nat) :
    (b.produceFor moves).Holds waiting outcome := by
  induction moves generalizing b with
  | zero => exact h
  | succ moves ih =>
      unfold Buffer.produceFor
      split
      · exact ih h.produce
      · exact h

/-- With as many moves as there is work, the producer comes to wait or to an
    end. -/
theorem canProduce_produceFor (h : b.Holds waiting outcome) {moves : Nat}
    (hmoves : b.phase.work ≤ moves) : (b.produceFor moves).canProduce = false := by
  -- The bound is the work that is left, which a move makes less.
  induction moves generalizing b with
  | zero =>
      have hpos : 0 < b.phase.work := by
        unfold Phase.work
        split <;> omega
      omega
  | succ moves ih =>
      unfold Buffer.produceFor
      split
      · next hcan =>
        have hless := work_produce_lt h hcan
        exact ih h.produce (by omega)
      · next hcan => exact Bool.eq_false_iff.mpr hcan

/-- Settling loses nothing of what is to come. -/
theorem Holds.settle (h : b.Holds waiting outcome) : b.settle.Holds waiting outcome :=
  h.produceFor _

theorem canProduce_settle (h : b.Holds waiting outcome) : b.settle.canProduce = false :=
  canProduce_produceFor h (Nat.le_refl _)

/-- A producer that cannot act is done, or waits behind other batches. -/
theorem Holds.of_canProduce (h : b.Holds waiting outcome) (hcan : b.canProduce = false) :
    (b.phase = .closed outcome ∧ b.queue = waiting) ∨ b.queue ≠ [] := by
  rcases h.owes with ⟨owed, howes, hwaiting⟩
  unfold canProduce at hcan
  cases hphase : b.phase with
  | sending batch p =>
      simp only [hphase] at hcan
      -- There is room in an empty queue, so a producer that waits for room waits
      -- behind a batch.
      right
      intro hnil
      rw [hasRoom, hnil] at hcan
      cases hcapacity : b.capacity with
      | none => rw [hcapacity] at hcan; cases hcan
      | some count =>
          have hpos := h.room count hcapacity
          rw [hcapacity, Option.all_some, List.length_nil, decide_eq_false_iff_not] at hcan
          exact hcan hpos
  | closed o =>
      rw [hphase] at howes
      cases howes
      rw [List.append_nil] at hwaiting
      exact Or.inl ⟨rfl, hwaiting⟩
  | idle file => rw [hphase] at howes; cases howes
  | _ => simp only [hphase, Bool.true_eq_false] at hcan

/-! ## Taking batches -/

/-- The batch that is taken is the first of those to come. -/
theorem Holds.next {rest : Buffer} (h : b.Holds waiting outcome)
    (hnext : b.next? = (some batch, rest)) :
    ∃ waiting', waiting = batch :: waiting' ∧ rest.Holds waiting' outcome := by
  rcases h.owes with ⟨owed, howes, hwaiting⟩
  unfold next? at hnext
  -- What can be taken begins with the front of the queue.
  cases hqueue : b.queue with
  | nil => rw [hqueue] at hnext; cases hnext
  | cons first queue =>
      rw [hqueue] at hnext
      cases hnext
      rw [hqueue, List.cons_append] at hwaiting
      exact ⟨queue ++ owed, hwaiting.symm, h.unstopped, h.unjoined, h.room, owed, howes, rfl⟩

theorem next?_eq_none {rest : Buffer} (hnext : b.next? = (none, rest)) :
    b.queue = [] ∧ rest = b := by
  unfold next? at hnext
  cases hqueue : b.queue with
  | nil => rw [hqueue] at hnext; cases hnext; exact ⟨rfl, rfl⟩
  | cons first queue => rw [hqueue] at hnext; cases hnext

/-- Draining takes all batches that are to come, and ends with the outcome. -/
theorem Holds.drainFor (h : b.Holds waiting outcome) {count : Nat}
    (hcount : waiting.length < count) :
    (b.drainFor count).1 = waiting ∧ (b.drainFor count).2.Holds [] outcome ∧
      (b.drainFor count).2.phase = .closed outcome := by
  -- Each round takes the first of what can be taken. When the producer cannot
  -- act and the queue is empty, it is done and nothing is left.
  induction count generalizing b waiting with
  | zero => exact absurd hcount (Nat.not_lt_zero _)
  | succ count ih =>
      unfold Buffer.drainFor wait
      have hsettle := h.settle
      have hcan := canProduce_settle h
      cases hnext : b.settle.next? with
      | mk first rest =>
          cases first with
          | none =>
              rcases next?_eq_none hnext with ⟨hqueue, rfl⟩
              rcases hsettle.of_canProduce hcan with ⟨hphase, hwaiting⟩ | hne
              · rw [hqueue] at hwaiting
                subst hwaiting
                exact ⟨rfl, hsettle, hphase⟩
              · exact absurd hqueue hne
          | some batch =>
              rcases hsettle.next hnext with ⟨waiting', rfl, hrest⟩
              rw [List.length_cons] at hcount
              rcases ih hrest (by omega) with ⟨htaken, hdone⟩
              exact ⟨congrArg (batch :: ·) htaken, hdone⟩

/-- A phase has at least as much work as it owes batches. -/
theorem length_lt_work {phase : Phase} (h : phase.Owes owed outcome) :
    owed.length < phase.work := by
  cases h with
  | reading hsound hrest =>
      have hlength := hrest.length_le hsound
      simp only [Phase.work]
      omega
  | sending hsound hrest =>
      have hlength := hrest.length_le hsound
      simp only [Phase.work, List.length_cons]
      omega
  | rechecking hsound hrest =>
      have hlength := hrest.length_le hsound
      simp only [Phase.work, List.length_cons]
      omega
  | _ => simp only [Phase.work, List.length_nil, Nat.zero_lt_succ]

/-- Draining takes everything, and then the producer is done. -/
theorem Holds.drain (h : b.Holds waiting outcome) :
    b.drain.1 = waiting ∧ b.drain.2.Holds [] outcome ∧ b.drain.2.phase = .closed outcome := by
  rcases h.owes with ⟨owed, howes, hwaiting⟩
  have hwork := length_lt_work howes
  refine h.drainFor ?_
  rw [← hwaiting, List.length_append]
  omega

/-! ## From the start to the outcome -/

/-- A buffer that has just been started can give the batches of its file's
    reading. -/
theorem holds_of_start {file : CaptureFile} {chunkSize : Nat} {capacity : Option Nat}
    {started : Buffer} (hsound : (Producer.opening file chunkSize).Sound)
    (hrest : (Producer.opening file chunkSize).Publishes waiting outcome)
    (hstart : (ofFile file chunkSize capacity).start = .ok started) :
    started.Holds waiting outcome := by
  cases hstart
  refine ⟨rfl, rfl, fun count hcount => ?_, waiting, .reading hsound hrest, rfl⟩
  rcases Option.map_eq_some_iff.mp hcount with ⟨bound, -, rfl⟩
  exact Nat.lt_of_lt_of_le Nat.one_pos (Nat.le_max_right _ _)

/-- Once nothing is left to take, joining tells how the reading ended. -/
theorem Holds.join (h : b.Holds [] outcome) : b.join.1 = outcome := by
  -- Nothing waits, so a producer that cannot act is done.
  have hsettled := h.settle.expire.settle
  have hcan := canProduce_settle h.settle.expire
  unfold Buffer.join
  rcases hsettled.owes with ⟨owed, -, hwaiting⟩
  rcases hsettled.of_canProduce hcan with ⟨hphase, -⟩ | hne
  · simp only [hsettled.unjoined, hphase, Phase.outcome?, Bool.false_eq_true, if_false]
  · exact absurd (List.append_eq_nil_iff.mp hwaiting).1 hne

end Buffer

end MarketFeed
