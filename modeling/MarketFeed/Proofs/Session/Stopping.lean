import MarketFeed.Proofs.Capture.Exact
import MarketFeed.Proofs.Session.Turns

/-!
# Stopping at Any Moment

What the consumer has when it leaves, if a stop may have been asked for.

With a stop the producer may end before the end of the file, in front of a
chunk or while it waits for room. What it has put into the queue until then
is still the beginning of the batches of the reading, and the consumer leaves
no earlier than when it has taken all of that. So the two sides agree about
what was handed over, whatever the order of their turns and whenever the stop
came.

The batches that were handed over are followed along the schedule. At any
time they are the batches that were fed and those that wait, and they begin
the batches of the reading. What the reading has beyond them is owed, unless
the producer has given up; then its counts say so.

## Main definitions

* `Phase.GaveUp`: The producer has ended because of a stop.
* `Buffer.handed`, `Session.pushed`: The batches that are put into the queue.
* `Session.Serves`: The session is on its way, stop or no stop.
* `CaptureFile.ReadsUpTo`: Batches that are the beginning of a file.

## Theorems

* `Publishes.read_cases`: What one read gives, stop or no stop.
* `queue_produce`: A move of the producer adds what it hands over.
* `stands_produce`: It is taken from what is owed.
* `Serves.turn`, `Serves.play`: Every turn keeps the session on its way.
* `Serves.of_outcome?`: What a producer that has ended has handed over.
* `Serves.of_isOver`: A consumer that has left has fed what was handed over.
* `Delivered.front`: The beginning of what is delivered is delivered.
* `ReadsUpTo.of_stopped`: So is what a producer that gives up has pushed.
* `shutdown_loses_nothing`: What was fed, and what the outcome says.
-/

namespace MarketFeed

/-! ## The producer -/

/-- A producer that is asked to stop ends, and says so unless it is at the end
    of the file. -/
theorem Producer.read_true (p : Producer) :
    p.read true = .finish (.ok (if p.file.remaining = 0 then p.stats else p.stopped)) := by
  unfold read
  by_cases hend : p.file.remaining = 0
  · rw [if_pos hend, if_pos hend]
  · rw [if_neg hend, if_neg hend, if_pos rfl]

/-- One read, whether a stop was asked for or not: the reading goes on or is
    over, or the producer gives up. -/
theorem Producer.Publishes.read_cases {p : Producer} {owed : List Batch} {outcome : CaptureOutcome}
    (h : p.Publishes owed outcome) (stop : Bool) :
    (∃ batch next rest, p.read stop = .publish batch next ∧ p.read false = .publish batch next ∧
        owed = batch :: rest ∧ next.Publishes rest outcome) ∨
      (p.read stop = .finish outcome ∧ owed = []) ∨ p.read stop = .finish (.ok p.stopped) := by
  cases stop with
  | false =>
      cases h with
      | finish hread => exact Or.inr (Or.inl ⟨hread, rfl⟩)
      | publish hread hrest => exact Or.inl ⟨_, _, _, hread, hread, rfl, hrest⟩
  | true =>
      by_cases hend : p.file.remaining = 0
      · -- At the end of the file the reading is over with or without a stop.
        have hread := Producer.read_of_remaining_zero false hend
        cases h with
        | finish hfinish =>
            rw [hread, Producer.Move.finish.injEq] at hfinish
            rw [Producer.read_true, if_pos hend, hfinish]
            exact Or.inr (Or.inl ⟨rfl, rfl⟩)
        | publish hpublish _ => rw [hread] at hpublish; cases hpublish
      · rw [Producer.read_true, if_neg hend]
        exact Or.inr (Or.inr rfl)

namespace Phase

/-- The producer has ended because of a stop, and its counts say so. -/
def GaveUp (phase : Phase) : Prop :=
  ∃ stats, phase.outcome? = some (.ok stats) ∧ stats.stoppedEarly = true

/-- The producer still owes these batches of its reading, or it has given up. -/
def Stands (phase : Phase) (owed : List Batch) (outcome : CaptureOutcome) : Prop :=
  phase.Owes owed outcome ∨ phase.GaveUp

variable {phase : Phase} {owed : List Batch} {outcome : CaptureOutcome}

/-- A producer that has ended owes nothing, or it has given up. -/
theorem Stands.of_outcome? {o : CaptureOutcome} (h : phase.Stands owed outcome)
    (ho : phase.outcome? = some o) :
    (o = outcome ∧ owed = []) ∨ ∃ stats, o = .ok stats ∧ stats.stoppedEarly = true := by
  rcases h with howes | ⟨stats, hstats, hearly⟩
  · left
    cases howes with
    | returned => cases ho; exact ⟨rfl, rfl⟩
    | resting => cases ho; exact ⟨rfl, rfl⟩
    | closed => cases ho; exact ⟨rfl, rfl⟩
    | _ => cases ho
  · rw [hstats] at ho
    cases ho
    exact Or.inr ⟨stats, rfl, hearly⟩

/-- A producer whose flag is down has ended. -/
theorem Stands.exists_outcome? (h : phase.Stands owed outcome) (hflag : phase.running = false) :
    ∃ o, phase.outcome? = some o := by
  rcases h with howes | ⟨stats, hstats, -⟩
  · cases howes with
    | resting => exact ⟨outcome, rfl⟩
    | closed => exact ⟨outcome, rfl⟩
    | _ => cases hflag
  · exact ⟨_, hstats⟩

end Phase

namespace Buffer

variable {b : Buffer} {owed : List Batch} {outcome o : CaptureOutcome}

/-- The batch that the producer's next move puts into the queue, if it does. -/
def handed (b : Buffer) : List Batch :=
  match b.phase with
  | .sending batch _ => if b.hasRoom then [batch] else []
  | _ => []

theorem queue_produce (b : Buffer) : b.produce.queue = b.queue ++ b.handed := by
  unfold produce handed
  cases b.phase with
  | sending batch p =>
      simp only
      split
      · rfl
      · rw [List.append_nil]
  | reading p =>
      simp only [List.append_nil]
      split <;> rfl
  | rechecking batch p =>
      simp only [List.append_nil]
      split <;> rfl
  | _ => simp only [List.append_nil]

/-- The producer hands over nothing any more once its flag is down. -/
theorem handed_of_not_running (hflag : b.phase.running = false) : b.handed = [] := by
  unfold handed
  cases hphase : b.phase with
  | sending batch p => rw [hphase] at hflag; cases hflag
  | _ => rfl

theorem outcome?_produce (h : b.phase.outcome? = some o) :
    b.produce.phase.outcome? = some o ∧ b.handed = [] := by
  unfold produce handed
  cases hphase : b.phase with
  | returned outcome => rw [hphase] at h; exact ⟨h, rfl⟩
  | resting outcome => rw [hphase] at h; exact ⟨h, rfl⟩
  | closed outcome =>
      rw [hphase] at h
      exact ⟨(congrArg Phase.outcome? hphase).trans h, rfl⟩
  | _ => rw [hphase] at h; cases h

/-- A producer that has given up does so for good. -/
theorem gaveUp_produce (h : b.phase.GaveUp) : b.produce.phase.GaveUp ∧ b.handed = [] := by
  rcases h with ⟨stats, hstats, hearly⟩
  rcases outcome?_produce hstats with ⟨hproduce, hnone⟩
  exact ⟨⟨stats, hproduce, hearly⟩, hnone⟩

/-- What the producer's next move hands over is the first of what is owed. -/
theorem stands_produce (h : b.phase.Stands owed outcome) :
    ∃ rest, owed = b.handed ++ rest ∧ b.produce.phase.Stands rest outcome := by
  rcases h with howes | hgave
  · unfold produce handed
    generalize hphase : b.phase = phase at howes
    cases howes with
    | reading hsound hrest =>
        refine ⟨owed, rfl, ?_⟩
        rcases hrest.read_cases b.stopped with ⟨batch, p, rest, hread, hpublish, rfl, hnext⟩ |
          ⟨hread, rfl⟩ | hread
        · simp only [hread]
          exact Or.inl (.sending (hsound.of_publish hpublish).1 hnext)
        · simp only [hread]
          exact Or.inl .returned
        · simp only [hread]
          exact Or.inr ⟨_, rfl, rfl⟩
    | sending hsound hrest =>
        -- Without room the batch is still owed.
        simp only
        split
        · exact ⟨_, rfl, Or.inl (.reading hsound hrest)⟩
        · exact ⟨_, rfl, Or.inl (hphase ▸ .sending hsound hrest)⟩
    | rechecking hsound hrest =>
        refine ⟨_, rfl, ?_⟩
        simp only
        split
        · exact Or.inr ⟨_, rfl, rfl⟩
        · exact Or.inl (.sending hsound hrest)
    | returned => exact ⟨[], rfl, Or.inl .resting⟩
    | resting => exact ⟨[], rfl, Or.inl .closed⟩
    | closed =>
        have hclosed : b.phase.Owes [] outcome := by
          rw [hphase]
          exact .closed
        exact ⟨[], rfl, Or.inl hclosed⟩
  · rcases gaveUp_produce hgave with ⟨hproduce, hnone⟩
    exact ⟨owed, by rw [hnone, List.nil_append], Or.inr hproduce⟩

theorem stands_expire (h : b.phase.Stands owed outcome) : b.expire.phase.Stands owed outcome := by
  unfold expire
  split
  · next batch p hphase =>
    split
    · exact h
    · rcases h with howes | ⟨stats, hstats, -⟩
      · rw [hphase] at howes
        cases howes with
        | sending hsound hrest => exact Or.inl (.rechecking hsound hrest)
      · rw [hphase] at hstats
        cases hstats
  · exact h

theorem queue_expire (b : Buffer) : b.expire.queue = b.queue := by
  unfold expire
  split
  · split <;> rfl
  · rfl

/-! ## Joining -/

theorem joined_produce (b : Buffer) : b.produce.joined = b.joined := by
  unfold produce
  split
  · rfl
  · rfl
  · split <;> rfl
  · split <;> rfl
  · split <;> rfl
  · rfl
  · rfl

theorem joined_expire (b : Buffer) : b.expire.joined = b.joined := by
  unfold expire
  split
  · split <;> rfl
  · rfl

theorem outcome?_produceFor (h : b.phase.outcome? = some o) (moves : Nat) :
    (b.produceFor moves).phase.outcome? = some o ∧ (b.produceFor moves).joined = b.joined := by
  induction moves generalizing b with
  | zero => exact ⟨h, rfl⟩
  | succ moves ih =>
      unfold produceFor
      split
      · rw [← joined_produce b]
        exact ih (outcome?_produce h).1
      · exact ⟨h, rfl⟩

theorem outcome?_settle (h : b.phase.outcome? = some o) :
    b.settle.phase.outcome? = some o ∧ b.settle.joined = b.joined :=
  outcome?_produceFor h _

/-- Joining a producer that has ended tells its outcome. -/
theorem join_of_outcome? (h : b.phase.outcome? = some o) (hjoined : b.joined = false) :
    b.join.1 = o := by
  rcases outcome?_settle h with ⟨hfirst, hkept⟩
  -- No spell of waiting ends, because there is nothing to hand over.
  have hexpire : b.settle.expire = b.settle := by
    unfold expire
    split
    · next batch p hphase =>
      rw [hphase] at hfirst
      cases hfirst
    · rfl
  rcases outcome?_settle hfirst with ⟨hsecond, hkept'⟩
  rw [hkept, hjoined] at hkept'
  simp only [join, hexpire, hkept', hsecond, Bool.false_eq_true, if_false]

end Buffer

/-! ## Every order of turns -/

namespace Session

variable {τ : Type} {feed : Batch → τ → τ} {first : τ} {all front : List Batch}
variable {outcome : CaptureOutcome} {s : Session τ}

/-- The batch that a turn puts into the queue, if it does. -/
def handed (s : Session τ) : Turn → List Batch
  | .producer => s.buffer.handed
  | .expiry | .consumer | .stop => []

/-- The batches that are put into the queue along a schedule. -/
def pushed (feed : Batch → τ → τ) : Session τ → List Turn → List Batch
  | _, [] => []
  | s, t :: rest => s.handed t ++ pushed feed (s.turn feed t) rest

/-- The session is on its way, whether a stop was asked for or not. What was
    pushed has been fed or waits. It begins the batches of the reading, and the
    others are owed or given up. A consumer that has left or is about to leave
    overlooks none that was pushed. -/
structure Serves (feed : Batch → τ → τ) (first : τ) (all : List Batch) (outcome : CaptureOutcome)
    (front : List Batch) (s : Session τ) : Prop where
  fed : ∃ taken, taken ++ s.buffer.queue = front ∧
    s.state = taken.foldl (fun t batch => feed batch t) first
  stands : ∃ owed, front ++ owed = all ∧ s.buffer.phase.Stands owed outcome
  unjoined : s.buffer.joined = false
  draining : s.stage = .draining → s.buffer.phase.running = false
  exited : s.stage = .exited → s.buffer.phase.running = false ∧ s.buffer.queue = []

theorem Serves.produce (h : s.Serves feed first all outcome front) :
    (s.turn feed .producer).Serves feed first all outcome (front ++ s.handed .producer) := by
  rcases h.fed with ⟨taken, hfront, hstate⟩
  rcases h.stands with ⟨owed, hall, hstands⟩
  rcases Buffer.stands_produce hstands with ⟨rest, rfl, hrest⟩
  refine ⟨⟨taken, ?_, hstate⟩, ⟨rest, ?_, hrest⟩, ?_, fun hstage => ?_, fun hstage => ?_⟩
  · simp only [turn, handed, Buffer.queue_produce, ← List.append_assoc, hfront]
  · rw [handed, List.append_assoc, hall]
  · exact (Buffer.joined_produce s.buffer).trans h.unjoined
  · exact Buffer.running_produce (h.draining hstage)
  · rcases h.exited hstage with ⟨hflag, hqueue⟩
    refine ⟨Buffer.running_produce hflag, ?_⟩
    simp only [turn, Buffer.queue_produce, hqueue, Buffer.handed_of_not_running hflag,
      List.append_nil]

theorem Serves.expire (h : s.Serves feed first all outcome front) :
    (s.turn feed .expiry).Serves feed first all outcome front := by
  rcases h.fed with ⟨taken, hfront, hstate⟩
  rcases h.stands with ⟨owed, hall, hstands⟩
  refine ⟨⟨taken, ?_, hstate⟩, ⟨owed, hall, Buffer.stands_expire hstands⟩, ?_, fun hstage => ?_,
    fun hstage => ?_⟩
  · simp only [turn, Buffer.queue_expire, hfront]
  · exact (Buffer.joined_expire s.buffer).trans h.unjoined
  · exact Buffer.running_expire (h.draining hstage)
  · rcases h.exited hstage with ⟨hflag, hqueue⟩
    exact ⟨Buffer.running_expire hflag, (Buffer.queue_expire s.buffer).trans hqueue⟩

/-- Taking from the queue, where to go if it is empty being known to be right. -/
theorem Serves.take (h : s.Serves feed first all outcome front) (hstage : s.stage ≠ .exited)
    {otherwise : Stage} (hdraining : otherwise ≠ .draining)
    (hexited : otherwise = .exited → s.buffer.phase.running = false) :
    (s.take feed otherwise).Serves feed first all outcome front := by
  rcases h.fed with ⟨taken, hfront, hstate⟩
  unfold Session.take Buffer.next?
  cases hqueue : s.buffer.queue with
  | nil =>
      exact ⟨h.fed, h.stands, h.unjoined, fun hd => absurd hd hdraining,
        fun hleft => ⟨hexited hleft, hqueue⟩⟩
  | cons batch queue =>
      refine ⟨⟨taken ++ [batch], ?_, ?_⟩, h.stands, h.unjoined, h.draining,
        fun hleft => absurd hleft hstage⟩
      · rw [← hfront, hqueue, List.append_assoc, List.singleton_append]
      · simp only [List.foldl_append, ← hstate, List.foldl_cons, List.foldl_nil]

theorem Serves.consume (h : s.Serves feed first all outcome front) :
    (s.consume feed).Serves feed first all outcome front := by
  unfold Session.consume
  cases hstage : s.stage with
  | polling =>
      exact h.take (by rw [hstage]; exact Stage.noConfusion) (afterEmpty_ne_draining s)
        not_running_of_afterEmpty
  | checking =>
      refine ⟨h.fed, h.stands, h.unjoined, fun hd => ?_, fun hleft => ?_⟩
      · simp only at hd
        split at hd
        · cases hd
        · next hflag => exact Bool.eq_false_iff.mpr hflag
      · simp only at hleft
        split at hleft <;> cases hleft
  | draining =>
      exact h.take (by rw [hstage]; exact Stage.noConfusion) Stage.noConfusion
        fun _ => h.draining hstage
  | exited => exact h

/-- One turn of either side, or a request to stop. -/
theorem Serves.turn (h : s.Serves feed first all outcome front) (t : Turn) :
    (s.turn feed t).Serves feed first all outcome (front ++ s.handed t) := by
  cases t with
  | producer => exact h.produce
  | expiry => rw [handed, List.append_nil]; exact h.expire
  | consumer => rw [handed, List.append_nil]; exact h.consume
  | stop =>
      -- What is asked for is looked at by the producer alone.
      rw [handed, List.append_nil]
      exact ⟨h.fed, h.stands, h.unjoined, h.draining, h.exited⟩

/-- Any order of turns serves the reading, and what was pushed is its
    beginning. -/
theorem Serves.play (h : s.Serves feed first all outcome front) (schedule : List Turn) :
    (s.play feed schedule).Serves feed first all outcome (front ++ s.pushed feed schedule) := by
  induction schedule generalizing s front with
  | nil =>
      rw [pushed, List.append_nil]
      exact h
  | cons t rest ih =>
      rw [pushed, ← List.append_assoc]
      exact ih (h.turn t)

/-- A producer that has ended has pushed its whole reading, or it has given up
    behind the beginning of it. -/
theorem Serves.of_outcome? {o : CaptureOutcome} (h : s.Serves feed first all outcome front)
    (ho : s.buffer.phase.outcome? = some o) :
    (front = all ∧ o = outcome) ∨
      (front <+: all ∧ ∃ stats, o = .ok stats ∧ stats.stoppedEarly = true) := by
  rcases h.stands with ⟨owed, hall, hstands⟩
  rcases hstands.of_outcome? ho with ⟨rfl, rfl⟩ | hgave
  · rw [List.append_nil] at hall
    exact Or.inl ⟨hall, rfl⟩
  · exact Or.inr ⟨⟨owed, hall⟩, hgave⟩

/-- A consumer that has left has fed all that was pushed, and the producer has
    ended. -/
theorem Serves.of_isOver (h : s.Serves feed first all outcome front) (hover : s.isOver = true) :
    s.state = front.foldl (fun t batch => feed batch t) first ∧
      ∃ o, s.buffer.phase.outcome? = some o ∧ s.buffer.join.1 = o := by
  rcases h.fed with ⟨taken, hfront, hstate⟩
  rcases h.stands with ⟨owed, -, hstands⟩
  rcases h.exited (eq_of_beq hover) with ⟨hflag, hqueue⟩
  rw [hqueue, List.append_nil] at hfront
  subst hfront
  rcases hstands.exists_outcome? hflag with ⟨o, ho⟩
  exact ⟨hstate, o, ho, Buffer.join_of_outcome? ho h.unjoined⟩

end Session

/-! ## The beginning of a file -/

namespace CaptureFile

variable {file : CaptureFile} {room : Nat} {records taken left : List Record} {tail : Bytes}
variable {batches : List Batch} {outcome : CaptureOutcome}

/-- The beginning of what is delivered is delivered. -/
theorem Delivered.front {front back : List Batch}
    (h : file.Delivered room taken left (front ++ back)) :
    ∃ taken' more, taken = taken' ++ more ∧ file.Delivered room taken' (more ++ left) front := by
  have hlength := h.length
  rw [List.flatMap_append, List.length_append] at hlength
  refine ⟨taken.take (front.flatMap Batch.packets).length,
    taken.drop (front.flatMap Batch.packets).length, (List.take_append_drop _ _).symm, ?_, ?_, ?_⟩
  · rw [List.length_take]
    omega
  · intro i packet r hpacket hr
    have hi := (List.getElem?_eq_some_iff.mp hpacket).1
    rw [List.getElem?_take_of_lt hi] at hr
    refine h.packets i packet r ?_ hr
    rw [List.flatMap_append, List.getElem?_append_left hi, hpacket]
  · intro before after batch hbatches
    rw [← List.append_assoc, List.take_append_drop]
    exact h.longest before (after ++ back) batch
      (by rw [hbatches, List.append_assoc, List.cons_append])

/-- Batches that are the beginning of a file: the records in front come out of
    reads with this much room, the others do not. An outcome without a fault has
    been stopped or tells of every octet; one with a fault names the first record
    that does not fit, and everything in front of it has come out. -/
structure ReadsUpTo (f : CaptureFile) (room : Nat) (records : List Record) (tail : Bytes)
    (taken left : List Record) (batches : List Batch) (outcome : CaptureOutcome) : Prop where
  splits : Record.Splits f.header.byteOrder f.body records tail
  cut : records = taken ++ left
  delivered : f.Delivered room taken left batches
  ended : ∀ stats, outcome = .ok stats → stats.stoppedEarly = true ∨
    (left = [] ∧ stats.packets = records.length ∧ stats.bytesConsumed = Record.total records ∧
      stats.truncatedTailBytes = tail.length ∧
      CaptureHeader.length + Record.total records + tail.length = f.size)
  failed : ∀ e, outcome = .error e → Record.Blocked room left tail ∧
    e = .recordTooLarge (CaptureHeader.length + Record.total taken)
      (f.header.byteOrder.u32At (f.body.drop (Record.total taken)) 8) room

/-- A reading that nobody stops is one that goes as far as it can. -/
theorem Reads.exists_readsUpTo (h : file.Reads room records tail batches outcome) :
    ∃ taken left, file.ReadsUpTo room records tail taken left batches outcome := by
  by_cases hfit : Record.Fit room records tail
  · rcases h.whole hfit with ⟨hdelivered, rfl, hsize⟩
    refine ⟨records, [], h.splits, (List.append_nil records).symm, hdelivered, ?_, ?_⟩
    · intro stats hstats
      cases hstats
      exact Or.inr ⟨rfl, rfl, rfl, rfl, hsize⟩
    · intro e he
      cases he
  · rcases h.blocked hfit with ⟨taken, left, hrecords, -, hblocked, hdelivered, rfl⟩
    refine ⟨taken, left, h.splits, hrecords, hdelivered, ?_, ?_⟩
    · intro stats hstats
      cases hstats
    · intro e he
      cases he
      exact ⟨hblocked, rfl⟩

/-- A producer that gives up has handed over the beginning of its reading. -/
theorem ReadsUpTo.of_stopped {front back : List Batch} {stats : CaptureStats}
    (h : file.ReadsUpTo room records tail taken left (front ++ back) outcome)
    (hearly : stats.stoppedEarly = true) :
    ∃ taken left, file.ReadsUpTo room records tail taken left front (.ok stats) := by
  rcases h.delivered.front with ⟨taken', more, rfl, hdelivered⟩
  refine ⟨taken', more ++ left, h.splits, ?_, hdelivered, ?_, ?_⟩
  · rw [h.cut, List.append_assoc]
  · intro other hother
    cases hother
    exact Or.inl hearly
  · intro e he
    cases he

end CaptureFile

namespace Session

variable {τ : Type}

/-- Whoever acts when, and whenever a stop is asked for: a producer that has
    ended has pushed the beginning of the file, and its outcome says so if that
    is not all of it. A consumer that has left has fed the batches that were
    pushed, and joining tells the outcome. -/
theorem shutdown_loses_nothing {path : String} {found : Except SystemFault Entry}
    {file : CaptureFile} (hopen : CaptureFile.open? path found = .ok file)
    (hsize : file.size < UInt64.size) (chunkSize : Nat) (capacity : Option Nat) (early : Bool)
    {buffer started : Buffer} (hbuffer : buffer = .ofFile file chunkSize capacity)
    (hstart : (if early then buffer.stop else buffer).start = .ok started)
    (poll : PollMode) (feed : Batch → τ → τ) (first : τ) (schedule : List Turn)
    {session ended : Session τ} (hsession : session = { buffer := started, poll, state := first })
    (hended : ended = session.play feed schedule) :
    (∀ outcome, ended.buffer.phase.outcome? = some outcome → ∃ records tail taken left,
      file.ReadsUpTo (max chunkSize RecordHeader.length) records tail taken left
        (session.pushed feed schedule) outcome) ∧
    (ended.isOver = true →
      ended.state = (session.pushed feed schedule).foldl (fun t batch => feed batch t) first ∧
      ∃ outcome, ended.buffer.phase.outcome? = some outcome ∧ ended.buffer.join.1 = outcome) := by
  have hsound := Producer.sound_opening hopen hsize chunkSize
  rcases hsound.exists_publishes with ⟨all, outcome, hrest⟩
  rcases Producer.reads_of_publishes hopen hsize hrest with ⟨records, tail, hreads⟩
  rcases hreads.exists_readsUpTo with ⟨taken, left, hall⟩
  subst hbuffer hsession hended
  -- Nothing has been pushed yet, and the whole reading is owed.
  have hserves : Serves feed first all outcome []
      ({ buffer := started, poll, state := first } : Session τ) := by
    cases early <;> cases hstart <;>
      exact ⟨⟨[], rfl, rfl⟩, ⟨all, rfl, Or.inl (.reading hsound hrest)⟩, rfl, Stage.noConfusion,
        Stage.noConfusion⟩
  have hplay := hserves.play schedule
  rw [List.nil_append] at hplay
  refine ⟨fun o ho => ⟨records, tail, ?_⟩, hplay.of_isOver⟩
  rcases hplay.of_outcome? ho with ⟨hpushed, rfl⟩ | ⟨⟨back, hback⟩, stats, rfl, hearly⟩
  · rw [hpushed]
    exact ⟨taken, left, hall⟩
  · rw [← hback] at hall
    exact hall.of_stopped hearly

/-- The producer hands over two of three batches, of which one is taken in
    between, and finds no room for the third. It is then asked to stop, and
    when the wait for room is over it gives the batch up. -/
def stoppedSchedule : List Turn :=
  [.producer, .producer, .consumer, .producer, .producer, .producer, .producer, .stop, .expiry,
    .producer, .consumer, .producer, .producer, .consumer]

/-- Keep the batches that are fed. -/
def keep (batch : Batch) (fed : List Batch) : List Batch := fed ++ [batch]

theorem foldl_keep (batches fed : List Batch) :
    batches.foldl (fun fed batch => keep batch fed) fed = fed ++ batches := by
  induction batches generalizing fed with
  | nil => rw [List.foldl_nil, List.append_nil]
  | cons batch rest ih => rw [List.foldl_cons, ih, keep, List.append_assoc, List.singleton_append]

/-- Of the three batches of the capture the first two are pushed and fed. -/
theorem shutdown_dayContent :
    ∃ (file : CaptureFile) (session : Session (List Batch)) (outcome : CaptureOutcome),
      CaptureFile.open? "day.pcap" (.ok (.file CaptureFile.dayContent)) = .ok file ∧
      (Buffer.ofFile file 36 (some 1)).start = .ok session.buffer ∧ session.state = [] ∧
      (session.play keep stoppedSchedule).isOver = true ∧
      (session.play keep stoppedSchedule).state = session.pushed keep stoppedSchedule ∧
      (session.pushed keep stoppedSchedule).map Batch.size = [2, 1] ∧
      (session.play keep stoppedSchedule).buffer.join.1 = outcome ∧
      ∃ taken left, file.ReadsUpTo 36 dayRecords [9, 0, 0] taken left
        (session.pushed keep stoppedSchedule) outcome := by
  have hrun : ∃ file started,
      CaptureFile.open? "day.pcap" (.ok (.file CaptureFile.dayContent)) = .ok file ∧
      file.size < UInt64.size ∧
      Record.Splits file.header.byteOrder file.body dayRecords [9, 0, 0] ∧
      (Buffer.ofFile file 36 (some 1)).start = .ok started ∧
      (({ buffer := started, poll := .blocking, state := [] } : Session _).play keep
        stoppedSchedule).isOver = true ∧
      (({ buffer := started, poll := .blocking, state := [] } : Session _).pushed keep
        stoppedSchedule).map Batch.size = [2, 1] :=
    ⟨_, _, rfl, by decide +kernel, ⟨by decide +kernel, by decide, Or.inl (by decide)⟩, rfl,
      by decide +kernel, by decide +kernel⟩
  rcases hrun with ⟨file, started, hopen, hsize, hsplits, hstart, hover, hsizes⟩
  rcases shutdown_loses_nothing hopen hsize 36 (some 1) false rfl hstart .blocking keep []
    stoppedSchedule rfl rfl with ⟨hpushed, hleft⟩
  rcases hleft hover with ⟨hstate, outcome, houtcome, hjoin⟩
  rcases hpushed outcome houtcome with ⟨records, tail, taken, left, hreads⟩
  -- A body splits into records in one way.
  rcases hsplits.unique hreads.splits with ⟨rfl, rfl⟩
  refine ⟨file, _, outcome, hopen, hstart, rfl, hover, ?_, hsizes, hjoin, taken, left, hreads⟩
  rw [hstate]
  exact foldl_keep _ []

end Session

end MarketFeed
