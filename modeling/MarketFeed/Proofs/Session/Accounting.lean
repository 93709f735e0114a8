import MarketFeed.Proofs.Session.Reference
import MarketFeed.Proofs.Session.Stopping

/-!
# What the Counts Count

The counts of a producer that ends without a fault, against the batches that
it has put into the queue.

The producer counts a batch when it has read it, and only then tries to hand
it over. As long as it goes on, a counted batch is either in the queue or in
its hands, so the counts are those of the batches that were pushed and of the
one that it holds. A producer that ends holds none, with one exception: it
waits for room, a spell of waiting ends without any, and a stop has been asked
for. Then it gives up the batch that it holds and keeps the counts.

So the counts are those of the batches that were pushed and of the one that
was dropped, if one was. Where one was, the packets that were counted are more
than those that any consumer can have seen.

The batch that is dropped is followed along the schedule as those are that are
pushed, and one invariant says for each phase of the producer what its counts
are. A step lemma for the producer's move carries it, since no other turn
changes the producer or what it has counted.

## Main definitions

* `CaptureStats.CountsOf`: The counts are those of these batches.
* `Buffer.abandoned`, `Session.dropped`: The batch that is given up.
* `Phase.Tallies`: What the counts are in each phase.

## Theorems

* `CountsOf.read`: One read counts what it gives.
* `tallies_produce`, `tallies_turn`, `tallies_play`: Pushed and dropped
  batches are what is counted.
* `counts_of_start`: The counts of a producer that has ended.
* `report_of_start`: What a run that is over reports.
* `counts_pushed_and_dropped`: Both against the dropped batch.
* `dropped_batch_counted`: A run that reports more packets than it processed.
-/

namespace MarketFeed

/-! ## The counts of batches -/

/-- How many octets the records of a batch take in the file. -/
def Batch.recordOctets (b : Batch) : Nat :=
  (b.packets.map fun packet => RecordHeader.length + packet.data.length).sum

theorem Batch.recordOctets_ofRecords (resolution : Resolution) (first : UInt64)
    (records : List Record) :
    (ofRecords resolution first records.toArray).recordOctets = Record.total records := by
  have hpackets := packets_ofRecords resolution first.toNat records
  rw [UInt64.ofNat_toNat] at hpackets
  have hsizes : (records.mapIdx fun i r => r.packet resolution (first.toNat + i)).map
      (fun packet => RecordHeader.length + packet.data.length) = records.map Record.size := by
    refine List.ext_getElem? fun i => ?_
    rw [List.getElem?_map, List.getElem?_mapIdx, List.getElem?_map, Option.map_map]
    rfl
  rw [recordOctets, hpackets, hsizes, Record.total]

namespace CaptureStats

/-- The counts are those of these batches: how many there are, how many packets
    they have, and how many octets the records of the packets take. -/
structure CountsOf (stats : CaptureStats) (counted : List Batch) : Prop where
  batches : stats.batches = counted.length
  packets : stats.packets = (counted.flatMap Batch.packets).length
  bytesConsumed : stats.bytesConsumed = (counted.map Batch.recordOctets).sum

variable {p : Producer} {counted : List Batch} {stats : CaptureStats}

/-- A batch is counted as soon as it is read, unless the offset cannot be moved
    behind it. -/
theorem CountsOf.publish (h : stats.CountsOf counted) (records : Array Record) :
    (∃ batch next, p.publish records stats = .publish batch next ∧
        next.stats.CountsOf (counted ++ [batch])) ∨
      p.publish records stats = .finish (.error .readingFailed) := by
  rcases records with ⟨records⟩
  unfold Producer.publish
  dsimp only
  split
  · exact Or.inr rfl
  · refine Or.inl ⟨_, _, rfl, ?_, ?_, ?_⟩
    · rw [h.batches, List.length_append]
      rfl
    · simp only [h.packets, List.flatMap_append, List.flatMap_singleton, List.length_append,
        Producer.length_packets_ofRecords, List.size_toArray]
    · simp only [h.bytesConsumed, Record.foldl_size, List.map_append, List.sum_append_nat,
        List.map_cons, List.map_nil, List.sum_cons, List.sum_nil, Batch.recordOctets_ofRecords,
        Nat.add_zero]

/-- A read counts the batch that it gives. If the reading is over, there is
    nothing more to count. -/
theorem CountsOf.read (h : p.stats.CountsOf counted) (stop : Bool) :
    (∃ batch next, p.read stop = .publish batch next ∧
        next.stats.CountsOf (counted ++ [batch])) ∨
      ∃ outcome, p.read stop = .finish outcome ∧
        ∀ stats, outcome = .ok stats → stats.CountsOf counted := by
  -- However the reading ends, what was counted of the batches stays.
  have hsame : ∀ stats : CaptureStats, stats.batches = p.stats.batches →
      stats.packets = p.stats.packets → stats.bytesConsumed = p.stats.bytesConsumed →
      ∀ other, (Except.ok stats : CaptureOutcome) = .ok other → other.CountsOf counted := by
    intro stats hbatches hpackets hbytes other hother
    cases hother
    exact ⟨hbatches.trans h.batches, hpackets.trans h.packets, hbytes.trans h.bytesConsumed⟩
  unfold Producer.read
  by_cases hend : p.file.remaining = 0
  · rw [if_pos hend]
    exact Or.inr ⟨_, rfl, hsame _ rfl rfl rfl⟩
  rw [if_neg hend]
  cases stop with
  | true => exact Or.inr ⟨_, rfl, hsame _ rfl rfl rfl⟩
  | false =>
      simp only [Bool.false_eq_true, if_false]
      cases p.file.readChunk (min p.file.remaining p.chunkSize) with
      | error e => exact Or.inr ⟨_, rfl, fun stats hstats => nomatch hstats⟩
      | ok chunk =>
          simp only
          split
          · split
            · exact Or.inr ⟨_, rfl, fun stats hstats => nomatch hstats⟩
            · exact Or.inr ⟨_, rfl, hsame _ rfl rfl rfl⟩
          · -- The chunk is counted as well, which is not looked at here.
            have hread : CountsOf { p.stats with chunks := p.stats.chunks + 1 } counted :=
              ⟨h.batches, h.packets, h.bytesConsumed⟩
            rcases hread.publish (p := p) _ with hpublish | hfailed
            · exact Or.inl hpublish
            · exact Or.inr ⟨_, hfailed, fun stats hstats => nomatch hstats⟩

end CaptureStats

/-! ## The batch that is given up -/

/-- What has been counted in a phase, against the batches that were pushed and
    the one that was dropped. A producer that goes on has counted the batch that
    it holds. -/
inductive Phase.Tallies : Phase → List Batch → List Batch → Prop
  | reading {p : Producer} {pushed : List Batch} (h : p.stats.CountsOf pushed) :
      Tallies (.reading p) pushed []
  | sending {batch : Batch} {p : Producer} {pushed : List Batch}
      (h : p.stats.CountsOf (pushed ++ [batch])) : Tallies (.sending batch p) pushed []
  | rechecking {batch : Batch} {p : Producer} {pushed : List Batch}
      (h : p.stats.CountsOf (pushed ++ [batch])) : Tallies (.rechecking batch p) pushed []
  | ended {phase : Phase} {outcome : CaptureOutcome} {pushed dropped : List Batch}
      (hphase : phase.outcome? = some outcome)
      (hcounts : ∀ stats, outcome = .ok stats → stats.CountsOf (pushed ++ dropped))
      (hdropped : dropped = [] ∨
        ∃ batch stats, dropped = [batch] ∧ outcome = .ok stats ∧ stats.stoppedEarly = true) :
      Tallies phase pushed dropped

/-- What a producer that has ended without a fault has counted. -/
theorem Phase.Tallies.of_outcome? {phase : Phase} {pushed dropped : List Batch}
    {stats : CaptureStats} (h : phase.Tallies pushed dropped)
    (houtcome : phase.outcome? = some (.ok stats)) :
    stats.CountsOf (pushed ++ dropped) ∧
      (dropped = [] ∨ ∃ batch, dropped = [batch] ∧ stats.stoppedEarly = true) := by
  cases h with
  | ended hphase hcounts hdropped =>
      rw [hphase] at houtcome
      cases houtcome
      refine ⟨hcounts stats rfl, ?_⟩
      rcases hdropped with hnone | ⟨batch, stats', hone, hstats, hearly⟩
      · exact Or.inl hnone
      · cases hstats
        exact Or.inr ⟨batch, hone, hearly⟩
  | _ => cases houtcome

namespace Buffer

variable {b : Buffer} {pushed dropped : List Batch}

/-- The batch that the producer gives up with its next move, if it does: there
    was no room for it, and a stop has been asked for. -/
def abandoned (b : Buffer) : List Batch :=
  match b.phase with
  | .rechecking batch _ => if b.stopped then [batch] else []
  | _ => []

theorem abandoned_of_outcome? {outcome : CaptureOutcome} (h : b.phase.outcome? = some outcome) :
    b.abandoned = [] := by
  unfold abandoned
  cases hphase : b.phase with
  | rechecking batch p => rw [hphase] at h; cases h
  | _ => rfl

/-- A move of the producer keeps the tally. A batch that it hands over goes to
    those that were pushed, and one that it gives up stays counted. -/
theorem tallies_produce (h : b.phase.Tallies pushed dropped) :
    b.produce.phase.Tallies (pushed ++ b.handed) (dropped ++ b.abandoned) := by
  generalize hphase : b.phase = phase at h
  cases h with
  | reading hcounts =>
      simp only [produce, handed, abandoned, hphase, List.append_nil]
      rcases hcounts.read b.stopped with ⟨batch, next, hread, hnext⟩ | ⟨outcome, hread, hnext⟩
      · simp only [hread]
        exact .sending hnext
      · simp only [hread]
        refine .ended rfl ?_ (Or.inl rfl)
        rw [List.append_nil]
        exact hnext
  | sending hcounts =>
      simp only [produce, handed, abandoned, hphase]
      by_cases hroom : b.hasRoom = true
      · rw [if_pos hroom, if_pos hroom]
        exact .reading hcounts
      · rw [if_neg hroom, if_neg hroom, List.append_nil, hphase]
        exact .sending hcounts
  | @rechecking batch p _ hcounts =>
      simp only [produce, handed, abandoned, hphase, List.append_nil, List.nil_append]
      by_cases hstop : b.stopped = true
      · rw [if_pos hstop, if_pos hstop]
        -- A batch that found no room is given up here, after it was counted.
        refine .ended rfl ?_ (Or.inr ⟨batch, p.stopped, rfl, rfl, rfl⟩)
        intro stats hstats
        cases hstats
        exact ⟨hcounts.batches, hcounts.packets, hcounts.bytesConsumed⟩
      · rw [if_neg hstop, if_neg hstop]
        exact .sending hcounts
  | ended houtcome hcounts hdropped =>
      rw [← hphase] at houtcome
      rcases outcome?_produce houtcome with ⟨hproduce, hnone⟩
      rw [hnone, abandoned_of_outcome? houtcome, List.append_nil, List.append_nil]
      exact .ended hproduce hcounts hdropped

theorem tallies_expire (h : b.phase.Tallies pushed dropped) :
    b.expire.phase.Tallies pushed dropped := by
  unfold expire
  split
  · next batch p hphase =>
    split
    · exact h
    · rw [hphase] at h
      cases h with
      | sending hcounts => exact .rechecking hcounts
      | ended houtcome _ _ => cases houtcome
  · exact h

end Buffer

/-! ## Every order of turns -/

namespace Session

variable {τ : Type} {feed : Batch → τ → τ} {s : Session τ} {front lost : List Batch}

/-- The batch that is given up with a turn, if one is. -/
def abandoned (s : Session τ) : Turn → List Batch
  | .producer => s.buffer.abandoned
  | .expiry | .consumer | .stop => []

/-- The batches that are given up along a schedule. -/
def dropped (feed : Batch → τ → τ) : Session τ → List Turn → List Batch
  | _, [] => []
  | s, t :: rest => s.abandoned t ++ dropped feed (s.turn feed t) rest

theorem phase_take (otherwise : Stage) :
    (s.take feed otherwise).buffer.phase = s.buffer.phase := by
  unfold take Buffer.next?
  split
  · next hnext =>
    split at hnext <;> cases hnext
    rfl
  · rfl

/-- The consumer leaves the producer alone. -/
theorem phase_consume : (s.consume feed).buffer.phase = s.buffer.phase := by
  unfold consume
  cases s.stage with
  | polling => exact phase_take _
  | checking => rfl
  | draining => exact phase_take _
  | exited => rfl

/-- One turn hands over or gives up what it takes from the reading. -/
theorem tallies_turn (h : s.buffer.phase.Tallies front lost) (t : Turn) :
    (s.turn feed t).buffer.phase.Tallies (front ++ s.handed t) (lost ++ s.abandoned t) := by
  cases t with
  | producer => exact Buffer.tallies_produce h
  | expiry =>
      rw [handed, abandoned, List.append_nil, List.append_nil]
      exact Buffer.tallies_expire h
  | consumer =>
      rw [handed, abandoned, List.append_nil, List.append_nil, turn, phase_consume]
      exact h
  | stop =>
      rw [handed, abandoned, List.append_nil, List.append_nil]
      exact h

/-- Whatever the order of turns is, every batch that was read is pushed, dropped
    or in hand. -/
theorem tallies_play (h : s.buffer.phase.Tallies front lost) (schedule : List Turn) :
    (s.play feed schedule).buffer.phase.Tallies (front ++ s.pushed feed schedule)
      (lost ++ s.dropped feed schedule) := by
  induction schedule generalizing s front lost with
  | nil =>
      rw [pushed, dropped, List.append_nil, List.append_nil]
      exact h
  | cons t rest ih =>
      rw [pushed, dropped, ← List.append_assoc, ← List.append_assoc]
      exact ih (tallies_turn h t)

end Session

/-- A consumer processes the packets of the batches that it is fed. -/
theorem Consumer.processed_foldl_feed {σ : Type} (listen : Listener σ) (batches : List Batch)
    (heard : σ) :
    (batches.foldl (fun c batch => Consumer.feed listen batch c) { heard }).filter.processed
      = (batches.flatMap Batch.packets).length := by
  rw [foldl_feed, feedPackets, Filter.passAll_eq]
  simp only [Filter.processed_foldl_tally, List.length_flatMap, List.length_map, Nat.zero_add]

namespace Session

section Started

variable {path : String} {found : Except SystemFault Entry} {file : CaptureFile}
variable (hopen : CaptureFile.open? path found = .ok file) (hsize : file.size < UInt64.size)
variable {chunkSize : Nat} {capacity : Option Nat} (early : Bool) {started : Buffer}
variable (hstart : (if early then (Buffer.ofFile file chunkSize capacity).stop
  else .ofFile file chunkSize capacity).start = .ok started)
include hstart

/-- A producer that has ended without a fault has counted what it pushed and
    what it dropped. -/
theorem counts_of_start {τ : Type} {poll : PollMode} {schedule : List Turn}
    (feed : Batch → τ → τ) (first : τ) (session : Session τ) (stats : CaptureStats)
    (hsession : session = { buffer := started, poll, state := first })
    (houtcome : (session.play feed schedule).buffer.phase.outcome? = some (.ok stats)) :
    stats.CountsOf (session.pushed feed schedule ++ session.dropped feed schedule) ∧
      (session.dropped feed schedule = [] ∨
        ∃ batch, session.dropped feed schedule = [batch] ∧ stats.stoppedEarly = true) := by
  -- Nothing has been counted yet, and nothing was pushed or dropped.
  have hnothing : session.buffer.phase.Tallies [] [] := by
    rw [hsession]
    cases early <;> cases hstart <;> exact .reading ⟨rfl, rfl, rfl⟩
  exact (tallies_play hnothing schedule).of_outcome? houtcome

include hopen hsize

/-- A session that was just started is on its way, with all batches of the
    reading before it. -/
theorem serves_of_start {τ : Type} (poll : PollMode) (feed : Batch → τ → τ) (first : τ) :
    ∃ all outcome,
      ({ buffer := started, poll, state := first } : Session τ).Serves feed first all outcome
        [] := by
  have hsound := Producer.sound_opening hopen hsize chunkSize
  rcases hsound.exists_publishes with ⟨all, outcome, hrest⟩
  refine ⟨all, outcome, ?_⟩
  cases early <;> cases hstart <;>
    exact ⟨⟨[], rfl, rfl⟩, ⟨all, rfl, Or.inl (.reading hsound hrest)⟩, rfl, Stage.noConfusion,
      Stage.noConfusion⟩

/-- A run that is over reports what the producer has counted, and as processed
    the packets of the batches that were pushed. -/
theorem report_of_start {σ : Type} {poll : PollMode} {schedule : List Turn} {listen : Listener σ}
    {heard final : σ} {report : RunReport} {session : Session (Consumer σ)}
    (hsession : session = { buffer := started, poll, state := { heard } })
    (hover : (session.play (Consumer.feed listen) schedule).isOver = true)
    (hcollect : Run.collect (session.play (Consumer.feed listen) schedule) = .ok (final, report)) :
    (session.play (Consumer.feed listen) schedule).buffer.phase.outcome?
        = some (.ok report.capture) ∧
      report.filter.processed
        = ((session.pushed (Consumer.feed listen) schedule).flatMap Batch.packets).length := by
  rcases serves_of_start hopen hsize early hstart poll (Consumer.feed listen) { heard } with
    ⟨all, outcome, hserves⟩
  rw [← hsession] at hserves
  rcases (hserves.play schedule).of_isOver hover with ⟨hstate, o, houtcome, hjoin⟩
  rw [List.nil_append] at hstate
  rw [Run.collect, hjoin] at hcollect
  cases o with
  | error e => cases hcollect
  | ok stats =>
      cases hcollect
      refine ⟨houtcome, ?_⟩
      rw [hstate, Consumer.processed_foldl_feed]

/-- Whoever acts when, and whenever a stop is asked for: a producer that ends
    without a fault has counted the batches that it pushed, and the one that it
    dropped if it was stopped while it waited for room. The report of a run
    counts the packets that were processed and those of the dropped batch. -/
theorem counts_pushed_and_dropped (poll : PollMode) (schedule : List Turn) :
    (∀ {τ : Type} (feed : Batch → τ → τ) (first : τ) (session : Session τ) (stats : CaptureStats),
      session = { buffer := started, poll, state := first } →
      (session.play feed schedule).buffer.phase.outcome? = some (.ok stats) →
        stats.CountsOf (session.pushed feed schedule ++ session.dropped feed schedule) ∧
          (session.dropped feed schedule = [] ∨
            ∃ batch, session.dropped feed schedule = [batch] ∧ stats.stoppedEarly = true)) ∧
    ∀ {σ : Type} (listen : Listener σ) (heard final : σ) (report : RunReport)
      (session : Session (Consumer σ)),
      session = { buffer := started, poll, state := { heard } } →
      (session.play (Consumer.feed listen) schedule).isOver = true →
      Run.collect (session.play (Consumer.feed listen) schedule) = .ok (final, report) →
        report.capture.packets = report.filter.processed
          + ((session.dropped (Consumer.feed listen) schedule).flatMap Batch.packets).length := by
  refine ⟨counts_of_start early hstart, ?_⟩
  intro σ listen heard final report session hsession hover hcollect
  rcases report_of_start hopen hsize early hstart hsession hover hcollect with
    ⟨houtcome, hprocessed⟩
  have hpackets := (counts_of_start early hstart _ _ session _ hsession houtcome).1.packets
  rw [List.flatMap_append, List.length_append] at hpackets
  rw [hprocessed]
  exact hpackets

end Started

/-- A capture of two records with two octets each. -/
def pairContent : Bytes :=
  [0xd4, 0xc3, 0xb2, 0xa1, 2, 0, 4, 0, 0, 0, 0, 0, 0, 0, 0, 0, 0xff, 0xff, 0, 0, 1, 0, 0, 0,
    7, 0, 0, 0, 9, 0, 0, 0, 2, 0, 0, 0, 5, 0, 0, 0, 0xaa, 0xbb,
    8, 0, 0, 0, 9, 0, 0, 0, 2, 0, 0, 0, 2, 0, 0, 0, 0xcc, 0xdd]

/-- The producer fills the queue with its first batch and waits with the second
    when a stop is asked for. The consumer comes after it has given up. -/
def droppingSchedule : List Turn :=
  [.producer, .producer, .producer, .expiry, .stop, .producer, .producer, .producer, .consumer,
    .consumer]

/-- The session over these two records, with a queue for one batch. -/
def pairSession (started : Buffer) : Session (Consumer (Array (Envelope × Message))) :=
  { buffer := started, poll := .blocking, state := { heard := #[] } }

theorem exists_pairRun :
    ∃ file started final report,
      CaptureFile.open? "day.pcap" (.ok (.file pairContent)) = .ok file ∧
      file.size < UInt64.size ∧ (Buffer.ofFile file 18 (some 1)).start = .ok started ∧
      ((pairSession started).play (Consumer.feed .recorder) droppingSchedule).isOver = true ∧
      Run.collect ((pairSession started).play (Consumer.feed .recorder) droppingSchedule)
        = .ok (final, report) ∧
      report.capture.packets = 2 ∧ report.filter.processed = 1 ∧
      (((pairSession started).pushed (Consumer.feed .recorder) droppingSchedule).flatMap
        Batch.packets).length = 1 := by
  have hrun : ∃ file started,
      CaptureFile.open? "day.pcap" (.ok (.file pairContent)) = .ok file ∧
      file.size < UInt64.size ∧ (Buffer.ofFile file 18 (some 1)).start = .ok started ∧
      ((pairSession started).play (Consumer.feed .recorder) droppingSchedule).isOver = true ∧
      (Run.collect ((pairSession started).play (Consumer.feed .recorder)
        droppingSchedule)).toOption.map (fun r => (r.2.capture.packets, r.2.filter.processed))
          = some (2, 1) ∧
      (((pairSession started).pushed (Consumer.feed .recorder) droppingSchedule).flatMap
        Batch.packets).length = 1 :=
    ⟨_, _, rfl, by decide, rfl, by decide +kernel, by decide +kernel, by decide +kernel⟩
  rcases hrun with ⟨file, started, hopen, hsize, hstart, hover, hreport, hpushed⟩
  cases hcollect : Run.collect ((pairSession started).play (Consumer.feed .recorder)
      droppingSchedule) with
  | error e => rw [hcollect] at hreport; cases hreport
  | ok collected =>
      rw [hcollect] at hreport
      simp only [Except.toOption, Option.map_some, Option.some.injEq, Prod.mk.injEq] at hreport
      exact ⟨file, started, collected.1, collected.2, hopen, hsize, hstart, hover, hcollect,
        hreport.1, hreport.2, hpushed⟩

/-- The counts are off where a batch is dropped: one packet was handed over and
    processed, and two are reported. -/
theorem dropped_batch_counted :
    ∃ file started final report,
      CaptureFile.open? "day.pcap" (.ok (.file pairContent)) = .ok file ∧
      (Buffer.ofFile file 18 (some 1)).start = .ok started ∧
      ((pairSession started).play (Consumer.feed .recorder) droppingSchedule).isOver = true ∧
      Run.collect ((pairSession started).play (Consumer.feed .recorder) droppingSchedule)
        = .ok (final, report) ∧
      report.capture.packets ≠ report.filter.processed ∧
      ¬ report.capture.CountsOf
        ((pairSession started).pushed (Consumer.feed .recorder) droppingSchedule) := by
  rcases exists_pairRun with ⟨file, started, final, report, hopen, -, hstart, hover, hcollect,
    hcounted, hprocessed, hpushed⟩
  refine ⟨file, started, final, report, hopen, hstart, hover, hcollect, ?_, ?_⟩
  · rw [hcounted, hprocessed]
    decide
  · intro hcounts
    have hpackets := hcounts.packets
    rw [hcounted, hpushed] at hpackets
    cases hpackets

theorem counts_pushed_and_dropped_pairContent :
    ∃ file started final report,
      CaptureFile.open? "day.pcap" (.ok (.file pairContent)) = .ok file ∧
      file.size < UInt64.size ∧ (Buffer.ofFile file 18 (some 1)).start = .ok started ∧
      Run.collect ((pairSession started).play (Consumer.feed .recorder) droppingSchedule)
        = .ok (final, report) ∧
      report.capture.CountsOf
        ((pairSession started).pushed (Consumer.feed .recorder) droppingSchedule
          ++ (pairSession started).dropped (Consumer.feed .recorder) droppingSchedule) ∧
      report.capture.packets = report.filter.processed
        + (((pairSession started).dropped (Consumer.feed .recorder) droppingSchedule).flatMap
          Batch.packets).length := by
  rcases exists_pairRun with ⟨file, started, final, report, hopen, hsize, hstart, hover, hcollect,
    -⟩
  rcases counts_pushed_and_dropped hopen hsize false hstart .blocking droppingSchedule with
    ⟨hcounts, hreport⟩
  have houtcome := (report_of_start hopen hsize false hstart rfl hover hcollect).1
  exact ⟨file, started, final, report, hopen, hsize, hstart, hcollect,
    (hcounts _ _ _ _ rfl houtcome).1, hreport .recorder #[] final report _ rfl hover hcollect⟩

end Session

end MarketFeed
