import MarketFeed.Proofs.Capture.Arena
import MarketFeed.Proofs.Capture.Runs

/-!
# Reading to the End

What a producer makes of the octets in front of it.

A read is a decision between three things, and which one it is depends on the
records that the octets fall into. If the first of them fits a read, the read
gives the run that begins with it. If it does not, or if what is left is
longer than a read and still no record, the reading fails. Otherwise what is
left is shorter than a record and the reading is over.

The offset is a count of 64 bits. It is not cut, because the file is no
longer than such a count can tell.

Reading to the end is a relation rather than a function. A read that gives a
batch moves the offset, so the relation always has a derivation, and a
derivation is what the induction runs on.

## Main definitions

* `Producer.ahead`: The octets that are not read.
* `Producer.Sound`: What every producer of an open file keeps.
* `Producer.opening`, `Producer.past`: The producer at the beginning and behind
  some runs.
* `Producer.verdict`: How the reading ends behind the last run.
* `Producer.Publishes`: The batches of a whole reading, and how it ends.

## Theorems

* `read_run`, `read_left`: One read, by what it finds.
* `Publishes.unique`: There is one way for a reading to go.
* `Sound.of_publish`: A read that gives a batch leaves less to read.
* `publishes_of_runs`: The batches of a reading are the runs.
* `packets_deliver`: The packets of these batches are the records in order.
-/

namespace MarketFeed

namespace Producer

variable {p : Producer} {records group left : List Record} {groups : List (List Record)}
variable {tail : Bytes}

/-- The octets that are still to be read. -/
def ahead (p : Producer) : Bytes := p.file.content.drop p.file.offset

/-- A read has room for a record's header, the offset lies in the file, and
    the file's size can be told in 64 bits. -/
structure Sound (p : Producer) : Prop where
  room : RecordHeader.length ≤ p.chunkSize
  offset : p.file.offset ≤ p.file.size
  size : p.file.size < UInt64.size

/-- The producer of a file that has just been opened. -/
def opening (file : CaptureFile) (chunkSize : Nat) : Producer where
  file
  chunkSize := max chunkSize RecordHeader.length

/-- The producer behind these runs, each of them taken by one read. -/
def past (p : Producer) (groups : List (List Record)) : Producer :=
  { p with
    file := { p.file with offset := p.file.offset + Record.total groups.flatten }
    next := p.next + UInt64.ofNat groups.flatten.length
    stats :=
      { p.stats with
        chunks := p.stats.chunks + groups.length
        batches := p.stats.batches + groups.length
        packets := p.stats.packets + groups.flatten.length
        bytesConsumed := p.stats.bytesConsumed + Record.total groups.flatten } }

/-- The counts at the end of the file. Octets that are no record take one more
    read. -/
def ended (p : Producer) (tail : Bytes) : CaptureStats :=
  if tail = [] then p.stats
  else { p.stats with chunks := p.stats.chunks + 1, truncatedTailBytes := tail.length }

/-- How the reading ends where no run begins. -/
def verdict (p : Producer) (left : List Record) (tail : Bytes) : CaptureOutcome :=
  if left = [] ∧ tail.length ≤ p.chunkSize then .ok (p.ended tail)
  else .error (.recordTooLarge p.file.offset (p.file.header.byteOrder.u32At p.ahead 8) p.chunkSize)

theorem length_ahead (p : Producer) : p.ahead.length = p.file.remaining := by
  rw [ahead, List.length_drop, CaptureFile.remaining, CaptureFile.size]

/-- All counts of `past` are sums over the runs, so runs can be passed one by
    one. -/
theorem past_cons (p : Producer) (group : List Record) (groups : List (List Record)) :
    p.past (group :: groups) = (p.past [group]).past groups := by
  simp only [past, List.flatten_cons, List.flatten_nil, List.append_nil, Record.total_append,
    List.length_append, List.length_cons, List.length_nil, UInt64.ofNat_add, Nat.add_assoc,
    UInt64.add_assoc, Nat.add_comm 1]

theorem past_nil (p : Producer) : p.past [] = p := by
  simp only [past, List.flatten_nil, Record.total_nil, List.length_nil, Nat.add_zero]
  rw [show UInt64.ofNat 0 = 0 from rfl, UInt64.add_zero]

theorem ahead_past (p : Producer) (groups : List (List Record)) :
    (p.past groups).ahead = p.ahead.drop (Record.total groups.flatten) := by
  rw [ahead, ahead, List.drop_drop, past]

/-! ## One read -/

theorem read_of_ahead_nil (h : p.ahead = []) : p.read false = .finish (.ok p.stats) := by
  have hlength := p.length_ahead
  rw [h, List.length_nil] at hlength
  exact read_of_remaining_zero false hlength.symm

/-- A read that is made, by the records of its octets. -/
theorem read_of_splits {cut : Bytes} (h : p.ahead ≠ [])
    (hsplits : Record.Splits p.file.header.byteOrder (p.ahead.take p.chunkSize) group cut) :
    p.read false =
      if group = [] then
        if p.chunkSize < p.ahead.length then
          .finish (.error (p.tooLarge (p.ahead.take p.chunkSize)))
        else
          .finish (.ok { p.stats with
            chunks := p.stats.chunks + 1, truncatedTailBytes := p.ahead.length })
      else p.publish group.toArray { p.stats with chunks := p.stats.chunks + 1 } := by
  have hne : p.file.remaining ≠ 0 := by
    rw [← length_ahead]
    exact fun hzero => h (List.length_eq_zero_iff.mp hzero)
  -- A read asks for no more than is there, so it does not fail, and what it
  -- gets is the chunk in front of the offset.
  have htake : (p.file.content.drop p.file.offset).take (min p.file.remaining p.chunkSize)
      = p.ahead.take p.chunkSize := by
    rw [← ahead, List.take_eq_take_iff, length_ahead]
    omega
  have hchunk : p.file.readChunk (min p.file.remaining p.chunkSize)
      = .ok (p.ahead.take p.chunkSize) :=
    CaptureFile.readChunk_eq_ok_iff.mpr ⟨Nat.min_le_left _ _, htake.symm⟩
  have hlt : min p.file.remaining p.chunkSize < p.file.remaining
      ↔ p.chunkSize < p.ahead.length := by
    rw [length_ahead]
    omega
  rw [read, if_neg hne, if_neg Bool.false_ne_true]
  simp only [hchunk, Record.gather_of_splits hsplits, Array.empty_append, List.isEmpty_toArray,
    List.isEmpty_iff, hlt, length_ahead]

/-- A record that is too large is named by its place and the length it
    declares. -/
theorem tooLarge_take (h : p.Sound) (hlong : p.chunkSize < p.ahead.length) :
    p.tooLarge (p.ahead.take p.chunkSize)
      = .recordTooLarge p.file.offset (p.file.header.byteOrder.u32At p.ahead 8) p.chunkSize := by
  have hroom := h.room
  have hlength : (p.ahead.take p.chunkSize).length = p.chunkSize := by
    rw [List.length_take]
    omega
  -- The read has room for a header, so there is a length that it declares.
  cases hread : RecordHeader.read? p.file.header.byteOrder (p.ahead.take p.chunkSize) with
  | none =>
      have hshort := RecordHeader.read?_eq_none_iff.mp hread
      omega
  | some header =>
      rcases RecordHeader.eq_octets_of_read? hread with ⟨-, hcaptured⟩
      simp only [RecordHeader.length] at hroom
      rw [ByteOrder.u32At_take (by omega)] at hcaptured
      rw [tooLarge, hread]
      simp only [Option.map_some, Option.getD_some, hcaptured]

/-- A run of records that are in front becomes a batch, and the reading goes on
    behind them. -/
theorem publish_eq (h : p.Sound) (hfits : Record.total group ≤ p.ahead.length) :
    p.publish group.toArray { p.stats with chunks := p.stats.chunks + 1 }
      = .publish (Batch.ofRecords p.file.header.resolution p.next group.toArray)
          (p.past [group]) := by
  have hoffset := h.offset
  have hsize := h.size
  -- The offset moves by the records of the run. It stays within the file, so
  -- there is a sum of 64 bits, and the end of the file does not cut it.
  have hused := Record.foldl_size group
  rw [length_ahead, CaptureFile.remaining] at hfits
  have hnat : (UInt64.ofNat (Record.total group)).toNat = Record.total group :=
    UInt64.toNat_ofNat_of_lt' (by omega)
  have hconsume : p.file.consume? (UInt64.ofNat (Record.total group))
      = some { p.file with offset := p.file.offset + Record.total group } := by
    rw [CaptureFile.consume?_eq_some_iff, hnat]
    exact ⟨by omega, by rw [Nat.min_eq_left (by omega)]⟩
  simp only [publish, hused, hconsume]
  simp only [past, List.flatten_singleton, List.size_toArray,
    List.length_cons, List.length_nil, Nat.zero_add]

/-- Where a run begins, a read gives that run. -/
theorem read_run (h : p.Sound)
    (hsplits : Record.Splits p.file.header.byteOrder p.ahead (group ++ records) tail)
    (hrun : Record.Run p.chunkSize group records) :
    p.read false
      = .publish (Batch.ofRecords p.file.header.resolution p.next group.toArray)
          (p.past [group]) := by
  have hlength := hsplits.length
  rw [Record.total_append] at hlength
  -- A run has a record, and a record has octets.
  have hne : p.ahead ≠ [] := by
    intro hnil
    rcases List.exists_cons_of_ne_nil hrun.nonempty with ⟨r, rest, hgroup⟩
    rw [hnil, hgroup, List.length_nil, Record.total_cons, Record.size, RecordHeader.length]
      at hlength
    omega
  -- The chunk falls into the records of the run and a rest.
  rcases hsplits.take hrun.fits hrun.longest with ⟨cut, hchunk⟩
  rw [read_of_splits hne hchunk, if_neg hrun.nonempty, publish_eq h (by omega)]

/-- Where no run begins, a read ends the reading. -/
theorem read_left (h : p.Sound)
    (hsplits : Record.Splits p.file.header.byteOrder p.ahead left tail)
    (hleft : ∀ r, left.head? = some r → p.chunkSize < r.size) :
    p.read false = .finish (p.verdict left tail) := by
  have hlength := hsplits.length
  by_cases hnil : p.ahead = []
  · rw [hnil, List.length_nil] at hlength
    have htail : tail = [] := List.length_eq_zero_iff.mp (by omega)
    have hleft' : left = [] := by
      cases left with
      | nil => rfl
      | cons r rest =>
          rw [Record.total_cons, Record.size, RecordHeader.length] at hlength
          omega
    rw [read_of_ahead_nil hnil, verdict, htail, hleft', if_pos ⟨rfl, Nat.zero_le _⟩, ended,
      if_pos rfl]
  -- The chunk holds no complete record. It is an error if there is more
  -- behind it, and the end of the file if not.
  · have hnone : Record.Splits p.file.header.byteOrder p.ahead ([] ++ left) tail := hsplits
    rcases hnone.take (Nat.zero_le p.chunkSize) (fun r hr => by
      have hover := hleft r hr
      rw [Record.total_nil]
      omega) with ⟨cut, hchunk⟩
    rw [read_of_splits hnil hchunk, if_pos rfl, verdict]
    -- A record that fits no read is longer than a read, and so is what is ahead.
    cases left with
    | nil =>
        have hall : p.ahead = tail := hsplits.octets
        rw [hall] at hnil
        by_cases hlong : p.chunkSize < p.ahead.length
        · rw [if_pos hlong, tooLarge_take h hlong, if_neg]
          rw [hall] at hlong
          exact fun hfits => by omega
        · rw [if_neg hlong, hall]
          rw [hall] at hlong
          rw [if_pos ⟨rfl, by omega⟩, ended, if_neg hnil]
    | cons r rest =>
        have hover := hleft r rfl
        rw [Record.total_cons] at hlength
        have hlong : p.chunkSize < p.ahead.length := by omega
        rw [if_pos hlong, tooLarge_take h hlong, if_neg (fun hfits => by cases hfits.1)]

/-! ## The whole reading -/

/-- These batches come out of the reading, and then it ends like this. -/
inductive Publishes : Producer → List Batch → CaptureOutcome → Prop
  | finish {p : Producer} {outcome : CaptureOutcome} (h : p.read false = .finish outcome) :
      Publishes p [] outcome
  | publish {p rest : Producer} {batch : Batch} {batches : List Batch}
      {outcome : CaptureOutcome} (h : p.read false = .publish batch rest)
      (hrest : Publishes rest batches outcome) : Publishes p (batch :: batches) outcome

/-- The batches of these runs. -/
def deliver (p : Producer) : List (List Record) → List Batch
  | [] => []
  | group :: groups =>
    Batch.ofRecords p.file.header.resolution p.next group.toArray ::
      (p.past [group]).deliver groups

/-- A read does one thing, so two derivations make the same steps. -/
theorem Publishes.unique {batches others : List Batch} {outcome other : CaptureOutcome}
    (h : Publishes p batches outcome) (h' : Publishes p others other) :
    batches = others ∧ outcome = other := by
  induction h generalizing others with
  | finish h =>
      cases h' with
      | finish h' =>
          rw [h, Move.finish.injEq] at h'
          exact ⟨rfl, h'⟩
      | publish h' _ => rw [h] at h'; cases h'
  | publish h _ ih =>
      cases h' with
      | finish h' => rw [h] at h'; cases h'
      | publish h' hrest =>
          rw [h, Move.publish.injEq] at h'
          rcases h' with ⟨rfl, rfl⟩
          rcases ih hrest with ⟨rfl, rfl⟩
          exact ⟨rfl, rfl⟩

/-- A reading stays sound behind records that were in front of it. -/
theorem Sound.past (h : p.Sound) (hfits : Record.total groups.flatten ≤ p.ahead.length) :
    (p.past groups).Sound where
  room := h.room
  offset := by
    have hoffset := h.offset
    rw [length_ahead, CaptureFile.remaining] at hfits
    simp only [Producer.past]
    simp only [CaptureFile.size] at hoffset hfits ⊢
    omega
  size := h.size

/-- A reading gives a batch for each run and ends with the verdict on what is
    left. -/
theorem publishes_of_runs (h : p.Sound)
    (hsplits : Record.Splits p.file.header.byteOrder p.ahead records tail)
    (hruns : Record.Runs p.chunkSize records groups left) :
    Publishes p (p.deliver groups) ((p.past groups).verdict left tail) := by
  -- Each run is one read. Behind the last there is no run, and the reading ends
  -- with the verdict.
  induction groups generalizing p records with
  | nil =>
      have hrecords := hruns.eq_append
      rw [List.flatten_nil, List.nil_append] at hrecords
      subst hrecords
      rw [past_nil]
      exact .finish (read_left h hsplits fun r hr => hruns.head_left hr)
  | cons group groups ih =>
      cases hruns with
      | @cons _ rest _ _ hrun hruns =>
          have hlength := hsplits.length
          rw [Record.total_append] at hlength
          have hfits : Record.total [group].flatten ≤ p.ahead.length := by
            rw [List.flatten_singleton]
            omega
          -- What is behind the run falls into the other records.
          have hrest : Record.Splits (p.past [group]).file.header.byteOrder
              (p.past [group]).ahead rest tail := by
            rw [ahead_past, List.flatten_singleton]
            exact hsplits.drop
          rw [past_cons]
          exact .publish (read_run h hsplits hrun) (ih (h.past hfits) hrest hruns)

/-- Every reading goes on to an end. -/
theorem Sound.exists_publishes (h : p.Sound) : ∃ batches outcome, Publishes p batches outcome := by
  rcases Record.exists_splits p.file.header.byteOrder p.ahead with ⟨records, tail, hsplits⟩
  rcases Record.exists_runs p.chunkSize records with ⟨groups, left, hruns⟩
  exact ⟨_, _, publishes_of_runs h hsplits hruns⟩

/-- A read that gives a batch leaves less to read. -/
theorem Sound.of_publish {batch : Batch} {rest : Producer} (h : p.Sound)
    (hread : p.read false = .publish batch rest) :
    rest.Sound ∧ rest.file.remaining < p.file.remaining := by
  rcases Record.exists_splits p.file.header.byteOrder p.ahead with ⟨records, tail, hsplits⟩
  -- A read that gives a batch is a read at a run, and the run has octets.
  rcases Record.exists_runs p.chunkSize records with ⟨groups, left, hruns⟩
  cases groups with
  | nil =>
      have hrecords := hruns.eq_append
      rw [List.flatten_nil, List.nil_append] at hrecords
      rw [hrecords] at hsplits
      rw [read_left h hsplits fun r hr => hruns.head_left hr] at hread
      cases hread
  | cons group groups =>
      cases hruns with
      | cons hrun hruns =>
          have hlength := hsplits.length
          rw [Record.total_append] at hlength
          rw [read_run h hsplits hrun, Move.publish.injEq] at hread
          rcases hread with ⟨-, rfl⟩
          have hgroup : Record.total [group].flatten = Record.total group := by
            rw [List.flatten_singleton]
          refine ⟨h.past (by omega), ?_⟩
          rcases List.exists_cons_of_ne_nil hrun.nonempty with ⟨r, rest, rfl⟩
          rw [← length_ahead, ← length_ahead, ahead_past, List.length_drop, hgroup]
          rw [Record.total_cons, Record.size, RecordHeader.length] at hlength ⊢
          omega

/-- Each batch takes at least an octet off what is to be read. -/
theorem Publishes.length_le {batches : List Batch} {outcome : CaptureOutcome}
    (h : Publishes p batches outcome) (hsound : p.Sound) :
    batches.length ≤ p.file.remaining := by
  induction h with
  | finish _ => exact Nat.zero_le _
  | publish hread _ ih =>
      rcases hsound.of_publish hread with ⟨hrest, hless⟩
      have hlength := ih hrest
      rw [List.length_cons]
      omega

/-- The packets of all batches are those of the records, numbered on without a
    gap. -/
theorem packets_deliver {number : Nat} (hnext : p.next = UInt64.ofNat number) :
    (p.deliver groups).flatMap Batch.packets
      = groups.flatten.mapIdx fun i r => r.packet p.file.header.resolution (number + i) := by
  induction groups generalizing p number with
  | nil => rfl
  | cons group groups ih =>
      -- The numbers go on where the run before has ended.
      have hpast : (p.past [group]).next = UInt64.ofNat (number + group.length) := by
        simp only [past, List.flatten_singleton, hnext, UInt64.ofNat_add]
      rw [deliver, List.flatMap_cons, ih hpast, hnext, Batch.packets_ofRecords,
        List.flatten_cons, List.mapIdx_append]
      simp only [past, Nat.add_assoc, Nat.add_comm group.length]

end Producer

end MarketFeed
