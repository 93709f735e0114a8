import MarketFeed.Proofs.Capture.Delivery

/-!
# Reading Loses Nothing

From the octets of a file to the packets that come out of the queue.

The octets behind the header of a file are records end to end and a rest,
whatever they are. If every record fits a read and so does the rest, then the
batches that are taken from the queue are these records, each once and in
order, with their numbers, their times and their data; and every batch is as
long as a read allows. If something does not fit, the reading fails at the
first record or rest that does not, and the records in front of it have come
out as before.

A time is a count of nanoseconds in 64 bits. Its seconds are a count of 32
bits, so it is never cut.

## Main definitions

* `CaptureFile.body`: The octets behind the header.
* `CapturedPacket.StandsFor`: A packet tells everything about a record.
* `CaptureFile.Delivered`: Batches that are some of the records, in the
  longest possible reads.

## Theorems

* `sound_opening`: A file that was opened can be read.
* `toNat_timestamp`: The time of a record is not cut.
* `reading_loses_nothing`: What comes out of the queue, and how it ends.
-/

namespace MarketFeed

namespace CaptureFile

/-- The octets behind the header of the file. -/
def body (f : CaptureFile) : Bytes := f.content.drop CaptureHeader.length

/-- A file that was opened stands behind its header. -/
theorem offset_of_open? {path : String} {found : Except SystemFault Entry} {file : CaptureFile}
    (hopen : open? path found = .ok file) :
    file.offset = CaptureHeader.length ∧ CaptureHeader.length ≤ file.size := by
  unfold open? at hopen
  split at hopen
  · cases hopen
  · cases hopen
  · cases hopen
  · next content _ =>
    cases hwindow : content.window? 0 CaptureHeader.length with
    | none => rw [hwindow] at hopen; cases hopen
    | some raw =>
        have hlength := (Bytes.window?_eq_some_iff.mp hwindow).1
        simp only [hwindow] at hopen
        cases hparse : CaptureHeader.parse raw with
        | error e => rw [hparse] at hopen; cases hopen
        | ok header =>
            rw [hparse] at hopen
            cases hopen
            rw [Nat.zero_add] at hlength
            exact ⟨rfl, hlength⟩

end CaptureFile

namespace RecordHeader

/-- The seconds and the fraction leave room in 64 bits. -/
theorem toNat_timestamp (resolution : Resolution) (h : RecordHeader) :
    (h.timestamp resolution).toNat
      = h.seconds.toNat * 1000000000 + h.fraction.toNat * resolution.nanosPerUnit.toNat := by
  -- The largest time is less than 2 ^ 32 * 10 ^ 9 plus 2 ^ 32 * 1000, which is
  -- below 2 ^ 64.
  have hseconds := h.seconds.toNat_lt
  have hfraction := h.fraction.toNat_lt
  cases resolution <;>
    simp only [timestamp, Resolution.nanosPerUnit, UInt64.toNat_add, UInt64.toNat_mul,
      UInt32.toNat_toUInt64, UInt64.reduceToNat] <;>
    omega

end RecordHeader

namespace Producer

variable {path : String} {found : Except SystemFault Entry} {file : CaptureFile}

/-- The reading of a file that was opened begins sound. -/
theorem sound_opening (hopen : CaptureFile.open? path found = .ok file)
    (hsize : file.size < UInt64.size) (chunkSize : Nat) : (opening file chunkSize).Sound where
  room := Nat.le_max_right _ _
  offset := by
    rcases CaptureFile.offset_of_open? hopen with ⟨hoffset, hle⟩
    simp only [opening]
    omega
  size := hsize

/-- In front of it is all that follows the header. -/
theorem ahead_opening (hopen : CaptureFile.open? path found = .ok file) (chunkSize : Nat) :
    (opening file chunkSize).ahead = file.body := by
  rcases CaptureFile.offset_of_open? hopen with ⟨hoffset, -⟩
  rw [ahead, CaptureFile.body]
  simp only [opening, hoffset]

end Producer

/-- The packet has the place of the record in the file, its time, and its
    octets. -/
structure CapturedPacket.StandsFor (packet : CapturedPacket) (resolution : Resolution)
    (number : Nat) (r : Record) : Prop where
  number : packet.number.toNat = number
  timestamp : packet.timestamp.toNat
    = r.header.seconds.toNat * 1000000000
      + r.header.fraction.toNat * (match resolution with | .micros => 1000 | .nanos => 1)
  originalLength : packet.originalLength = r.header.originalLength
  data : packet.data = r.data

/-- A packet stands for its record as long as its number has 64 bits. -/
theorem Record.standsFor_packet (resolution : Resolution) {number : Nat}
    (hnumber : number < UInt64.size) (r : Record) :
    (r.packet resolution number).StandsFor resolution number r where
  number := UInt64.toNat_ofNat_of_lt' hnumber
  timestamp := by
    rw [Record.packet, RecordHeader.toNat_timestamp]
    cases resolution <;> rfl
  originalLength := rfl
  data := rfl

/-- The packets of the batches stand for the records that were taken, one for
    one and in order, and each batch has the records of the longest read from
    where it begins. -/
structure CaptureFile.Delivered (f : CaptureFile) (room : Nat) (taken left : List Record)
    (batches : List Batch) : Prop where
  length : (batches.flatMap Batch.packets).length = taken.length
  packets : ∀ (i : Nat) (packet : CapturedPacket) (r : Record),
    (batches.flatMap Batch.packets)[i]? = some packet → taken[i]? = some r →
      packet.StandsFor f.header.resolution (i + 1) r
  longest : ∀ (before after : List Batch) (batch : Batch), batches = before ++ batch :: after →
    0 < batch.packets.length ∧
      ∀ n, (before.flatMap Batch.packets).length + n ≤ (taken ++ left).length →
        (n ≤ batch.packets.length ↔
          Record.total (((taken ++ left).drop (before.flatMap Batch.packets).length).take n)
            ≤ room)

/-- Every record fits a read, and so does the rest. -/
def Record.Fit (room : Nat) (records : List Record) (tail : Bytes) : Prop :=
  (∀ r ∈ records, r.size ≤ room) ∧ tail.length ≤ room

/-- There is a record, or a rest behind the last one, that fits no read. -/
def Record.Blocked (room : Nat) (left : List Record) (tail : Bytes) : Prop :=
  match left with
  | [] => room < tail.length
  | r :: _ => room < r.size

/-- How the octets of a file come out of reads with this much room. They fall
    into records and a rest. If all of it fits, all records are taken, and the
    counts tell of every octet; if not, the reading fails at the first that
    does not fit. -/
structure CaptureFile.Reads (f : CaptureFile) (room : Nat) (records : List Record) (tail : Bytes)
    (batches : List Batch) (outcome : CaptureOutcome) : Prop where
  splits : Record.Splits f.header.byteOrder f.body records tail
  whole : Record.Fit room records tail →
    f.Delivered room records [] batches ∧
    outcome = .ok {
      chunks := batches.length + if tail = [] then 0 else 1
      batches := batches.length
      packets := records.length
      bytesConsumed := Record.total records
      truncatedTailBytes := tail.length
      stoppedEarly := false } ∧
    CaptureHeader.length + Record.total records + tail.length = f.size
  blocked : ¬ Record.Fit room records tail →
    ∃ taken left, records = taken ++ left ∧ (∀ r ∈ taken, r.size ≤ room) ∧
      Record.Blocked room left tail ∧ f.Delivered room taken left batches ∧
      outcome = .error (.recordTooLarge (CaptureHeader.length + Record.total taken)
        (f.header.byteOrder.u32At (f.body.drop (Record.total taken)) 8) room)

theorem Record.length_le_total (records : List Record) : records.length ≤ total records := by
  induction records with
  | nil => exact Nat.le_refl 0
  | cons r rest ih =>
      rw [List.length_cons, total_cons, size, RecordHeader.length]
      omega

namespace Producer

variable {p : Producer} {records left : List Record} {groups : List (List Record)}
variable {tail : Bytes}

theorem length_packets_ofRecords (resolution : Resolution) (first : UInt64)
    (records : List Record) :
    (Batch.ofRecords resolution first records.toArray).packets.length = records.length := by
  have hpackets := Batch.packets_ofRecords resolution first.toNat records
  rw [UInt64.ofNat_toNat] at hpackets
  rw [hpackets, List.length_mapIdx]

theorem length_deliver (p : Producer) (groups : List (List Record)) :
    (p.deliver groups).length = groups.length := by
  induction groups generalizing p with
  | nil => rfl
  | cons group groups ih => rw [deliver, List.length_cons, ih, List.length_cons]

/-- The batch at some place is that of the run at this place. -/
theorem deliver_eq_append {before after : List Batch} {batch : Batch}
    (h : p.deliver groups = before ++ batch :: after) :
    ∃ front group back, groups = front ++ group :: back ∧
      (before.flatMap Batch.packets).length = front.flatten.length ∧
      batch.packets.length = group.length := by
  -- Batch by batch along the runs, each batch being that of its run.
  induction before generalizing p groups with
  | nil =>
      cases groups with
      | nil => cases h
      | cons group groups =>
          rw [deliver, List.nil_append, List.cons.injEq] at h
          refine ⟨[], group, groups, rfl, rfl, ?_⟩
          rw [← h.1, length_packets_ofRecords]
  | cons first before ih =>
      cases groups with
      | nil => cases h
      | cons group groups =>
          rw [deliver, List.cons_append, List.cons.injEq] at h
          rcases ih h.2 with ⟨front, found, back, rfl, hlength, hfound⟩
          refine ⟨group :: front, found, back, rfl, ?_, hfound⟩
          rw [List.flatMap_cons, List.length_append, hlength, ← h.1, length_packets_ofRecords,
            List.flatten_cons, List.length_append]

/-- The batches of the runs deliver the records, numbered from one. -/
theorem delivered_deliver (hnext : p.next = UInt64.ofNat 1)
    (hcount : groups.flatten.length + 1 < UInt64.size)
    (hruns : Record.Runs p.chunkSize records groups left) :
    p.file.Delivered p.chunkSize groups.flatten left (p.deliver groups) where
  length := by rw [packets_deliver hnext, List.length_mapIdx]
  packets i packet r hpacket hr := by
    have hi : i < groups.flatten.length := (List.getElem?_eq_some_iff.mp hr).1
    rw [packets_deliver hnext, List.getElem?_mapIdx, hr, Option.map_some, Option.some.injEq]
      at hpacket
    rw [← hpacket, Nat.add_comm 1 i]
    exact Record.standsFor_packet _ (by omega) r
  longest before after batch hbatches := by
    rcases deliver_eq_append hbatches with ⟨front, group, back, rfl, hbefore, hbatch⟩
    rcases hruns.length_le_iff with ⟨hne, hlongest⟩
    rw [← hruns.eq_append, hbefore, hbatch]
    exact ⟨List.length_pos_iff.mpr hne, hlongest⟩

/-- Everything fits exactly if no record is left and the rest is no longer than
    a chunk. -/
theorem fit_iff (hruns : Record.Runs p.chunkSize records groups left) :
    Record.Fit p.chunkSize records tail ↔ left = [] ∧ tail.length ≤ p.chunkSize := by
  rw [Record.Fit, hruns.left_nil_iff]

/-- What does not fit stands in front of everything that was left. -/
theorem blocked_of_not_fit (hruns : Record.Runs p.chunkSize records groups left)
    (hfit : ¬ Record.Fit p.chunkSize records tail) : Record.Blocked p.chunkSize left tail := by
  rw [fit_iff hruns] at hfit
  cases left with
  | nil => exact Nat.lt_of_not_le fun hle => hfit ⟨rfl, hle⟩
  | cons r rest => exact hruns.head_left rfl

/-- A reading that nothing stops ends with the counts of all records. -/
theorem verdict_whole {file : CaptureFile} {chunkSize : Nat}
    (htail : tail.length ≤ max chunkSize RecordHeader.length) :
    ((opening file chunkSize).past groups).verdict [] tail = .ok {
      chunks := groups.length + if tail = [] then 0 else 1
      batches := groups.length
      packets := groups.flatten.length
      bytesConsumed := Record.total groups.flatten
      truncatedTailBytes := tail.length
      stoppedEarly := false } := by
  rw [verdict, if_pos ⟨rfl, htail⟩, ended]
  by_cases hnil : tail = []
  · rw [if_pos hnil, if_pos hnil, hnil]
    simp only [past, opening, Nat.zero_add, Nat.add_zero, List.length_nil]
  · rw [if_neg hnil, if_neg hnil]
    simp only [past, opening, Nat.zero_add]

/-- A reading that a record stops names its place and the length it declares. -/
theorem verdict_blocked {file : CaptureFile} {chunkSize : Nat}
    (hleft : ¬ (left = [] ∧ tail.length ≤ max chunkSize RecordHeader.length)) :
    ((opening file chunkSize).past groups).verdict left tail
      = .error (.recordTooLarge (file.offset + Record.total groups.flatten)
          (file.header.byteOrder.u32At
            ((opening file chunkSize).ahead.drop (Record.total groups.flatten)) 8)
          (max chunkSize RecordHeader.length)) := by
  rw [← ahead_past]
  exact if_neg hleft

/-- What comes out of reading a file from its beginning. -/
theorem reads_of_publishes {path : String} {found : Except SystemFault Entry}
    {file : CaptureFile} {chunkSize : Nat} {batches : List Batch} {outcome : CaptureOutcome}
    (hopen : CaptureFile.open? path found = .ok file) (hsize : file.size < UInt64.size)
    (h : (opening file chunkSize).Publishes batches outcome) :
    ∃ records tail,
      file.Reads (max chunkSize RecordHeader.length) records tail batches outcome := by
  -- The records are cut into runs, and reading follows the runs. Whatever else
  -- publishes these batches has followed them too.
  have hsound := sound_opening hopen hsize chunkSize
  have hahead := ahead_opening hopen chunkSize
  rcases CaptureFile.offset_of_open? hopen with ⟨hoffset, hle⟩
  rcases Record.exists_splits file.header.byteOrder file.body with ⟨records, tail, hsplits⟩
  rcases Record.exists_runs (opening file chunkSize).chunkSize records with ⟨groups, left, hruns⟩
  have hreading := publishes_of_runs hsound (by rw [hahead]; exact hsplits) hruns
  rcases h.unique hreading with ⟨rfl, rfl⟩
  have hlength := hsplits.length
  have hrecords := hruns.eq_append
  have hbody : CaptureHeader.length + file.body.length = file.size := by
    rw [CaptureFile.body, List.length_drop, CaptureFile.size]
    simp only [CaptureFile.size] at hle
    omega
  -- A record takes sixteen octets, so there are fewer records than 64 bits can
  -- count.
  have hcount : groups.flatten.length + 1 < UInt64.size := by
    have hle := Record.length_le_total groups.flatten
    rw [hrecords, Record.total_append] at hlength
    simp only [CaptureHeader.length] at hbody
    omega
  have hdelivered := delivered_deliver (p := opening file chunkSize) rfl hcount hruns
  refine ⟨records, tail, hsplits, fun hfit => ?_, fun hfit => ?_⟩
  · rcases (fit_iff hruns).mp hfit with ⟨rfl, htail⟩
    rw [List.append_nil] at hrecords
    subst hrecords
    refine ⟨hdelivered, ?_, by omega⟩
    rw [verdict_whole htail, length_deliver]
  · refine ⟨groups.flatten, left, hrecords, hruns.size_le, blocked_of_not_fit hruns hfit,
      hdelivered, ?_⟩
    rw [verdict_blocked fun hleft => hfit ((fit_iff hruns).mpr hleft), hahead, hoffset]

end Producer

/-- Four records, of which the second has no octets. -/
def dayRecords : List Record :=
  [⟨⟨7, 9, 2, 5⟩, [0xaa, 0xbb]⟩, ⟨⟨7, 10, 0, 60⟩, []⟩, ⟨⟨8, 0, 4, 4⟩, [1, 2, 3, 4]⟩,
    ⟨⟨8, 1, 1, 1⟩, [0xcc]⟩]

/-- A capture of these records and of three octets behind them. -/
def CaptureFile.dayContent : Bytes :=
  [0xd4, 0xc3, 0xb2, 0xa1, 2, 0, 4, 0, 0, 0, 0, 0, 0, 0, 0, 0, 0xff, 0xff, 0, 0, 1, 0, 0, 0] ++
    (dayRecords.flatMap (Record.octets .little) ++ [9, 0, 0])

end MarketFeed
