import MarketFeed.Proofs.Capture.Exact

/-!
# Files That Differ in the Order of Octets

Two files that tell the same in the two orders, and what comes of them.

The order is found once, from the mark at the front of a file, and every later
number is read through it. The mark is told by its four octets and not as a
number: each order has its own two marks, and no other four octets open a
capture.

Of the octets behind the header little agrees between two such files, not
even the lengths by which reading finds its way. What agrees is what the
octets were written from. So two producers are compared by the records in
front of them, which are the same, and by everything that they carry along.
Where the records are the same, the next read takes the same run of them, or
ends the reading in the same way, and behind the run the two producers can be
compared again.

At the end of the file an error could tell the length that the last, broken
record declares, and this length need not be the same in the two orders. A
rest that is shorter than a record's header declares none.

## Main definitions

* `CaptureHeader.inOrder`: A header, as a file of this order tells it.
* `CaptureHeader.content`: The octets of a whole file.
* `Producer.Faces`: A producer has these records in front of it.
* `Producer.Alike`: Two producers carry the same along.
* `CaptureFile.Gives`: What is taken from the queue, and how it ends.

## Theorems

* `format?_eq_some_iff`: The four marks.
* `parse_octets`: A header is read back, field by field.
* `Alike.read`, `Alike.publishes`: One read, and a whole reading.
* `byte_orders_agree`: From the octets of both files to the queue.
-/

namespace MarketFeed

namespace CaptureHeader

/-- The header that a file in this order tells. -/
def inOrder (h : CaptureHeader) (order : ByteOrder) : CaptureHeader :=
  { h with magicNumber := h.resolution.magic, byteOrder := order }

/-- The octets of a file: the header, the records and a rest. -/
def content (h : CaptureHeader) (order : ByteOrder) (records : List Record) (tail : Bytes) :
    Bytes :=
  (h.inOrder order).octets ++ (records.flatMap (Record.octets order) ++ tail)

variable {h : CaptureHeader} {order : ByteOrder} {resolution : Resolution} {raw : Bytes}

/-! ## The mark -/

/-- Only the first four octets tell the format. -/
theorem format?_take (raw : Bytes) : format? (raw.take 4) = format? raw := by
  have hword : ∀ order : ByteOrder, order.u32At (raw.take 4) 0 = order.u32At raw 0 :=
    fun _ => ByteOrder.u32At_take (Nat.le_refl 4)
  have hlittle : Bytes.u32At (raw.take 4) 0 = raw.u32At 0 := hword .little
  unfold format?
  rw [hlittle, hword .big]

/-- Read in its own order, the mark is that of the resolution. -/
theorem u32At_of_format? (hformat : format? raw = some (order, resolution)) :
    order.u32At raw 0 = resolution.magic := by
  unfold format? at hformat
  dsimp only at hformat
  split_ifs at hformat with hmicros hnanos hswapped hswapped'
  · cases hformat
    exact hmicros
  · cases hformat
    exact hnanos
  · cases hformat
    exact hswapped
  · cases hformat
    exact hswapped'

/-- A file opens with one of four marks. -/
theorem format?_eq_some_iff (hlength : 4 ≤ raw.length) :
    format? raw = some (order, resolution) ↔
      raw.take 4 = order.octets 4 resolution.magic.toNat := by
  constructor
  · intro hformat
    have hoctets : order.octets 4 (order.u32At raw 0).toNat = raw.take 4 :=
      ByteOrder.octets_u32At order hlength
    rw [← hoctets, u32At_of_format? hformat]
  · intro hmark
    rw [← format?_take, hmark]
    cases order <;> cases resolution <;> rfl

/-! ## The header -/

/-- The octets of a header, field by field. -/
theorem octets_inOrder (h : CaptureHeader) (order : ByteOrder) :
    (h.inOrder order).octets
      = order.octets 4 h.resolution.magic.toNat ++ (order.octets 2 h.versionMajor.toNat ++
        (order.octets 2 h.versionMinor.toNat ++ (order.octets 4 h.thisZone.toUInt32.toNat ++
        (order.octets 4 h.sigFigs.toNat ++ (order.octets 4 h.snapLength.toNat ++
        (order.octets 4 h.linkType.toNat ++ [])))))) := by
  rw [octets]
  simp only [inOrder, List.append_assoc, List.append_nil]

/-- A header that was written is read back. -/
theorem parse_octets (h : CaptureHeader) (order : ByteOrder) :
    parse (h.inOrder order).octets = .ok (h.inOrder order) := by
  have hformat : format? (h.inOrder order).octets = some (order, h.resolution) := by
    refine (format?_eq_some_iff ?_).mpr ?_
    · rw [length_octets]
      decide
    · rw [octets_inOrder, List.take_left' (ByteOrder.length_octets order 4 _)]
  rw [parse, hformat]
  simp only [octets_inOrder]
  -- Each field stands behind those before it.
  simp (disch := simp) only [ByteOrder.u32At_append_of_le, ByteOrder.u16At_append_of_le,
    ByteOrder.length_octets, Nat.reduceSub, ByteOrder.u32At_octets_append,
    ByteOrder.u16At_octets_append]
  rfl

end CaptureHeader

/-! ## Opening a file -/

namespace CaptureFile

variable {path : String} {content : Bytes}

/-- A file with room for a header opens as its header is read. -/
theorem open?_of_length_le (h : CaptureHeader.length ≤ content.length) :
    open? path (.ok (.file content))
      = (CaptureHeader.parse (content.take CaptureHeader.length)).map fun header =>
          { path, content, header } := by
  have hwindow : content.window? 0 CaptureHeader.length
      = some (content.take CaptureHeader.length) :=
    Bytes.window?_eq_some_iff.mpr ⟨by omega, rfl⟩
  cases content with
  | nil => exact absurd h (by decide)
  | cons first rest => simp only [open?, hwindow]

/-- The file that was written, when it has been opened. -/
def written (path : String) (h : CaptureHeader) (order : ByteOrder) (records : List Record)
    (tail : Bytes) : CaptureFile where
  path
  content := h.content order records tail
  header := h.inOrder order

/-- A file that was written can be opened, with the header it was written
    from. -/
theorem open?_content (path : String) (h : CaptureHeader) (order : ByteOrder)
    (records : List Record) (tail : Bytes) :
    open? path (.ok (.file (h.content order records tail)))
      = .ok (written path h order records tail) := by
  have hheader := (h.inOrder order).length_octets
  have htake : (h.content order records tail).take CaptureHeader.length
      = (h.inOrder order).octets := List.take_left' hheader
  have hlength : CaptureHeader.length ≤ (h.content order records tail).length := by
    rw [CaptureHeader.content, List.length_append, hheader]
    omega
  rw [open?_of_length_le hlength, htake, CaptureHeader.parse_octets]
  rfl

/-- Four octets that are none of the four marks are refused, and only these. -/
theorem open?_eq_badMagic_iff (h : CaptureHeader.length ≤ content.length) :
    open? path (.ok (.file content)) = .error (.badMagic (content.u32At 0)) ↔
      ∀ (order : ByteOrder) (resolution : Resolution),
        content.take 4 ≠ order.octets 4 resolution.magic.toNat := by
  have hlength : 4 ≤ (content.take CaptureHeader.length).length := by
    rw [List.length_take]
    simp only [CaptureHeader.length] at h ⊢
    omega
  -- The header is parsed from the first octets of the file, and the mark is at
  -- the front of them.
  have htake : (content.take CaptureHeader.length).take 4 = content.take 4 := by
    rw [List.take_take]
    rfl
  have hword : Bytes.u32At (content.take CaptureHeader.length) 0 = content.u32At 0 :=
    show ByteOrder.little.u32At (content.take 24) 0 = ByteOrder.little.u32At content 0 from
      ByteOrder.u32At_take (by decide)
  rw [open?_of_length_le h, CaptureHeader.parse, hword]
  cases hformat : CaptureHeader.format? (content.take CaptureHeader.length) with
  | none =>
      refine iff_of_true rfl fun order resolution hmark => ?_
      rw [← htake, ← CaptureHeader.format?_eq_some_iff hlength, hformat] at hmark
      cases hmark
  | some found =>
      rcases found with ⟨order, resolution⟩
      refine iff_of_false (fun hrefused => by cases hrefused) fun hnone => ?_
      rw [CaptureHeader.format?_eq_some_iff hlength, htake] at hformat
      exact hnone order resolution hformat

end CaptureFile

/-! ## Two producers -/

namespace Producer

variable {p q : Producer} {records group rest left : List Record} {tail : Bytes}

/-- These records are in front of the producer, and behind them there are too
    few octets for the header of another. -/
structure Faces (p : Producer) (records : List Record) (tail : Bytes) : Prop where
  sound : p.Sound
  splits : Record.Splits p.file.header.byteOrder p.ahead records tail
  short : tail.length < RecordHeader.length

/-- The producers agree in everything but the octets and their order. -/
structure Alike (p q : Producer) : Prop where
  chunkSize : p.chunkSize = q.chunkSize
  next : p.next = q.next
  stats : p.stats = q.stats
  offset : p.file.offset = q.file.offset
  resolution : p.file.header.resolution = q.file.header.resolution

/-- Behind a run a producer faces the other records. -/
theorem Faces.past (h : p.Faces (group ++ rest) tail) : (p.past [group]).Faces rest tail := by
  have hlength := h.splits.length
  rw [Record.total_append] at hlength
  refine ⟨h.sound.past ?_, ?_, h.short⟩
  · rw [List.flatten_singleton]
    omega
  · rw [ahead_past, List.flatten_singleton]
    exact h.splits.drop

theorem Alike.past (h : p.Alike q) (groups : List (List Record)) :
    (p.past groups).Alike (q.past groups) where
  chunkSize := h.chunkSize
  next := by simp only [Producer.past, h.next]
  stats := by simp only [Producer.past, h.stats]
  offset := by simp only [Producer.past, h.offset]
  resolution := h.resolution

/-- The verdict does not depend on the order in which it is read. -/
theorem Faces.verdict_eq (h : p.Faces left tail) :
    p.verdict left tail = match left with
      | [] => .ok (p.ended tail)
      | r :: _ =>
        .error (.recordTooLarge p.file.offset r.header.capturedLength p.chunkSize) := by
  have hroom := h.sound.room
  have hshort := h.short
  cases left with
  | nil => exact if_pos ⟨rfl, by omega⟩
  | cons r rest =>
      have hdeclared : p.file.header.byteOrder.u32At p.ahead 8 = r.header.capturedLength := by
        rw [h.splits.octets, List.flatMap_cons, List.append_assoc, Record.u32At_octets_append]
      rw [verdict, if_neg (fun hfits => by cases hfits.1), hdeclared]

/-- Two producers that are alike come to the same verdict. -/
theorem Alike.verdict (h : p.Alike q) (hp : p.Faces left tail) (hq : q.Faces left tail) :
    p.verdict left tail = q.verdict left tail := by
  rw [hp.verdict_eq, hq.verdict_eq]
  cases left with
  | nil => simp only [ended, h.stats]
  | cons r rest => simp only [h.offset, h.chunkSize]

/-- One read of both: the same run of records, or the same end. -/
theorem Alike.read (h : p.Alike q) (hp : p.Faces records tail) (hq : q.Faces records tail) :
    (∃ outcome, p.read false = .finish outcome ∧ q.read false = .finish outcome) ∨
    ∃ batch group rest, records = group ++ rest ∧
      p.read false = .publish batch (p.past [group]) ∧
      q.read false = .publish batch (q.past [group]) := by
  rcases Record.exists_runs p.chunkSize records with ⟨groups, left, hruns⟩
  have hsame : Record.Runs q.chunkSize records groups left := h.chunkSize ▸ hruns
  cases groups with
  | nil =>
      have hrecords : records = left := hruns.eq_append
      subst hrecords
      left
      refine ⟨_, read_left hp.sound hp.splits fun r => hruns.head_left, ?_⟩
      rw [h.verdict hp hq]
      exact read_left hq.sound hq.splits fun r => hsame.head_left
  | cons group groups =>
      right
      cases hruns with
      | @cons _ rest _ _ hrun _ =>
          have hrun' : Record.Run q.chunkSize group rest := h.chunkSize ▸ hrun
          refine ⟨_, group, rest, rfl, read_run hp.sound hp.splits hrun, ?_⟩
          rw [h.resolution, h.next]
          exact read_run hq.sound hq.splits hrun'

/-- A whole reading of one is a whole reading of the other. -/
theorem Alike.publishes {batches : List Batch} {outcome : CaptureOutcome} (h : p.Alike q)
    (hp : p.Faces records tail) (hq : q.Faces records tail) (hpub : p.Publishes batches outcome) :
    q.Publishes batches outcome := by
  -- The induction is on the reading of the first. Every read leaves two
  -- producers that are alike and have the same records in front of them.
  induction hpub generalizing q records with
  | finish hread =>
      rcases h.read hp hq with ⟨outcome, hfirst, hsecond⟩ | ⟨batch, group, rest, -, hfirst, -⟩
      · rw [hread, Move.finish.injEq] at hfirst
        subst hfirst
        exact .finish hsecond
      · rw [hread] at hfirst
        cases hfirst
  | publish hread _ ih =>
      rcases h.read hp hq with ⟨outcome, hfirst, -⟩ | ⟨batch, group, rest, rfl, hfirst, hsecond⟩
      · rw [hread] at hfirst
        cases hfirst
      · rw [hread, Move.publish.injEq] at hfirst
        rcases hfirst with ⟨rfl, rfl⟩
        exact .publish hsecond (ih (h.past [group]) hp.past hq.past)

end Producer

/-! ## From the octets to the queue -/

namespace CaptureFile

/-- Read in chunks of this size, through a queue with this bound, the file
    gives these batches, and then the reading ends like this. -/
def Gives (f : CaptureFile) (chunkSize : Nat) (capacity : Option Nat) (batches : List Batch)
    (outcome : CaptureOutcome) : Prop :=
  ∃ started done, (Buffer.ofFile f chunkSize capacity).start = .ok started ∧
    started.drain = (batches, done) ∧ done.phase = .closed outcome ∧ done.join.1 = outcome

variable {path : String} {file : CaptureFile} {records : List Record} {tail : Bytes}

/-- What a reading publishes is what is taken from its queue. -/
theorem gives_of_publishes {chunkSize : Nat} {batches : List Batch} {outcome : CaptureOutcome}
    (hsound : (Producer.opening file chunkSize).Sound)
    (hpub : (Producer.opening file chunkSize).Publishes batches outcome) (capacity : Option Nat) :
    file.Gives chunkSize capacity batches outcome := by
  have hstart : (Buffer.ofFile file chunkSize capacity).start = .ok _ := rfl
  have hstarted := Buffer.holds_of_start hsound hpub hstart
  rcases hstarted.drain with ⟨hbatches, hdone, hphase⟩
  exact ⟨_, _, hstart, Prod.ext hbatches rfl, hphase, hdone.join⟩

/-- The records of a file are determined by its octets, so a reading that is
    about some records is about these. -/
theorem reads_of_faces {found : Except SystemFault Entry} {chunkSize : Nat}
    {batches : List Batch} {outcome : CaptureOutcome} (hopen : open? path found = .ok file)
    (hfaces : (Producer.opening file chunkSize).Faces records tail)
    (hpub : (Producer.opening file chunkSize).Publishes batches outcome) :
    file.Reads (max chunkSize RecordHeader.length) records tail batches outcome := by
  rcases Producer.reads_of_publishes hopen hfaces.sound.size hpub with ⟨others, left, hreads⟩
  have hsplits := hfaces.splits
  rw [Producer.ahead_opening hopen] at hsplits
  rcases hreads.splits.unique hsplits with ⟨rfl, rfl⟩
  exact hreads

theorem length_content (h : CaptureHeader) (order : ByteOrder) (records : List Record)
    (tail : Bytes) :
    (h.content order records tail).length
      = CaptureHeader.length + Record.total records + tail.length := by
  rw [CaptureHeader.content, List.length_append, List.length_append, CaptureHeader.length_octets,
    Record.length_flatMap_octets]
  omega

/-- Behind the header of a file that was written are its records. -/
theorem splits_written (path : String) (h : CaptureHeader) (order : ByteOrder)
    (hlengths : ∀ r ∈ records, r.header.capturedLength.toNat = r.data.length)
    (hshort : tail.length < RecordHeader.length) :
    Record.Splits order (written path h order records tail).body records tail :=
  ⟨List.drop_left' (CaptureHeader.length_octets _), hlengths, Or.inl hshort⟩

/-- A reading of a file that was written faces the records it was written
    from. -/
theorem faces_opening (path : String) (h : CaptureHeader) (order : ByteOrder)
    (hlengths : ∀ r ∈ records, r.header.capturedLength.toNat = r.data.length)
    (hshort : tail.length < RecordHeader.length)
    (hsize : CaptureHeader.length + Record.total records + tail.length < UInt64.size)
    (chunkSize : Nat) :
    (Producer.opening (written path h order records tail) chunkSize).Faces records tail := by
  have hopen := open?_content path h order records tail
  rw [← length_content h order] at hsize
  refine ⟨Producer.sound_opening hopen hsize chunkSize, ?_, hshort⟩
  rw [Producer.ahead_opening hopen]
  exact splits_written path h order hlengths hshort

/-- Two files that tell the same in the two orders are both accepted, with the
    same header but for the order. However they are read, the same comes out of
    the queue, and the reading ends in the same way; it is the reading of what
    both were written from. Nothing but the four marks opens a capture. The
    size of a file is a count of 64 bits. -/
theorem byte_orders_agree (path : String) (h : CaptureHeader) {records : List Record}
    {tail : Bytes} (hlengths : ∀ r ∈ records, r.header.capturedLength.toNat = r.data.length)
    (hshort : tail.length < RecordHeader.length)
    (hsize : CaptureHeader.length + Record.total records + tail.length < UInt64.size) :
    (∃ little big,
      open? path (.ok (.file (h.content .little records tail))) = .ok little ∧
      open? path (.ok (.file (h.content .big records tail))) = .ok big ∧
      little.header = h.inOrder .little ∧ big.header = h.inOrder .big ∧
      ∀ (chunkSize : Nat) (capacity : Option Nat), ∃ batches outcome,
        little.Gives chunkSize capacity batches outcome ∧
        big.Gives chunkSize capacity batches outcome ∧
        little.Reads (max chunkSize RecordHeader.length) records tail batches outcome ∧
        big.Reads (max chunkSize RecordHeader.length) records tail batches outcome) ∧
    ∀ content : Bytes, CaptureHeader.length ≤ content.length →
      (open? path (.ok (.file content)) = .error (.badMagic (content.u32At 0)) ↔
        ∀ (order : ByteOrder) (resolution : Resolution),
          content.take 4 ≠ order.octets 4 resolution.magic.toNat) := by
  have hlittle := open?_content path h .little records tail
  have hbig := open?_content path h .big records tail
  refine ⟨⟨_, _, hlittle, hbig, rfl, rfl, fun chunkSize capacity => ?_⟩,
    fun content hlength => open?_eq_badMagic_iff hlength⟩
  have hfirst := faces_opening path h .little hlengths hshort hsize chunkSize
  have hsecond := faces_opening path h .big hlengths hshort hsize chunkSize
  rcases hfirst.sound.exists_publishes with ⟨batches, outcome, hpub⟩
  -- The two producers start from equal numbers and differ in nothing but the
  -- octets they read.
  have halike : (Producer.opening (written path h .little records tail) chunkSize).Alike
      (Producer.opening (written path h .big records tail) chunkSize) := ⟨rfl, rfl, rfl, rfl, rfl⟩
  have hpub' := halike.publishes hfirst hsecond hpub
  exact ⟨batches, outcome, gives_of_publishes hfirst.sound hpub capacity,
    gives_of_publishes hsecond.sound hpub' capacity, reads_of_faces hlittle hfirst hpub,
    reads_of_faces hbig hsecond hpub'⟩

/-- A header that counts nanoseconds. -/
def nanoHeader : CaptureHeader :=
  ⟨0, 2, 4, 0, 0, 65535, 1, .little, .nanos⟩

/-- Three records: of two octets, of none, and of four. -/
def nanoRecords : List Record :=
  [⟨⟨7, 9, 2, 5⟩, [0xaa, 0xbb]⟩, ⟨⟨7, 999999999, 0, 60⟩, []⟩, ⟨⟨8, 0, 4, 4⟩, [1, 2, 3, 4]⟩]

theorem byte_orders_agree_nanoRecords :
    ∃ little big,
      open? "day.pcap" (.ok (.file (nanoHeader.content .little nanoRecords [8, 0, 0])))
        = .ok little ∧
      open? "day.pcap" (.ok (.file (nanoHeader.content .big nanoRecords [8, 0, 0]))) = .ok big ∧
      little.header = nanoHeader.inOrder .little ∧ big.header = nanoHeader.inOrder .big ∧
      ∀ (chunkSize : Nat) (capacity : Option Nat), ∃ batches outcome,
        little.Gives chunkSize capacity batches outcome ∧
        big.Gives chunkSize capacity batches outcome ∧
        little.Reads (max chunkSize RecordHeader.length) nanoRecords [8, 0, 0] batches outcome ∧
        big.Reads (max chunkSize RecordHeader.length) nanoRecords [8, 0, 0] batches outcome := by
  have hlengths : ∀ r ∈ nanoRecords, r.header.capturedLength.toNat = r.data.length := by decide
  exact (byte_orders_agree "day.pcap" nanoHeader hlengths (by decide) (by decide)).1

/-- One record in the two orders. -/
example : Record.octets .little ⟨⟨7, 9, 2, 5⟩, [0xaa, 0xbb]⟩
      = [7, 0, 0, 0, 9, 0, 0, 0, 2, 0, 0, 0, 5, 0, 0, 0, 0xaa, 0xbb] ∧
    Record.octets .big ⟨⟨7, 9, 2, 5⟩, [0xaa, 0xbb]⟩
      = [0, 0, 0, 7, 0, 0, 0, 9, 0, 0, 0, 2, 0, 0, 0, 5, 0xaa, 0xbb] := by
  decide

end CaptureFile

end MarketFeed
