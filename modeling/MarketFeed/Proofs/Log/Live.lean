import MarketFeed.Command.Replay
import MarketFeed.Output.EventLog
import MarketFeed.Proofs.Datagram.Telling
import MarketFeed.Proofs.Log.Cut
import MarketFeed.Proofs.Output.Completion

/-!
# Replaying a Log Is Having Listened

A log that was kept beside the books gives the same books when it is
replayed.

The log and the books are two listeners that are told the same messages. What
each of them has heard is the record of what the decoder tells, replayed, so
the two are compared message by message: a record holds the envelope as it
was and a message that comes back as it was. For a snapshot this is because
it was built from the entries of a datagram. Nothing else is ever written to
a log by a decoder.

The frames of the log fit what a frame may hold. A datagram has few enough
entries, so this can only fail for the header, which holds the name of the
source.

## Main definitions

* `EventLog.recordsOf`: The records of messages.
* `EventLog.Tells`: What can be read off a log, and replayed from it.

## Theorems

* `toMessage_ofMessage`: A message is held as it is.
* `fits_record`: Its record fits a frame.
* `replay_listener`: The log hears a record of each message.
* `replay_recordsOf`: Applying records is applying their messages.
* `books_run`: A replay ends with the books that its records lead to.
* `fits_header`: The header fits a frame for a source with an accepted path.
* `finish_tells`: A finished log tells what was heard, and its replay ends
  with the same books.
-/

namespace MarketFeed

/-! ## Records of messages -/

/-- A message of a datagram is held as it is. -/
theorem LogEvent.toMessage_ofMessage {m : Message} (h : m.OfDatagram) :
    (ofMessage m).toMessage = m := by
  cases m with
  | update u => rfl
  | execution x => rfl
  | snapshot s => exact congrArg Message.snapshot (Snapshot.ofEntries_entries h.snapshot.1)

/-! ## Records fit a frame -/

theorem Action.length_encode_le (a : Action) : a.encode.length ≤ 5 := by
  cases a <;> simp [encode, Log.choice]

theorem Side.length_encode_le (s : Side) : s.encode.length ≤ 5 := by
  cases s <;> simp [encode, Log.choice]

theorem BookEntry.length_encode_le (e : BookEntry) : e.encode.length ≤ 61 := by
  have hside := e.side.length_encode_le
  simp only [encode, Bytes.ofI64, List.length_append, Bytes.length_ofU64]
  omega

/-- Entries take at most so many octets each, and their count takes eight. -/
theorem BookEntry.length_list_le (xs : List BookEntry) :
    (Log.list encode xs).length ≤ 8 + 61 * xs.length := by
  have hentries : (xs.flatMap encode).length ≤ 61 * xs.length := by
    induction xs with
    | nil => exact Nat.le_refl 0
    | cons x xs ih =>
        have hx := x.length_encode_le
        rw [List.flatMap_cons, List.length_append, List.length_cons]
        omega
  rw [Log.list, List.length_append, Log.count, Bytes.length_ofLE]
  omega

/-- No message of a datagram takes more octets than this. The largest is a
    snapshot of as many entries as one octet counts. -/
theorem LogEvent.length_encode_le {m : Message} (h : m.OfDatagram) :
    (ofMessage m).encode.length ≤ 20000 := by
  cases m with
  | update u =>
      have haction := u.action.length_encode_le
      have hside := u.side.length_encode_le
      simp only [ofMessage, encode, OrderUpdate.encode, Log.choice, Bytes.ofI64, Bytes.ofI32,
        List.length_append, Bytes.length_ofLE, Bytes.length_ofU64, Bytes.length_ofU32]
      omega
  | execution x =>
      have haction := x.action.length_encode_le
      have hside := x.side.length_encode_le
      simp only [ofMessage, encode, OrderExecution.encode, Log.choice, Bytes.ofI64, Bytes.ofI32,
        List.length_append, Bytes.length_ofLE, Bytes.length_ofU64, Bytes.length_ofU32]
      omega
  | snapshot s =>
      -- The entries of a datagram are as many as its octets have room for.
      have hsize := h.snapshot.2
      have hbids := BookEntry.length_list_le s.bidEntries
      have hasks := BookEntry.length_list_le s.askEntries
      simp only [Snapshot.bidEntries, Snapshot.askEntries, Keyed.values, List.length_map]
        at hbids hasks
      simp only [Snapshot.size] at hsize
      simp only [ofMessage, encode, Log.choice, List.length_append, Bytes.length_ofLE,
        SnapshotHeader.length_toBlock, Layout.size, Snapshot.bidEntries, Snapshot.askEntries,
        Keyed.values]
      omega

/-- The record of a message of a datagram fits a frame. -/
theorem LogFrame.fits_record {m : Message} (h : m.OfDatagram) (seq : UInt64) (e : Envelope) :
    (LogFrame.record ⟨seq, e, .ofMessage m⟩).encode.length ≤ maxLength := by
  have hevent := LogEvent.length_encode_le h
  simp only [encode, LogRecord.encode, Log.choice, List.length_append, Bytes.length_ofLE,
    Bytes.length_ofU64, Envelope.length_toBlock, Layout.size, maxLength]
  omega

/-! ## The records of messages -/

namespace EventLog

/-- The records of messages, numbered from zero. -/
def recordsOf (told : List (Envelope × Message)) : List LogRecord :=
  told.mapIdx fun i one => ⟨UInt64.ofNat i, one.1, .ofMessage one.2⟩

theorem length_recordsOf (told : List (Envelope × Message)) :
    (recordsOf told).length = told.length :=
  List.length_mapIdx

theorem getElem?_recordsOf (told : List (Envelope × Message)) (i : Nat) :
    (recordsOf told)[i]? = told[i]?.map fun one => ⟨UInt64.ofNat i, one.1, .ofMessage one.2⟩ :=
  List.getElem?_mapIdx

/-- A record is numbered by those in front of it, so the induction starts from
    any log. -/
theorem replay_listener_append (told : List (Envelope × Message)) (log : EventLog) :
    listener.replay told log =
      { log with
        records := log.records ++ (told.mapIdx fun i one =>
          ⟨UInt64.ofNat (log.records.size + i), one.1, .ofMessage one.2⟩).toArray } := by
  induction told generalizing log with
  | nil => rw [List.mapIdx_nil, Array.append_empty, Listener.replay, List.foldl_nil]
  | cons one rest ih =>
      have hnumber : ∀ i, (log.hear one.1 one.2).records.size + i = log.records.size + (i + 1) :=
        fun i => by
          rw [size_hear]
          omega
      rw [Listener.replay, List.foldl_cons, ← Listener.replay, ih]
      simp only [listener, hnumber, List.mapIdx_cons, Nat.add_zero]
      simp only [hear, List.push_append_toArray]

/-- A log that is told messages has their records. -/
theorem replay_listener {log : EventLog} (hempty : log.records = #[])
    (told : List (Envelope × Message)) :
    listener.replay told log = { log with records := (recordsOf told).toArray } := by
  simp only [replay_listener_append, hempty, Array.size_empty, Nat.zero_add, Array.empty_append,
    recordsOf]

/-- Records hold the messages they were made of. -/
theorem map_recordsOf {told : List (Envelope × Message)} (h : ∀ one ∈ told, one.2.OfDatagram) :
    (recordsOf told).map (fun r => (r.envelope, r.event.toMessage)) = told := by
  refine List.ext_getElem? fun i => ?_
  rw [List.getElem?_map, getElem?_recordsOf]
  cases hone : told[i]? with
  | none => rfl
  | some one =>
      simp only [Option.map_some, LogEvent.toMessage_ofMessage (h one (List.mem_of_getElem? hone))]

end EventLog

/-! ## Replaying records -/

namespace Replay

variable {o : ReplayOptions}

theorem books_print (s : Replay) (wanted : Bool) (text : String) :
    (s.print wanted text).books = s.books := by
  unfold print
  split <;> rfl

/-- Taking a record applies it, whatever is asked to be printed. -/
theorem books_takeRecord (o : ReplayOptions) (r : LogRecord) (s : Replay) :
    (takeRecord o r s).books = apply r s.books := by
  unfold takeRecord
  simp only [books_print]
  split
  · rfl
  · rw [books_print]

/-- Records are always taken, and the books are what they lead to. -/
theorem books_run (o : ReplayOptions) (records : List LogRecord) (s : Replay) :
    ∃ s', run o (records.map .record) s = (s', none) ∧
      s'.books = records.foldl (fun bs r => apply r bs) s.books := by
  induction records generalizing s with
  | nil => exact ⟨s, rfl, rfl⟩
  | cons r rest ih =>
      obtain ⟨s', hrun, hbooks⟩ := ih (takeRecord o r { s with frames := s.frames + 1 })
      rw [books_takeRecord] at hbooks
      exact ⟨s', hrun, hbooks⟩

/-- A log that reads well is replayed to its end, with the books of its
    records. -/
theorem exists_runLog {log : Bytes} {header : LogHeader} {records : List LogRecord}
    (h : Log.readAll log = (.header header :: records.map .record, none)) (o : ReplayOptions) :
    ∃ s, runLog o log = (s, none) ∧
      s.books = records.foldl (fun bs r => apply r bs) Books.empty := by
  -- The header is the first frame, so it is taken, and it leaves the books alone.
  obtain ⟨first, hfirst, hempty⟩ :
      ∃ s, take o (.header header) {} = .ok s ∧ s.books = Books.empty :=
    ⟨_, rfl, by split <;> rfl⟩
  obtain ⟨s, hrun, hbooks⟩ := books_run o records first
  rw [hempty] at hbooks
  have hall : run o (.header header :: records.map .record) {} = (s, none) := by
    rw [run, hfirst]
    exact hrun
  refine ⟨{ s with remarks := s.remarks.push s.closing }, ?_, hbooks⟩
  simp only [runLog, h, hall]

/-- Applying the records of messages is applying the messages. -/
theorem replay_recordsOf {told : List (Envelope × Message)}
    (h : ∀ one ∈ told, one.2.OfDatagram) (bs : Books) :
    (EventLog.recordsOf told).foldl (fun bs r => apply r bs) bs
      = Books.listener.replay told bs := by
  have hreplay : Books.listener.replay
      ((EventLog.recordsOf told).map fun r => (r.envelope, r.event.toMessage)) bs
        = (EventLog.recordsOf told).foldl (fun bs r => apply r bs) bs := List.foldl_map
  rw [← hreplay, EventLog.map_recordsOf h]

end Replay

namespace EventLog

/-- What a log tells of the messages that were heard and of the books that were
    kept beside it: it reads as a header and a numbered record for each message,
    and a replay of it ends with these books. -/
structure Tells (log : Bytes) (header : LogHeader) (told : List (Envelope × Message))
    (books : Books) : Prop where
  frames : Log.readAll log = (.header header :: (recordsOf told).map .record, none)
  length : (recordsOf told).length = told.length
  records : ∀ i r one, (recordsOf told)[i]? = some r → told[i]? = some one →
    (i < UInt64.size → r.seq.toNat = i) ∧ r.envelope = one.1 ∧ r.event = .ofMessage one.2
  replay : ∀ o, ∃ s, Replay.runLog o log = (s, none) ∧ s.books = books

/-- A log that was told messages of datagrams tells them, if its header fits a
    frame. -/
theorem tells_octets {log : EventLog} {told : List (Envelope × Message)}
    (hrecords : log.records = (recordsOf told).toArray)
    (hheader : (LogFrame.header log.header).encode.length ≤ LogFrame.maxLength)
    (htold : ∀ one ∈ told, one.2.OfDatagram) :
    Tells log.octets log.header told (Books.listener.replay told Books.empty) := by
  have hframes : log.frames = .header log.header :: (recordsOf told).map .record := by
    rw [frames, hrecords]
  have hfits : ∀ f ∈ log.frames, f.encode.length ≤ LogFrame.maxLength := by
    rw [hframes]
    refine List.forall_mem_cons.mpr ⟨hheader, fun f hf => ?_⟩
    obtain ⟨r, hr, rfl⟩ := List.mem_map.mp hf
    obtain ⟨i, hi⟩ := List.mem_iff_getElem?.mp hr
    rw [getElem?_recordsOf, Option.map_eq_some_iff] at hi
    obtain ⟨one, hone, rfl⟩ := hi
    exact LogFrame.fits_record (htold one (List.mem_of_getElem? hone)) _ _
  -- The frames all fit, so the log is read back as a whole, and replaying it
  -- tells the messages again.
  have hread := Log.readAll_octets hfits
  rw [← octets, hframes] at hread
  refine ⟨hread, length_recordsOf told, ?_, fun o => ?_⟩
  · intro i r one hr hone
    rw [getElem?_recordsOf, hone, Option.map_some, Option.some.injEq] at hr
    subst hr
    exact ⟨fun hi => UInt64.toNat_ofNat_of_lt' hi, rfl, rfl⟩
  · obtain ⟨s, hrun, hbooks⟩ := Replay.exists_runLog hread o
    exact ⟨s, hrun, hbooks.trans (Replay.replay_recordsOf htold Books.empty)⟩

/-- What the log and the books have heard of datagrams, side by side. -/
theorem handleAll_pair {log : EventLog} (hempty : log.records = #[]) (payloads : List Bytes) :
    (Consumer.handleAll (Listener.pair listener Books.listener) payloads (log, Books.empty)).2
      = ({ log with records := (recordsOf (Consumer.told payloads)).toArray },
          Books.listener.replay (Consumer.told payloads) Books.empty) := by
  rw [Consumer.handleAll_eq_replay, Listener.replay_pair, replay_listener hempty]

/-- A log that was created holds its header and no records. -/
theorem eq_of_create {path name source : String} {linkType : UInt32} {created : Nat}
    {start begun : Folder} {log : EventLog}
    (h : create path name source linkType created start = (.ok log, begun)) :
    log =
      { name
        header :=
          { version := LogHeader.currentVersion
            created := BitVec.ofNat 128 created
            source
            linkType } } := by
  rw [create_eq, Storing.andThen_done] at h
  have hresult := congrArg Prod.fst h
  cases hsteps : (Folder.stageAll path [name] start).1 with
  | error e => rw [hsteps] at hresult; cases hresult
  | ok u => rw [hsteps] at hresult; cases hresult; rfl

/-- A log that was finished has its file, and says how many records there
    are. -/
theorem placed_of_finish {path : String} {log : EventLog} {ended final : Folder} {n : Nat}
    (h : log.finish path ended = (.ok n, final)) :
    n = log.records.size ∧ final.lookup? log.name = some (.file log.octets) := by
  have hcompletes := (Folder.completes_finishAll path log.apart_files ended).andThen_done
    log.records.size
  rw [← finish_eq, h] at hcompletes
  refine ⟨?_, hcompletes.of_ok.placed _ List.mem_cons_self⟩
  rw [finish_eq, Storing.andThen_done] at h
  have hresult := congrArg Prod.fst h
  cases hsteps : (Folder.finishAll path log.files ended).1 with
  | error e => rw [hsteps] at hresult; cases hresult
  | ok u => rw [hsteps] at hresult; cases hresult; rfl

/-- A log is finished if its file can have its final name. -/
theorem exists_finish {path : String} {log : EventLog} {ended : Folder}
    (h : ¬ Folder.Uncommittable path ended log.name) :
    ∃ final, log.finish path ended = (.ok log.records.size, final) := by
  have hstaged : (ended.fill log.name log.octets).lookup? (Folder.staging log.name)
      = some (.file log.octets) := Folder.lookup?_put_self _ _ _
  rw [Folder.Uncommittable, ← Folder.lookup?_put_of_ne (Folder.staging_ne log.name).symm
    (.file log.octets)] at h
  rw [finish, Storing.andThen, Folder.commit_of_not_uncommittable hstaged h]
  exact ⟨_, rfl⟩

/-- The header of a log fits a frame if the system accepts the path of the
    source. -/
theorem fits_header {header : LogHeader} (h : Path.isTooLong header.source = false) :
    (LogFrame.header header).encode.length ≤ LogFrame.maxLength := by
  have hsource := Utf8.length_encode header.source
  rw [Path.isTooLong, decide_eq_false_iff_not] at h
  simp only [LogFrame.encode, LogHeader.encode, Log.choice, Log.text, Log.count, Bytes.ofU16,
    Bytes.ofU32, List.length_append, Bytes.length_ofLE, LogFrame.maxLength]
  omega

/-- A log that was kept beside the books and then finished tells what was heard,
    one record for each message, and every replay of it ends with the books as
    they are. Its header fits a frame for every source whose path the system
    accepts (`fits_header`). -/
theorem finish_tells {path name source : String} {linkType : UInt32} {created n : Nat}
    {start begun ended final : Folder} {first : EventLog} {payloads : List Bytes}
    {heard : EventLog × Books}
    (hcreate : create path name source linkType created start = (.ok first, begun))
    (hheader : (LogFrame.header first.header).encode.length ≤ LogFrame.maxLength)
    (hheard : heard = (Consumer.handleAll (Listener.pair listener Books.listener) payloads
      (first, Books.empty)).2)
    (hfinish : heard.1.finish path ended = (.ok n, final)) :
    n = (Consumer.told payloads).length ∧
      ∃ log, final.lookup? name = some (.file log) ∧
        Tells log
          { version := LogHeader.currentVersion
            created := BitVec.ofNat 128 created
            source
            linkType }
          (Consumer.told payloads) heard.2 := by
  obtain rfl := eq_of_create hcreate
  rw [handleAll_pair rfl] at hheard
  subst hheard
  obtain ⟨hcount, hplaced⟩ := placed_of_finish hfinish
  refine ⟨?_, _, hplaced, tells_octets rfl hheader fun one => Consumer.ofDatagram_of_mem_told⟩
  rw [hcount, List.size_toArray, length_recordsOf]

/-- A part of the snapshot of one security that has these entries. -/
def snapshotPart (entries : List BookEntry) : Framed :=
  .snapshot { blockLength := 16, templateId := 17 } { securityId := 3, rptSeq := 20 } []
    { blockSize := 57, numInGroup := UInt8.ofNat entries.length } (entries.map fun e => (e, []))

/-- A snapshot in two datagrams, with two bids in the first and an offer in the
    second, and then a datagram of changes: another bid, a trade that leaves
    some of it, and an offer of another security. -/
def morning : List Bytes :=
  [Envelope.toBlock { sequenceNumber := 1, messageSize := 157, messageFlags := 2 } ++
      (snapshotPart [⟨1, 0, 100, 5, -1, 1, 0, .bid⟩, ⟨2, 0, 99, 4, -1, 1, 0, .bid⟩]).octets,
    Envelope.toBlock { sequenceNumber := 2, messageSize := 100, messageFlags := 5 } ++
      (snapshotPart [⟨3, 0, 102, 6, -1, 1, 0, .offer⟩]).octets,
    Envelope.toBlock { sequenceNumber := 3, messageSize := 226, messageFlags := 9 } ++
      (IncrementalHeader.toBlock {} ++
        [Framed.update { blockLength := 50, templateId := 15 }
            ⟨4, 101, 9, 1, 0, 3, 21, .new, .bid⟩,
          .execution { blockLength := 74, templateId := 16 }
            ⟨4, 101, 2, 101, 7, 50, 1, 0, 3, 22, .update, .bid⟩,
          .update { blockLength := 50, templateId := 15 }
            ⟨5, 7, 1, 1, 0, 8, 1, .new, .offer⟩].flatMap Framed.octets)]

/-- The log of a capture before the first datagram. -/
def unwritten : EventLog :=
  { name := fileName
    header :=
      { version := LogHeader.currentVersion
        created := 0
        source := "feed.pcap"
        linkType := 1 } }

/-- Five messages are told of the morning, and the log tells what the books
    have in the end. -/
theorem finish_tells_morning :
    ∃ begun heard final log,
      create "out" fileName "feed.pcap" 1 0 {} = (.ok unwritten, begun) ∧
      heard = (Consumer.handleAll (Listener.pair listener Books.listener) morning
        (unwritten, Books.empty)).2 ∧
      heard.1.finish "out" begun = (.ok 5, final) ∧
      final.lookup? fileName = some (.file log) ∧
      Tells log unwritten.header (Consumer.told morning) heard.2 ∧
      (heard.2.get? 3).map (fun b => (b.orderCount, b.top 2))
        = some (4, [⟨101, 2, 1⟩, ⟨100, 5, 1⟩], [⟨102, 6, 1⟩]) ∧
      (heard.2.get? 8).map (fun b => (b.orderCount, b.top 2)) = some (1, [], [⟨7, 1, 1⟩]) := by
  have hcreate : create "out" fileName "feed.pcap" 1 0 {}
      = (.ok unwritten, Folder.put (Folder.staging fileName) (.file []) {}) := by
    rw [create, Storing.andThen, Folder.stage_of_not_unstageable]
    · rfl
    · unfold Folder.Unstageable
      decide +kernel
  have hheader : (LogFrame.header unwritten.header).encode.length ≤ LogFrame.maxLength :=
    fits_header (by decide)
  -- Of the records only their number matters to how the log is finished.
  have hfinish : ∃ final, ({ unwritten with records :=
        (recordsOf (Consumer.told morning)).toArray } : EventLog).finish "out"
        (Folder.put (Folder.staging fileName) (.file []) {}) = (.ok 5, final) := by
    have htold : (recordsOf (Consumer.told morning)).toArray.size = 5 := by
      rw [List.size_toArray, length_recordsOf]
      decide +kernel
    rw [← htold]
    refine exists_finish ?_
    unfold Folder.Uncommittable
    decide +kernel
  obtain ⟨final, hfinal⟩ := hfinish
  have hheard := handleAll_pair (show unwritten.records = #[] from rfl) morning
  obtain ⟨-, log, hlog, htells⟩ :=
    finish_tells hcreate hheader hheard.symm hfinal
  exact ⟨_, _, final, log, hcreate, hheard.symm, hfinal, hlog, htells, by decide +kernel,
    by decide +kernel⟩

end EventLog

end MarketFeed
