import MarketFeed.Proofs.Capture.Twins
import MarketFeed.Proofs.Datagram.Telling
import MarketFeed.Proofs.Session.Rounds

/-!
# Every Run Is the Same Run

A run over a capture against reading its records one after the other.

The reference has no chunks, no queue and no turns: one decoder is given the
datagram of every record of the file, in file order. A run that reports
success has come to the same. Its consumer has fed the batches of the reading
in order, the packets of these batches are the records, and feeding packets
batch by batch is feeding them one after the other.

What the listener of a run has heard is then determined by the file, and so
are the counts. The settings and the order of the turns decide how the
records were grouped on their way, and leave no trace in either.

## Main definitions

* `Run.reference`: One decoder, given every datagram of the records.
* `Run.callbacks`: What it tells.
* `Run.Yields`: A run comes to a result under some order of turns.
* `Run.Matches`: A result is that of the reference.

## Theorems

* `reference_eq_replay`: A listener hears the callbacks, whoever it is.
* `reads_of_yields`: What a run has fed, and how it ends.
* `matches_of_yields`: A run that succeeds has come to the reference.
* `exists_ok_of_yields`: A run succeeds if every record fits a read.
* `yields_execute`: Alternating turns are such a run.
* `runs_agree`: Any two such runs over a file agree.
-/

namespace MarketFeed

/-! ## Packets one after the other -/

namespace Filter

variable {σ : Type} {handle : Bytes → σ → σ}

/-- Give the datagram of a packet to the handler, if there is one. -/
def deliver (handle : Bytes → σ → σ) (state : σ) (packet : Bytes) : σ :=
  match Packet.payload packet with
  | .ok payload => handle payload state
  | .error _ => state

/-- The filter counts by the packets alone, and the handler has what is
    delivered. -/
theorem passAll_eq (handle : Bytes → σ → σ) (packets : List Bytes) (stats : FilterStats)
    (state : σ) :
    passAll handle packets (stats, state)
      = (packets.foldl (fun stats packet => tally (Packet.payload packet) stats) stats,
          packets.foldl (deliver handle) state) := by
  induction packets generalizing stats state with
  | nil => rfl
  | cons packet rest ih =>
      -- Counting a packet and handing it on have nothing to do with each other.
      have hpass : pass handle packet (stats, state)
          = (tally (Packet.payload packet) stats, deliver handle state packet) := rfl
      rw [passAll, List.foldl_cons, hpass, ← passAll, ih]
      rfl

theorem processed_tally (outcome : Except PacketSkip Bytes) (stats : FilterStats) :
    (tally outcome stats).processed = stats.processed + 1 := by
  unfold tally
  simp only
  split <;> rfl

/-- Every packet is processed once. -/
theorem processed_foldl_tally (packets : List Bytes) (stats : FilterStats) :
    (packets.foldl (fun stats packet => tally (Packet.payload packet) stats) stats).processed
      = stats.processed + packets.length := by
  induction packets generalizing stats with
  | nil => rfl
  | cons packet rest ih =>
      rw [List.foldl_cons, ih, processed_tally, List.length_cons]
      omega

end Filter

namespace Consumer

variable {σ : Type} {listen : Listener σ}

theorem feedPackets_append (front back : List Bytes) (c : Consumer σ) :
    c.feedPackets listen (front ++ back)
      = (c.feedPackets listen front).feedPackets listen back := by
  simp only [feedPackets, Filter.passAll, List.foldl_append]

/-- Feeding batches is feeding their packets. -/
theorem foldl_feed (batches : List Batch) (c : Consumer σ) :
    batches.foldl (fun c batch => c.feed listen batch) c
      = c.feedPackets listen (batches.flatMap fun batch => batch.packets.map (·.data)) := by
  induction batches generalizing c with
  | nil => rfl
  | cons batch rest ih =>
      rw [List.foldl_cons, ih, List.flatMap_cons, feedPackets_append, feed]

/-- A datagram that is passed on is a datagram that is decoded. -/
theorem forwarded_eq_datagrams (listen : Listener σ) (packets : List Bytes) (stats : FilterStats)
    (d : Decoder) (s : σ) (h : stats.forwarded = d.stats.datagrams) :
    (packets.foldl (fun stats packet => Filter.tally (Packet.payload packet) stats) stats).forwarded
      = (packets.foldl (Filter.deliver (handle listen)) (d, s)).1.stats.datagrams := by
  -- The two counts go up together: with each packet that has a datagram.
  induction packets generalizing stats d s with
  | nil => exact h
  | cons packet rest ih =>
      rw [List.foldl_cons, List.foldl_cons]
      unfold Filter.deliver Filter.tally
      cases hpayload : Packet.payload packet with
      | ok payload =>
          refine ih _ _ _ ?_
          rw [Decoder.datagrams_decode]
          exact congrArg (· + 1) h
      | error skip =>
          cases skip <;> exact ih _ _ _ h

end Consumer

/-- The packets of the batches have the octets of the records. -/
theorem CaptureFile.Delivered.map_data {f : CaptureFile} {room : Nat} {taken left : List Record}
    {batches : List Batch} (h : f.Delivered room taken left batches) :
    (batches.flatMap fun batch => batch.packets.map (·.data)) = taken.map (·.data) := by
  rw [← List.map_flatMap]
  refine List.ext_getElem? fun i => ?_
  rw [List.getElem?_map, List.getElem?_map]
  by_cases hi : i < taken.length
  · have hi' : i < (batches.flatMap Batch.packets).length := by
      rw [h.length]
      exact hi
    have hpacket := List.getElem?_eq_getElem hi'
    have hrecord := List.getElem?_eq_getElem hi
    rw [hpacket, hrecord, Option.map_some, Option.map_some, (h.packets i _ _ hpacket hrecord).data]
  · have hi' : ¬ i < (batches.flatMap Batch.packets).length := by
      rw [h.length]
      exact hi
    rw [List.getElem?_eq_none (Nat.not_lt.mp hi), List.getElem?_eq_none (Nat.not_lt.mp hi')]
    rfl

namespace Run

variable {σ : Type} {listen : Listener σ} {records : List Record} {tail : Bytes} {first : σ}
variable {path : String} {found : Except SystemFault Entry} {file : CaptureFile} {config : Config}

/-- One decoder that is given the datagram of every record, in order. -/
def reference (listen : Listener σ) (records : List Record) (first : σ) : Decoder × σ :=
  records.foldl (fun state r => Filter.deliver (Consumer.handle listen) state r.data) ({}, first)

/-- What the reference tells of these records, each message with its
    envelope. -/
def callbacks (records : List Record) : List (Envelope × Message) :=
  (reference .recorder records #[]).2.toList

/-- A listener hears the callbacks, whoever it is, and the decoder does not
    depend on it. -/
theorem reference_eq_replay (listen : Listener σ) (records : List Record) (first : σ) :
    reference listen records first
      = ((reference .recorder records #[]).1, listen.replay (callbacks records) first) := by
  -- The recorder and the listener go through the packets side by side.
  have hone : ∀ (state : Decoder × Array (Envelope × Message)) (r : Record),
      Filter.deliver (Consumer.handle listen) (Consumer.replayed listen first state) r.data
        = Consumer.replayed listen first
            (Filter.deliver (Consumer.handle .recorder) state r.data) := by
    intro state r
    unfold Filter.deliver
    cases Packet.payload r.data with
    | error skip => rfl
    | ok payload => exact Consumer.handle_replayed listen first payload state
  have hall : records.foldl (fun state r => Filter.deliver (Consumer.handle listen) state r.data)
        (Consumer.replayed listen first ({}, #[]))
      = Consumer.replayed listen first (reference .recorder records #[]) :=
    List.foldl_hom _ hone
  exact hall

/-! ## Every run -/

/-- A run with these settings comes to this result: the two sides take turns in
    some order in which nobody asks for a stop, the consumer has left, and this
    is what is collected. -/
def Yields (listen : Listener σ) (path : String) (found : Except SystemFault Entry) (first : σ)
    (config : Config) (result : Except CaptureError (σ × RunReport)) : Prop :=
  ∃ buffer session schedule, open? path found config = .ok buffer ∧
    begin config buffer first = .ok session ∧ Turn.stop ∉ schedule ∧
    (session.play (Consumer.feed listen) schedule).isOver = true ∧
    collect (session.play (Consumer.feed listen) schedule) = result

/-- The result is what the reference makes of the records, with a rest behind
    the last of them. -/
structure Matches (listen : Listener σ) (records : List Record) (tail : Bytes) (first : σ)
    (result : σ × RunReport) : Prop where
  heard : result.1 = listen.replay (callbacks records) first
  decoder : result.2.decoder = (reference listen records first).1.stats
  filter : result.2.filter
    = records.foldl (fun stats r => Filter.tally (Packet.payload r.data) stats) {}
  packets : result.2.capture.packets = records.length
  bytesConsumed : result.2.capture.bytesConsumed = Record.total records
  truncatedTailBytes : result.2.capture.truncatedTailBytes = tail.length
  processed : result.2.capture.packets = result.2.filter.processed
  forwarded : result.2.filter.forwarded = result.2.decoder.datagrams

theorem open?_eq_ofFile (hopen : CaptureFile.open? path found = .ok file) (config : Config) :
    open? path found config = .ok (Buffer.ofFile file config.chunkSize config.queueCapacity) := by
  rw [open?, hopen]
  rfl

/-- A run that begins is on its way through the batches of the reading. -/
theorem follows_of_begin (hopen : CaptureFile.open? path found = .ok file)
    (hsize : file.size < UInt64.size) {buffer : Buffer} {session : Session (Consumer σ)}
    (hbuffer : open? path found config = .ok buffer)
    (hbegin : begin config buffer first = .ok session) (listen : Listener σ) :
    ∃ batches outcome, (Producer.opening file config.chunkSize).Publishes batches outcome ∧
      session.Follows (Consumer.feed listen) { heard := first } batches outcome := by
  have hsound := Producer.sound_opening hopen hsize config.chunkSize
  rcases hsound.exists_publishes with ⟨batches, outcome, hrest⟩
  rw [open?_eq_ofFile hopen] at hbuffer
  cases hbuffer
  rw [begin] at hbegin
  cases hstart : (Buffer.ofFile file config.chunkSize config.queueCapacity).start with
  | error e => rw [hstart] at hbegin; cases hbegin
  | ok started =>
      rw [hstart] at hbegin
      cases hbegin
      exact ⟨batches, outcome, hrest,
        ⟨[], batches, rfl, Buffer.holds_of_start hsound hrest hstart, rfl, Stage.noConfusion⟩,
        Stage.noConfusion⟩

/-- What the consumer has that was fed the batches of these records. -/
theorem foldl_feed_of_delivered {room : Nat} {left : List Record} {batches : List Batch}
    (h : file.Delivered room records left batches) (listen : Listener σ) (first : σ) :
    batches.foldl (fun c batch => Consumer.feed listen batch c) { heard := first }
      = { filter := records.foldl (fun stats r => Filter.tally (Packet.payload r.data) stats) {}
          decoder := (reference listen records first).1
          heard := (reference listen records first).2 } := by
  rw [Consumer.foldl_feed, h.map_data, Consumer.feedPackets, Filter.passAll_eq]
  simp only [List.foldl_map, reference]

/-- A run takes the batches of the reading, feeds them in order, and ends like
    the reading. -/
theorem reads_of_yields (hopen : CaptureFile.open? path found = .ok file)
    (hsize : file.size < UInt64.size)
    (hsplits : Record.Splits file.header.byteOrder file.body records tail)
    {result : Except CaptureError (σ × RunReport)}
    (h : Yields listen path found first config result) :
    ∃ batches outcome,
      file.Reads (max config.chunkSize RecordHeader.length) records tail batches outcome ∧
      result = outcome.map fun capture =>
        let c := batches.foldl (fun c batch => Consumer.feed listen batch c) { heard := first }
        (c.heard, { capture, filter := c.filter, decoder := c.decoder.stats }) := by
  rcases h with ⟨buffer, session, schedule, hbuffer, hbegin, hstop, hover, hcollect⟩
  rcases follows_of_begin hopen hsize hbuffer hbegin listen with ⟨batches, outcome, hrest, hfollows⟩
  -- Whatever the turns were, the consumer has fed the batches of the reading.
  rcases (hfollows.play hstop).of_isOver hover with ⟨hstate, hdone⟩
  rw [collect, hstate, hdone.join] at hcollect
  -- The octets fall into records in one way only.
  rcases Producer.reads_of_publishes hopen hsize hrest with ⟨records', tail', hreads⟩
  rcases hreads.splits.unique hsplits with ⟨rfl, rfl⟩
  exact ⟨batches, outcome, hreads, hcollect.symm⟩

/-- A run that succeeds has come to the reference, under any settings and order
    of turns. -/
theorem matches_of_yields (hopen : CaptureFile.open? path found = .ok file)
    (hsize : file.size < UInt64.size)
    (hsplits : Record.Splits file.header.byteOrder file.body records tail)
    {result : σ × RunReport}
    (h : Yields listen path found first config (.ok result)) :
    Matches listen records tail first result := by
  rcases reads_of_yields hopen hsize hsplits h with ⟨batches, outcome, hreads, hresult⟩
  by_cases hfit : Record.Fit (max config.chunkSize RecordHeader.length) records tail
  · rcases hreads.whole hfit with ⟨hdelivered, rfl, -⟩
    rw [foldl_feed_of_delivered hdelivered] at hresult
    cases hresult
    refine ⟨congrArg Prod.snd (reference_eq_replay listen records first), rfl, rfl, rfl, rfl, rfl,
      ?_, ?_⟩
    · have hprocessed := Filter.processed_foldl_tally (records.map (·.data)) {}
      simp only [List.foldl_map, List.length_map, Nat.zero_add] at hprocessed
      exact hprocessed.symm
    · have hforwarded := Consumer.forwarded_eq_datagrams listen (records.map (·.data)) {} {}
        first rfl
      simp only [List.foldl_map] at hforwarded
      exact hforwarded
  · -- A reading that did not take all records has failed, and so has the run.
    rcases hreads.blocked hfit with ⟨taken, left, -, -, -, -, rfl⟩
    cases hresult

/-- A run over records that all fit a read succeeds. -/
theorem exists_ok_of_yields (hopen : CaptureFile.open? path found = .ok file)
    (hsize : file.size < UInt64.size)
    (hsplits : Record.Splits file.header.byteOrder file.body records tail)
    (hfit : Record.Fit (max config.chunkSize RecordHeader.length) records tail)
    {outcome : Except CaptureError (σ × RunReport)}
    (h : Yields listen path found first config outcome) : ∃ result, outcome = .ok result := by
  rcases reads_of_yields hopen hsize hsplits h with ⟨batches, _, hreads, hresult⟩
  rcases hreads.whole hfit with ⟨-, rfl, -⟩
  exact ⟨_, hresult⟩

/-- Letting the two sides alternate is one way for a run to go. -/
theorem yields_execute (hopen : CaptureFile.open? path found = .ok file)
    (hsize : file.size < UInt64.size) {buffer : Buffer}
    (hbuffer : open? path found config = .ok buffer)
    (listen : Listener σ) (first : σ) :
    Yields listen path found first config (execute config listen buffer first) := by
  unfold execute
  cases hbegin : begin config buffer first with
  | error e =>
      -- A buffer that has just been opened can be started.
      rw [open?_eq_ofFile hopen] at hbuffer
      cases hbuffer
      cases hbegin
  | ok session =>
      rcases follows_of_begin hopen hsize hbuffer hbegin listen with ⟨_, _, -, hfollows⟩
      have hover := hfollows.isOver_drive
      rcases Session.exists_play_drive (Consumer.feed listen) session with ⟨schedule, hstop, hplay⟩
      simp only
      rw [hplay] at hover ⊢
      exact ⟨buffer, session, schedule, hbuffer, hbegin, hstop, hover, rfl⟩

/-- Every run over a file that succeeds is the reference over its records, so
    any two of them agree; and there is one with any settings under which the
    records fit a read. -/
theorem runs_agree (hopen : CaptureFile.open? path found = .ok file)
    (hsize : file.size < UInt64.size) (listen : Listener σ) (first : σ) :
    (∃ records tail, Record.Splits file.header.byteOrder file.body records tail ∧
      (∀ config result, Yields listen path found first config (.ok result) →
        Matches listen records tail first result) ∧
      ∀ config : Config, Record.Fit (max config.chunkSize RecordHeader.length) records tail →
        ∃ result, Yields listen path found first config (.ok result)) ∧
    ∀ config config' result result', Yields listen path found first config (.ok result) →
      Yields listen path found first config' (.ok result') →
      result.1 = result'.1 ∧ result.2.filter = result'.2.filter ∧
        result.2.decoder = result'.2.decoder ∧
        result.2.capture.packets = result'.2.capture.packets ∧
        result.2.capture.bytesConsumed = result'.2.capture.bytesConsumed ∧
        result.2.capture.truncatedTailBytes = result'.2.capture.truncatedTailBytes := by
  rcases Record.exists_splits file.header.byteOrder file.body with ⟨records, tail, hsplits⟩
  refine ⟨⟨records, tail, hsplits, fun config result h => matches_of_yields hopen hsize hsplits h,
    fun config hfit => ?_⟩, fun config config' result result' h h' => ?_⟩
  · have hyields := yields_execute hopen hsize (open?_eq_ofFile hopen config) listen first
    rcases exists_ok_of_yields hopen hsize hsplits hfit hyields with ⟨result, hresult⟩
    rw [hresult] at hyields
    exact ⟨result, hyields⟩
  · -- Each run is compared with the reference, which does not know the chunk
    -- size or the capacity.
    have hfirst := matches_of_yields hopen hsize hsplits h
    have hsecond := matches_of_yields hopen hsize hsplits h'
    exact ⟨hfirst.heard.trans hsecond.heard.symm, hfirst.filter.trans hsecond.filter.symm,
      hfirst.decoder.trans hsecond.decoder.symm, hfirst.packets.trans hsecond.packets.symm,
      hfirst.bytesConsumed.trans hsecond.bytesConsumed.symm,
      hfirst.truncatedTailBytes.trans hsecond.truncatedTailBytes.symm⟩

/-- A packet with a datagram of one message, with which a bid comes to rest. -/
def bidPacket (id price : Int64) : Bytes :=
  List.replicate 14 0 ++ ([0x45] ++ List.replicate 8 0 ++ [17] ++ List.replicate 10 0) ++
    List.replicate 8 0 ++
    (Envelope.toBlock { messageSize := 74 } ++
      (MessageFrame.toBlock { blockLength := 50, templateId := 15 } ++
        OrderUpdate.toBlock ⟨id, price, 5, 1, 0, 3, 1, .new, .bid⟩))

/-- Three bids, and two records that are no packets. -/
def bidRecords : List Record :=
  [⟨⟨7, 9, 2, 5⟩, [0xaa, 0xbb]⟩, ⟨⟨7, 10, 116, 116⟩, bidPacket 1 100⟩, ⟨⟨7, 10, 0, 60⟩, []⟩,
    ⟨⟨8, 0, 116, 116⟩, bidPacket 2 101⟩, ⟨⟨8, 1, 116, 116⟩, bidPacket 3 99⟩]

/-- A header that counts microseconds. -/
def bidHeader : CaptureHeader := ⟨0, 2, 4, 0, 0, 65535, 1, .little, .micros⟩

/-- A chunk that holds two of the records at a time, and a queue for one
    batch. -/
def tightConfig : Config := { chunkSize := 150, queueCapacity := some 1, poll := .blocking }

/-- A chunk that holds all of the records, and a queue without a bound. -/
def wideConfig : Config := { chunkSize := 4096, queueCapacity := none, poll := .sleep 500 }

/-- Both runs hear the three bids. -/
theorem runs_agree_bidRecords :
    ∃ file, CaptureFile.open? "day.pcap"
        (.ok (.file (bidHeader.content .little bidRecords [9, 0, 0]))) = .ok file ∧
      file.size < UInt64.size ∧
      ∃ tight wide,
        Yields .recorder "day.pcap"
          (.ok (.file (bidHeader.content .little bidRecords [9, 0, 0]))) #[] tightConfig
          (.ok tight) ∧
        Yields .recorder "day.pcap"
          (.ok (.file (bidHeader.content .little bidRecords [9, 0, 0]))) #[] wideConfig
          (.ok wide) ∧
        Matches .recorder bidRecords [9, 0, 0] #[] tight ∧ tight.1.size = 3 ∧
        tight.1 = wide.1 := by
  have hopen := CaptureFile.open?_content "day.pcap" bidHeader .little bidRecords [9, 0, 0]
  have hlengths : ∀ r ∈ bidRecords, r.header.capturedLength.toNat = r.data.length := by decide
  have hsplits := CaptureFile.splits_written "day.pcap" bidHeader .little hlengths
    (show [9, 0, 0].length < RecordHeader.length by decide)
  have hsize : (bidHeader.content .little bidRecords [9, 0, 0]).length < UInt64.size := by
    rw [CaptureFile.length_content]
    decide
  have hagree := runs_agree hopen hsize .recorder #[]
  rcases hagree.1 with ⟨records, tail, hsplits', hmatches, hexists⟩
  -- The octets are those of the records and the rest, which either chunk can hold.
  rcases hsplits.unique hsplits' with ⟨rfl, rfl⟩
  rcases hexists tightConfig ⟨by decide, by decide⟩ with ⟨tight, htight⟩
  rcases hexists wideConfig ⟨by decide, by decide⟩ with ⟨wide, hwide⟩
  have hresult := hmatches _ _ htight
  refine ⟨_, hopen, hsize, tight, wide, htight, hwide, hresult, ?_,
    (hagree.2 _ _ _ _ htight hwide).1⟩
  rw [hresult.heard]
  decide +kernel

end Run

end MarketFeed
