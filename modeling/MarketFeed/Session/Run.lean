import MarketFeed.Session.Schedule
import MarketFeed.Packet.Filter
import MarketFeed.Datagram.Decoder
import MarketFeed.Clock.Elapsed

/-!
# A Run Over One Capture File

From a capture file to the messages in it, and the report of the run.

Each batch is taken apart into its packets, each packet is stripped down to
its datagram, and each datagram is decoded for the listener. A datagram that
cannot be decoded is counted and passed over. A capture that cannot be read
to its end fails the run as a whole, after all that was read before the fault
has been decoded; the listener is then given up.

## Main definitions

* `Consumer`: The counts, the decoder and the listener's state.
* `Consumer.feed`: What a batch does to them.
* `Run.open?`, `Run.execute`: A run over a file.
* `RunReport`: What a run has counted.
* `RunReport.text?`: The report in words.
-/

namespace MarketFeed

/-- What the consumer of a run keeps: the counts of its packets, the decoder,
    and the state of the listener. -/
structure Consumer (σ : Type) where
  /-- What became of the packets. -/
  filter : FilterStats := {}
  /-- The decoder. -/
  decoder : Decoder := {}
  /-- The listener's state. -/
  heard : σ

namespace Consumer

variable {σ : Type}

/-- Decode one datagram. -/
def handle (listen : Listener σ) (payload : Bytes) (state : Decoder × σ) : Decoder × σ :=
  let reading := state.1.decode listen payload state.2
  (reading.decoder, reading.heard)

/-- Strip and decode packets one after the other. -/
def feedPackets (listen : Listener σ) (packets : List Bytes) (c : Consumer σ) : Consumer σ :=
  let (filter, decoder, heard) :=
    Filter.passAll (handle listen) packets (c.filter, c.decoder, c.heard)
  { filter, decoder, heard }

/-- Strip and decode the packets of a batch. -/
def feed (listen : Listener σ) (batch : Batch) (c : Consumer σ) : Consumer σ :=
  c.feedPackets listen (batch.packets.map (·.data))

end Consumer

/-- What a run has counted. -/
structure RunReport where
  /-- What was read. -/
  capture : CaptureStats := {}
  /-- What became of the packets. -/
  filter : FilterStats := {}
  /-- What was decoded. -/
  decoder : DecoderStats := {}
  deriving DecidableEq, Repr

namespace RunReport

/-- The report in words, with the time the run took. There are no words for
    more packets passed over than 64 bits can count. -/
def text? (r : RunReport) (elapsed : String) : Option String :=
  let n (count : Nat) := toString count
  r.filter.skipped?.map fun skipped =>
    "packets: " ++ n r.capture.packets ++ " (" ++ n r.capture.batches ++ " batches, " ++
      n r.capture.bytesConsumed ++ " bytes)\n" ++
    "datagrams: " ++ n r.filter.forwarded ++ " forwarded, " ++ n skipped ++
      " skipped (transport " ++ n r.filter.skippedTransport ++ ", malformed " ++
      n r.filter.skippedMalformed ++ ")\n" ++
    "messages: " ++ n r.decoder.orderUpdates ++ " order updates, " ++
      n r.decoder.orderExecutions ++ " executions, " ++ n r.decoder.orderBookSnapshots ++
      " snapshots (" ++ n r.decoder.snapshotEntries ++ " entries)\n" ++
    "unknown templates: " ++ n r.decoder.unknownTemplates ++ ", decode errors: " ++
      n r.decoder.decodeErrors ++ ", elapsed: " ++ elapsed

end RunReport

namespace Run

variable {σ : Type}

/-- Open a capture for a run with these settings. -/
def open? (path : String) (found : Except SystemFault Entry) (config : Config) :
    Except CaptureError Buffer :=
  (CaptureFile.open? path found).map fun file =>
    Buffer.ofFile file config.chunkSize config.queueCapacity

/-- The session of a run at its beginning. -/
def begin (config : Config) (buffer : Buffer) (heard : σ) :
    Except CaptureError (Session (Consumer σ)) :=
  buffer.start.map fun buffer => { buffer, poll := config.poll, state := { heard } }

/-- What a session that is over has come to: the listener's state and the
    counts, or the fault of the capture. -/
def collect (s : Session (Consumer σ)) : Except CaptureError (σ × RunReport) :=
  s.buffer.join.1.map fun capture =>
    (s.state.heard,
      { capture, filter := s.state.filter, decoder := s.state.decoder.stats })

/-- Decode a whole capture for a listener. -/
def execute (config : Config) (listen : Listener σ) (buffer : Buffer) (heard : σ) :
    Except CaptureError (σ × RunReport) :=
  match begin config buffer heard with
  | .error e => .error e
  | .ok session => collect (session.drive (Consumer.feed listen))

end Run

end MarketFeed
