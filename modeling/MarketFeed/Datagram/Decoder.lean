import MarketFeed.Message
import MarketFeed.Message.Layout

/-!
# Decoding a Datagram

From the octets of one datagram to the messages in it.

The decoder reads the envelope, the incremental header if the envelope
announces one, and then message after message for as long as the offset lies
before the size that the envelope declares. A template number without a
template ends the datagram quietly. Anything that does not fit ends it with
an error, and what came before the error has already been told to the
listener.

The declared size limits only where a message may start. A message that
starts before it is read in full, as far as the payload goes.

A snapshot's entries are spaced by the size that the group itself declares,
which may be larger than an entry: what lies between two entries is skipped.
So is what a snapshot's block has beyond its known fields. The other two
messages must have exactly the length of their template.

The headers of the last datagram stay readable, and the counts run over all
datagrams. A datagram too short for an envelope leaves the previous envelope
in place, since there is nothing to put there.

## Main definitions

* `DecoderStats`: What has been counted so far.
* `Decoder`: The headers of the last datagram and the counts.
* `Reading`: What reading one datagram leads to.
* `Decoder.decode`: Reading one datagram.
* `Decoder.decodeAll`: Reading one datagram after another.
-/

namespace MarketFeed

/-- What a decoder has counted over all its datagrams. -/
structure DecoderStats where
  /-- How many datagrams were given to the decoder. -/
  datagrams : Nat := 0
  /-- How many changes to orders were dispatched. -/
  orderUpdates : Nat := 0
  /-- How many trades were dispatched. -/
  orderExecutions : Nat := 0
  /-- How many snapshots were dispatched. -/
  orderBookSnapshots : Nat := 0
  /-- How many entries were put into snapshots. -/
  snapshotEntries : Nat := 0
  /-- How many datagrams ended at an unknown template. -/
  unknownTemplates : Nat := 0
  /-- How many datagrams ended with an error. -/
  decodeErrors : Nat := 0
  deriving DecidableEq, Repr

/-- How many messages were dispatched. -/
def DecoderStats.messages (s : DecoderStats) : Nat :=
  s.orderUpdates + s.orderExecutions + s.orderBookSnapshots

/-- The headers of the last datagram and the counts over all of them. -/
structure Decoder where
  /-- The last envelope that was read. -/
  envelope : Envelope := {}
  /-- The incremental header of the last datagram, if it had one. -/
  incremental : Option IncrementalHeader := none
  /-- The last frame read in the last datagram, if there was one. -/
  lastFrame : Option MessageFrame := none
  /-- The counts. -/
  stats : DecoderStats := {}
  deriving DecidableEq, Repr

/-- What reading one datagram leads to: the number of messages dispatched or
    the error that ended it, and in either case the decoder and the listener
    as they are afterwards. -/
structure Reading (σ : Type) where
  /-- The number of messages, or the error. -/
  result : Except DecodeError Nat
  /-- The decoder afterwards. -/
  decoder : Decoder
  /-- The listener's state afterwards. -/
  heard : σ

namespace Snapshot

/-- Read `count` entries that lie `stride` octets apart and put them into a
    snapshot. Beside the outcome stands how many of them were kept, which is
    known even if a later one is missing. -/
def readEntries (payload : Bytes) (stride : Nat) :
    (count offset : Nat) → Snapshot → (kept : Nat) → Except DecodeError Snapshot × Nat
  | 0, _, s, kept => (.ok s, kept)
  | count + 1, offset, s, kept =>
    if payload.length - offset < stride then
      (.error (Layout.entry.truncatedAt payload offset stride), kept)
    else
      match BookEntry.read payload offset with
      | .error e => (.error e, kept)
      | .ok entry =>
        let found := s.put entry
        readEntries payload stride count (offset + stride) found.1
          (if found.2 then kept + 1 else kept)

end Snapshot

namespace Decoder

variable {σ : Type}

/-- What one frame and its message lead to. -/
inductive Stride (σ : Type)
  /-- A message of this many octets behind its frame was dispatched. -/
  | dispatched (used : Nat) (decoder : Decoder) (heard : σ)
  /-- The frame announces a template that is not known. -/
  | unknownTemplate (decoder : Decoder)
  /-- The frame or its message could not be read. -/
  | failed (error : DecodeError) (decoder : Decoder)

/-- The error of a frame whose block is not as long as it should be. -/
def wrongLength (frame : MessageFrame) (expected : Nat) : DecodeError :=
  .blockLengthMismatch frame.templateId frame.blockLength expected

/-- Add to the counts. -/
def count (d : Decoder) (f : DecoderStats → DecoderStats) : Decoder :=
  { d with stats := f d.stats }

/-- Read and dispatch the update behind a frame. -/
def update (listen : Listener σ) (payload : Bytes) (offset : Nat) (frame : MessageFrame)
    (d : Decoder) (s : σ) : Stride σ :=
  if frame.blockLength.toNat = Layout.update.size then
    match OrderUpdate.read payload offset with
    | .error e => .failed e d
    | .ok u =>
      .dispatched Layout.update.size
        (d.count fun c => { c with orderUpdates := c.orderUpdates + 1 })
        (listen d.envelope (.update u) s)
  else .failed (wrongLength frame Layout.update.size) d

/-- Read and dispatch the execution behind a frame. -/
def execution (listen : Listener σ) (payload : Bytes) (offset : Nat) (frame : MessageFrame)
    (d : Decoder) (s : σ) : Stride σ :=
  if frame.blockLength.toNat = Layout.execution.size then
    match OrderExecution.read payload offset with
    | .error e => .failed e d
    | .ok x =>
      .dispatched Layout.execution.size
        (d.count fun c => { c with orderExecutions := c.orderExecutions + 1 })
        (listen d.envelope (.execution x) s)
  else .failed (wrongLength frame Layout.execution.size) d

/-- Read and dispatch the snapshot behind a frame: its block, the head of the
    group after it, and the entries. -/
def snapshot (listen : Listener σ) (payload : Bytes) (offset : Nat) (frame : MessageFrame)
    (d : Decoder) (s : σ) : Stride σ :=
  let rootLength := frame.blockLength.toNat
  if rootLength < Layout.snapshotHeader.size then
    .failed (wrongLength frame Layout.snapshotHeader.size) d
  else
    match SnapshotHeader.read payload offset with
    | .error e => .failed e d
    | .ok header =>
      match GroupSize.read payload (offset + rootLength) with
      | .error e => .failed e d
      | .ok group =>
        let stride := group.blockSize.toNat
        if stride < Layout.entry.size then
          .failed (.groupBlockTooSmall group.blockSize Layout.entry.size) d
        else
          let entries := group.numInGroup.toNat
          let start := offset + rootLength + Layout.group.size
          let (outcome, kept) :=
            Snapshot.readEntries payload stride entries start { header } 0
          let d := d.count fun c => { c with snapshotEntries := c.snapshotEntries + kept }
          match outcome with
          | .error e => .failed e d
          | .ok found =>
            .dispatched (rootLength + Layout.group.size + entries * stride)
              (d.count fun c => { c with orderBookSnapshots := c.orderBookSnapshots + 1 })
              (listen d.envelope (.snapshot found) s)

/-- Read the frame at an offset and the message behind it. -/
def stride (listen : Listener σ) (payload : Bytes) (offset : Nat) (d : Decoder) (s : σ) :
    Stride σ :=
  match MessageFrame.read payload offset with
  | .error e => .failed e d
  | .ok frame =>
    let d := { d with lastFrame := some frame }
    let body := offset + Layout.frame.size
    match Template.ofNumber? frame.templateId with
    | none =>
      .unknownTemplate (d.count fun c => { c with unknownTemplates := c.unknownTemplates + 1 })
    | some .orderUpdate => update listen payload body frame d s
    | some .orderExecution => execution listen payload body frame d s
    | some .bookSnapshot => snapshot listen payload body frame d s

/-- Read message after message from an offset on, while it lies before the
    declared size. -/
def walk (listen : Listener σ) (payload : Bytes) (limit offset dispatched : Nat) (d : Decoder)
    (s : σ) : Reading σ :=
  if offset < limit then
    match stride listen payload offset d s with
    | .dispatched used d s =>
      walk listen payload limit (offset + Layout.frame.size + used) (dispatched + 1) d s
    | .unknownTemplate d => ⟨.ok dispatched, d, s⟩
    | .failed e d => ⟨.error e, d, s⟩
  else ⟨.ok dispatched, d, s⟩
termination_by limit - offset
decreasing_by
  simp only [Layout.size]
  omega

/-- Read the headers of a datagram, and then its messages. -/
def readPayload (listen : Listener σ) (payload : Bytes) (d : Decoder) (s : σ) : Reading σ :=
  match Envelope.read payload 0 with
  | .error e => ⟨.error e, d, s⟩
  | .ok envelope =>
    let d := { d with envelope }
    let limit := envelope.messageSize.toNat
    let offset := Layout.envelope.size
    if envelope.isIncremental then
      match IncrementalHeader.read payload offset with
      | .error e => ⟨.error e, d, s⟩
      | .ok header =>
        walk listen payload limit (offset + Layout.incremental.size) 0
          { d with incremental := some header } s
    else walk listen payload limit offset 0 d s

/-- Forget what belongs to the last datagram alone, and count the next. -/
def start (d : Decoder) : Decoder :=
  { d with
    incremental := none
    lastFrame := none
    stats := { d.stats with datagrams := d.stats.datagrams + 1 } }

/-- Read one datagram and tell the listener every message in it. -/
def decode (listen : Listener σ) (payload : Bytes) (d : Decoder) (s : σ) : Reading σ :=
  let reading := readPayload listen payload d.start s
  match reading.result with
  | .ok _ => reading
  | .error _ =>
    { reading with
      decoder := reading.decoder.count fun c => { c with decodeErrors := c.decodeErrors + 1 } }

/-- Read one datagram after another and keep what each led to. -/
def decodeAll (listen : Listener σ) : List Bytes → Decoder → σ → List (Reading σ)
  | [], _, _ => []
  | payload :: rest, d, s =>
    let reading := decode listen payload d s
    reading :: decodeAll listen rest reading.decoder reading.heard

end Decoder

end MarketFeed
