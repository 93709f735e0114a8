import MarketFeed.Message.Basic

/-!
# Layouts on the Wire

Where the fields of each header and message lie, in both directions.

Every structure is packed and little-endian, so a layout is a size and the
positions of its fields. Reading goes in two steps. `Layout.block` takes the
window of the datagram that the structure occupies, or says how many octets
were missing; from then on no read can fail, and `ofBlock` picks the fields
off the window by position. Writing is the concatenation of the fields in
order, and the positions in `ofBlock` are its running total.

## Main definitions

* `Layout`: The structures with a fixed size.
* `DecodeError`: Why a datagram could not be read to its end.
* `Layout.block`: The window of one structure.
* `ofBlock`, `toBlock` of each structure: Its fields and its octets.

## Theorems

* `Layout.length_of_block`: A window is as long as its structure.
* `Layout.block_eq_ok_iff`: When a structure is there, and where.
* `length_toBlock` of each structure: Writing fills the window exactly.
-/

namespace MarketFeed

/-- The structures a datagram is made of. -/
inductive Layout
  /-- The envelope. -/
  | envelope
  /-- The header of a datagram of changes. -/
  | incremental
  /-- The header in front of a message. -/
  | frame
  /-- The block of a change to an order. -/
  | update
  /-- The block of a trade. -/
  | execution
  /-- The block of a snapshot. -/
  | snapshotHeader
  /-- The head of a repeating group. -/
  | group
  /-- An entry of a snapshot. -/
  | entry
  deriving DecidableEq, Repr

/-- Why a datagram could not be read to its end. -/
inductive DecodeError
  /-- A structure or an entry runs past the end of the payload. -/
  | truncated (part : Layout) (offset needed available : Nat)
  /-- A frame declares a length that its template does not have. -/
  | blockLengthMismatch (templateId declared : UInt16) (expected : Nat)
  /-- The entries of a group are too close together to hold their fields. -/
  | groupBlockTooSmall (blockSize : UInt16) (least : Nat)
  deriving DecidableEq, Repr

namespace Layout

/-- How many octets the structure takes. -/
def size : Layout → Nat
  | .envelope => 16
  | .incremental => 12
  | .frame => 8
  | .update => 50
  | .execution => 74
  | .snapshotHeader => 16
  | .group => 3
  | .entry => 57

/-- What the structure is called in a message. -/
def name : Layout → String
  | .envelope => "envelope"
  | .incremental => "incremental header"
  | .frame => "message frame"
  | .update => "order update"
  | .execution => "order execution"
  | .snapshotHeader => "order book snapshot header"
  | .group => "group size"
  | .entry => "order book entry"

/-- The error of a structure that needs more octets than follow the offset. -/
def truncatedAt (layout : Layout) (payload : Bytes) (offset needed : Nat) : DecodeError :=
  .truncated layout offset needed (payload.length - offset)

/-- The window of the payload that the structure takes at an offset. -/
def block (layout : Layout) (payload : Bytes) (offset : Nat) : Except DecodeError Bytes :=
  match payload.window? offset layout.size with
  | some found => .ok found
  | none => .error (layout.truncatedAt payload offset layout.size)

/-- A structure is there exactly if the payload reaches to its end. -/
theorem block_eq_ok_iff {layout : Layout} {payload found : Bytes} {offset : Nat} :
    layout.block payload offset = .ok found ↔
      offset + layout.size ≤ payload.length ∧
        found = (payload.drop offset).take layout.size := by
  rw [← Bytes.window?_eq_some_iff]
  unfold block
  cases payload.window? offset layout.size <;> simp

/-- The window of a structure is as long as the structure. -/
theorem length_of_block {layout : Layout} {payload found : Bytes} {offset : Nat}
    (h : layout.block payload offset = .ok found) : found.length = layout.size := by
  obtain ⟨hle, rfl⟩ := block_eq_ok_iff.mp h
  rw [List.length_take, List.length_drop]
  omega

end Layout

namespace DecodeError

/-- The error as a sentence. -/
def message : DecodeError → String
  | .truncated part offset needed available =>
    part.name ++ " needs " ++ toString needed ++ " bytes at offset " ++ toString offset ++
      ", payload has " ++ toString available
  | .blockLengthMismatch templateId declared expected =>
    "template " ++ toString templateId.toNat ++ " declares block length " ++
      toString declared.toNat ++ ", expected " ++ toString expected
  | .groupBlockTooSmall blockSize least =>
    "repeating group block size " ++ toString blockSize.toNat ++
      " is smaller than an entry (" ++ toString least ++ " bytes)"

end DecodeError

/-! ## Fields by position and by concatenation -/

namespace Envelope

/-- The envelope in a window of 16 octets. -/
def ofBlock (b : Bytes) : Envelope where
  sequenceNumber := b.u32At 0
  messageSize := b.u16At 4
  messageFlags := b.u16At 6
  sendingTime := b.u64At 8

/-- The 16 octets of an envelope. -/
def toBlock (e : Envelope) : Bytes :=
  Bytes.ofU32 e.sequenceNumber ++ Bytes.ofU16 e.messageSize ++ Bytes.ofU16 e.messageFlags ++
    Bytes.ofU64 e.sendingTime

/-- The envelope at an offset. -/
def read (payload : Bytes) (offset : Nat) : Except DecodeError Envelope :=
  (Layout.envelope.block payload offset).map ofBlock

@[simp] theorem length_toBlock (e : Envelope) : e.toBlock.length = Layout.envelope.size := by
  simp [toBlock, Bytes.ofU16, Bytes.ofU32, Bytes.ofU64, Layout.size]

end Envelope

namespace IncrementalHeader

/-- The header in a window of 12 octets. -/
def ofBlock (b : Bytes) : IncrementalHeader where
  transactTime := b.u64At 0
  exchangeSessionId := b.u32At 8

/-- The 12 octets of the header. -/
def toBlock (h : IncrementalHeader) : Bytes :=
  Bytes.ofU64 h.transactTime ++ Bytes.ofU32 h.exchangeSessionId

/-- The header at an offset. -/
def read (payload : Bytes) (offset : Nat) : Except DecodeError IncrementalHeader :=
  (Layout.incremental.block payload offset).map ofBlock

@[simp] theorem length_toBlock (h : IncrementalHeader) :
    h.toBlock.length = Layout.incremental.size := by
  simp [toBlock, Bytes.ofU32, Bytes.ofU64, Layout.size]

end IncrementalHeader

namespace MessageFrame

/-- The frame in a window of 8 octets. -/
def ofBlock (b : Bytes) : MessageFrame where
  blockLength := b.u16At 0
  templateId := b.u16At 2
  schemaId := b.u16At 4
  version := b.u16At 6

/-- The 8 octets of a frame. -/
def toBlock (f : MessageFrame) : Bytes :=
  Bytes.ofU16 f.blockLength ++ Bytes.ofU16 f.templateId ++ Bytes.ofU16 f.schemaId ++
    Bytes.ofU16 f.version

/-- The frame at an offset. -/
def read (payload : Bytes) (offset : Nat) : Except DecodeError MessageFrame :=
  (Layout.frame.block payload offset).map ofBlock

@[simp] theorem length_toBlock (f : MessageFrame) : f.toBlock.length = Layout.frame.size := by
  simp [toBlock, Bytes.ofU16, Layout.size]

end MessageFrame

namespace OrderUpdate

/-- The update in a window of 50 octets. -/
def ofBlock (b : Bytes) : OrderUpdate where
  orderId := b.i64At 0
  orderPrice := b.i64At 8
  orderVolume := b.i64At 16
  flags := b.u64At 24
  flags2 := b.u64At 32
  securityId := b.i32At 40
  rptSeq := b.u32At 44
  action := Action.ofCode (b.u8At 48)
  side := Side.ofCode (b.u8At 49)

/-- The 50 octets of an update. -/
def toBlock (u : OrderUpdate) : Bytes :=
  Bytes.ofI64 u.orderId ++ Bytes.ofI64 u.orderPrice ++ Bytes.ofI64 u.orderVolume ++
    Bytes.ofU64 u.flags ++ Bytes.ofU64 u.flags2 ++ Bytes.ofI32 u.securityId ++
    Bytes.ofU32 u.rptSeq ++ [u.action.toCode, u.side.toCode]

/-- The update at an offset. -/
def read (payload : Bytes) (offset : Nat) : Except DecodeError OrderUpdate :=
  (Layout.update.block payload offset).map ofBlock

@[simp] theorem length_toBlock (u : OrderUpdate) : u.toBlock.length = Layout.update.size := by
  simp [toBlock, Bytes.ofI64, Bytes.ofU64, Bytes.ofI32, Bytes.ofU32, Layout.size]

end OrderUpdate

namespace OrderExecution

/-- The execution in a window of 74 octets. -/
def ofBlock (b : Bytes) : OrderExecution where
  orderId := b.i64At 0
  orderPrice := b.i64At 8
  remainingQuantity := b.i64At 16
  tradePrice := b.i64At 24
  tradeVolume := b.i64At 32
  traderId := b.i64At 40
  flags := b.u64At 48
  flags2 := b.u64At 56
  securityId := b.i32At 64
  rptSeq := b.u32At 68
  action := Action.ofCode (b.u8At 72)
  side := Side.ofCode (b.u8At 73)

/-- The 74 octets of an execution. -/
def toBlock (x : OrderExecution) : Bytes :=
  Bytes.ofI64 x.orderId ++ Bytes.ofI64 x.orderPrice ++ Bytes.ofI64 x.remainingQuantity ++
    Bytes.ofI64 x.tradePrice ++ Bytes.ofI64 x.tradeVolume ++ Bytes.ofI64 x.traderId ++
    Bytes.ofU64 x.flags ++ Bytes.ofU64 x.flags2 ++ Bytes.ofI32 x.securityId ++
    Bytes.ofU32 x.rptSeq ++ [x.action.toCode, x.side.toCode]

/-- The execution at an offset. -/
def read (payload : Bytes) (offset : Nat) : Except DecodeError OrderExecution :=
  (Layout.execution.block payload offset).map ofBlock

@[simp] theorem length_toBlock (x : OrderExecution) :
    x.toBlock.length = Layout.execution.size := by
  simp [toBlock, Bytes.ofI64, Bytes.ofU64, Bytes.ofI32, Bytes.ofU32, Layout.size]

end OrderExecution

namespace SnapshotHeader

/-- The header in a window of 16 octets. -/
def ofBlock (b : Bytes) : SnapshotHeader where
  securityId := b.i32At 0
  lastMsgSeqNumProcessed := b.u32At 4
  rptSeq := b.u32At 8
  exchangeTradingSessionId := b.u32At 12

/-- The 16 octets of the header. -/
def toBlock (h : SnapshotHeader) : Bytes :=
  Bytes.ofI32 h.securityId ++ Bytes.ofU32 h.lastMsgSeqNumProcessed ++ Bytes.ofU32 h.rptSeq ++
    Bytes.ofU32 h.exchangeTradingSessionId

/-- The header at an offset. -/
def read (payload : Bytes) (offset : Nat) : Except DecodeError SnapshotHeader :=
  (Layout.snapshotHeader.block payload offset).map ofBlock

@[simp] theorem length_toBlock (h : SnapshotHeader) :
    h.toBlock.length = Layout.snapshotHeader.size := by
  simp [toBlock, Bytes.ofI32, Bytes.ofU32, Layout.size]

end SnapshotHeader

namespace GroupSize

/-- The head of a group in a window of 3 octets. -/
def ofBlock (b : Bytes) : GroupSize where
  blockSize := b.u16At 0
  numInGroup := b.u8At 2

/-- The 3 octets of the head of a group. -/
def toBlock (g : GroupSize) : Bytes := Bytes.ofU16 g.blockSize ++ [g.numInGroup]

/-- The head of a group at an offset. -/
def read (payload : Bytes) (offset : Nat) : Except DecodeError GroupSize :=
  (Layout.group.block payload offset).map ofBlock

@[simp] theorem length_toBlock (g : GroupSize) : g.toBlock.length = Layout.group.size := by
  simp [toBlock, Bytes.ofU16, Layout.size]

end GroupSize

namespace BookEntry

/-- The entry in a window of 57 octets. -/
def ofBlock (b : Bytes) : BookEntry where
  orderId := b.i64At 0
  transactTime := b.u64At 8
  orderPrice := b.i64At 16
  orderVolume := b.i64At 24
  tradeId := b.i64At 32
  flags := b.u64At 40
  flags2 := b.u64At 48
  side := Side.ofCode (b.u8At 56)

/-- The 57 octets of an entry. -/
def toBlock (e : BookEntry) : Bytes :=
  Bytes.ofI64 e.orderId ++ Bytes.ofU64 e.transactTime ++ Bytes.ofI64 e.orderPrice ++
    Bytes.ofI64 e.orderVolume ++ Bytes.ofI64 e.tradeId ++ Bytes.ofU64 e.flags ++
    Bytes.ofU64 e.flags2 ++ [e.side.toCode]

/-- The entry at an offset. -/
def read (payload : Bytes) (offset : Nat) : Except DecodeError BookEntry :=
  (Layout.entry.block payload offset).map ofBlock

@[simp] theorem length_toBlock (e : BookEntry) : e.toBlock.length = Layout.entry.size := by
  simp [toBlock, Bytes.ofI64, Bytes.ofU64, Layout.size]

end BookEntry

end MarketFeed
