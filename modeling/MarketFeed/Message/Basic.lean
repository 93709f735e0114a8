import MarketFeed.Message.Codes

/-!
# Headers and Messages

What a datagram says, once it has been read.

A datagram opens with an envelope. An incremental header may follow, and then
come messages, each behind a frame that names its template and the length of
its fixed block. There are three kinds of message: a change to one resting
order, a trade against one, and the state of a whole book as a list of
entries.

The fields keep the widths they have on the wire. Identifiers, prices and
volumes are signed 64-bit words because the marker for an absent value is the
largest of them.

## Main definitions

* `Envelope`, `IncrementalHeader`, `MessageFrame`: The headers.
* `OrderUpdate`, `OrderExecution`: The messages about one order.
* `SnapshotHeader`, `GroupSize`, `BookEntry`: The parts of a snapshot.
-/

namespace MarketFeed

/-- The header that opens a datagram. -/
structure Envelope where
  /-- The number of the datagram in its channel. -/
  sequenceNumber : UInt32 := 0
  /-- How many octets the datagram declares, this header included. -/
  messageSize : UInt16 := 0
  /-- The flags, one bit each. -/
  messageFlags : UInt16 := 0
  /-- When it was sent, in nanoseconds since 1970. -/
  sendingTime : UInt64 := 0
  deriving DecidableEq, Repr, Inhabited

namespace Envelope

/-- Whether any of the bits of `mask` is set. -/
def hasFlag (e : Envelope) (mask : UInt16) : Bool := e.messageFlags &&& mask != 0

/-- No fragment of the same snapshot follows. -/
def isLastFragment (e : Envelope) : Bool := e.hasFlag 0x1

/-- The datagram opens a cycle of snapshots. -/
def isStartOfSnapshot (e : Envelope) : Bool := e.hasFlag 0x2

/-- The datagram closes a cycle of snapshots. -/
def isEndOfSnapshot (e : Envelope) : Bool := e.hasFlag 0x4

/-- An incremental header follows the envelope. -/
def isIncremental (e : Envelope) : Bool := e.hasFlag 0x8

/-- The datagram may have been sent before. -/
def isPossibleDuplicate (e : Envelope) : Bool := e.hasFlag 0x10

end Envelope

/-- The header of a datagram of changes. -/
structure IncrementalHeader where
  /-- When the exchange made the changes, in nanoseconds since 1970. -/
  transactTime : UInt64 := 0
  /-- The exchange's trading session. -/
  exchangeSessionId : UInt32 := 0
  deriving DecidableEq, Repr, Inhabited

/-- The header in front of every message. -/
structure MessageFrame where
  /-- The length of the message's fixed block. -/
  blockLength : UInt16 := 0
  /-- The number of the message's template. -/
  templateId : UInt16 := 0
  /-- The schema the template belongs to. -/
  schemaId : UInt16 := 0
  /-- The version of the schema. -/
  version : UInt16 := 0
  deriving DecidableEq, Repr, Inhabited

/-- A change to a resting order. -/
structure OrderUpdate where
  /-- The order. -/
  orderId : Int64
  /-- Its price in raw units. -/
  orderPrice : Int64
  /-- Its volume. -/
  orderVolume : Int64
  /-- The first set of market data flags. -/
  flags : UInt64
  /-- The second set of market data flags. -/
  flags2 : UInt64
  /-- The security the order is for. -/
  securityId : Int32
  /-- The number of the report in the security's sequence. -/
  rptSeq : UInt32
  /-- What has happened to the order. -/
  action : Action
  /-- The side the order rests on. -/
  side : Side
  deriving DecidableEq, Repr, Inhabited

/-- A trade against a resting order. -/
structure OrderExecution where
  /-- The order. -/
  orderId : Int64
  /-- The order's price in raw units. -/
  orderPrice : Int64
  /-- The volume left in the order. -/
  remainingQuantity : Int64
  /-- The price of the trade in raw units. -/
  tradePrice : Int64
  /-- The volume of the trade. -/
  tradeVolume : Int64
  /-- The trader on the other side. -/
  traderId : Int64
  /-- The first set of market data flags. -/
  flags : UInt64
  /-- The second set of market data flags. -/
  flags2 : UInt64
  /-- The security the order is for. -/
  securityId : Int32
  /-- The number of the report in the security's sequence. -/
  rptSeq : UInt32
  /-- What has happened to the order. -/
  action : Action
  /-- The side the order rests on. -/
  side : Side
  deriving DecidableEq, Repr, Inhabited

/-- The fixed block of a snapshot. -/
structure SnapshotHeader where
  /-- The security whose book this is. -/
  securityId : Int32 := 0
  /-- The last datagram of changes that the snapshot takes in. -/
  lastMsgSeqNumProcessed : UInt32 := 0
  /-- The number of the last report that the snapshot takes in. -/
  rptSeq : UInt32 := 0
  /-- The exchange's trading session. -/
  exchangeTradingSessionId : UInt32 := 0
  deriving DecidableEq, Repr, Inhabited

/-- The head of a repeating group. -/
structure GroupSize where
  /-- How many octets apart the entries are. -/
  blockSize : UInt16 := 0
  /-- How many entries follow. -/
  numInGroup : UInt8 := 0
  deriving DecidableEq, Repr, Inhabited

/-- One entry of a snapshot. -/
structure BookEntry where
  /-- The order. -/
  orderId : Int64
  /-- When the order last changed, in nanoseconds since 1970. -/
  transactTime : UInt64
  /-- Its price in raw units. -/
  orderPrice : Int64
  /-- Its volume. -/
  orderVolume : Int64
  /-- The trade it belongs to. -/
  tradeId : Int64
  /-- The first set of market data flags. -/
  flags : UInt64
  /-- The second set of market data flags. -/
  flags2 : UInt64
  /-- The side the order rests on. -/
  side : Side
  deriving DecidableEq, Repr, Inhabited

end MarketFeed
