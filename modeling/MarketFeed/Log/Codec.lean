import MarketFeed.Log.Frame
import MarketFeed.Message.Layout
import MarketFeed.Text.Utf8

/-!
# Frames as Octets

How the content of a frame is written and read.

Numbers are little-endian and have their full width, a choice is a number of
four octets in front of what was chosen, and a list or a text is preceded by
its length in eight octets. The fields of a structure follow each other
without gaps. A structure that holds numbers alone is therefore written as it
stands on the wire. An action or a side is a choice here, and only an unknown
one has its code behind it, so a code that is known elsewhere stays unknown
if it was written so.

Reading takes each part off the front of the input and leaves the rest to the
next, so that reading what was written is a law about each part alone. It
fails at the first part that is not there or makes no sense.

## Main definitions

* `PayloadFault`: Why content cannot be read.
* `Parse`: Taking a value off the front of the input.
* `LogFrame.encode`, `LogFrame.parse`: Writing and reading a frame's content.
-/

namespace MarketFeed

/-- Why the content of a frame cannot be read. -/
inductive PayloadFault
  /-- The input ends inside a number. -/
  | cutNumber
  /-- The input ends inside a text. -/
  | cutText
  /-- A choice that does not exist, among this many that do. -/
  | badChoice (choice choices : Nat)
  /-- The octets of a text are not text. -/
  | badText (fault : Utf8.Fault)
  deriving DecidableEq, Repr

namespace PayloadFault

/-- The fault as a sentence. -/
def message : PayloadFault → String
  | .cutNumber => "io error: unexpected end of file"
  | .cutText => "io error: "
  | .badChoice choice choices =>
    "invalid value: integer \x60" ++ toString choice ++ "\x60, expected variant index 0 <= i < " ++
      toString choices
  | .badText fault => "string is not valid utf8: " ++ fault.message

end PayloadFault

/-- Taking a value off the front of the input. -/
abbrev Parse (α : Type) := StateT Bytes (Except PayloadFault) α

/-! ## Writing -/

namespace Log

/-- A choice in four octets. -/
def choice (n : Nat) : Bytes := Bytes.ofLE 4 n

/-- A length in eight octets. -/
def count (n : Nat) : Bytes := Bytes.ofLE 8 n

/-- A text behind its length in octets. -/
def text (s : String) : Bytes :=
  let octets := Utf8.encode s.toList
  count octets.length ++ octets

/-- A list behind its length. -/
def list {α : Type} (write : α → Bytes) (xs : List α) : Bytes :=
  count xs.length ++ xs.flatMap write

end Log

/-- The octets of an action in a log. -/
def Action.encode : Action → Bytes
  | .new => Log.choice 0
  | .update => Log.choice 1
  | .delete => Log.choice 2
  | .unknown code => Log.choice 3 ++ [code]

/-- The octets of a side in a log. -/
def Side.encode : Side → Bytes
  | .bid => Log.choice 0
  | .offer => Log.choice 1
  | .emptyBook => Log.choice 2
  | .unknown code => Log.choice 3 ++ [code]

/-- The octets of an update in a log. -/
def OrderUpdate.encode (u : OrderUpdate) : Bytes :=
  Bytes.ofI64 u.orderId ++ Bytes.ofI64 u.orderPrice ++ Bytes.ofI64 u.orderVolume ++
    Bytes.ofU64 u.flags ++ Bytes.ofU64 u.flags2 ++ Bytes.ofI32 u.securityId ++
    Bytes.ofU32 u.rptSeq ++ u.action.encode ++ u.side.encode

/-- The octets of an execution in a log. -/
def OrderExecution.encode (x : OrderExecution) : Bytes :=
  Bytes.ofI64 x.orderId ++ Bytes.ofI64 x.orderPrice ++ Bytes.ofI64 x.remainingQuantity ++
    Bytes.ofI64 x.tradePrice ++ Bytes.ofI64 x.tradeVolume ++ Bytes.ofI64 x.traderId ++
    Bytes.ofU64 x.flags ++ Bytes.ofU64 x.flags2 ++ Bytes.ofI32 x.securityId ++
    Bytes.ofU32 x.rptSeq ++ x.action.encode ++ x.side.encode

/-- The octets of a snapshot's entry in a log. -/
def BookEntry.encode (e : BookEntry) : Bytes :=
  Bytes.ofI64 e.orderId ++ Bytes.ofU64 e.transactTime ++ Bytes.ofI64 e.orderPrice ++
    Bytes.ofI64 e.orderVolume ++ Bytes.ofI64 e.tradeId ++ Bytes.ofU64 e.flags ++
    Bytes.ofU64 e.flags2 ++ e.side.encode

/-- The octets of a message in a log. -/
def LogEvent.encode : LogEvent → Bytes
  | .update u => Log.choice 0 ++ u.encode
  | .execution x => Log.choice 1 ++ x.encode
  | .snapshot header bids asks =>
    Log.choice 2 ++ header.toBlock ++ Log.list BookEntry.encode bids ++
      Log.list BookEntry.encode asks

/-- The octets of a record. -/
def LogRecord.encode (r : LogRecord) : Bytes :=
  Bytes.ofU64 r.seq ++ r.envelope.toBlock ++ r.event.encode

/-- The octets of a log's header. -/
def LogHeader.encode (h : LogHeader) : Bytes :=
  Bytes.ofU16 h.version ++ Bytes.ofLE 16 h.created.toNat ++ Log.text h.source ++
    Bytes.ofU32 h.linkType

/-- The content of a frame in octets. -/
def LogFrame.encode : LogFrame → Bytes
  | .header h => Log.choice 0 ++ h.encode
  | .record r => Log.choice 1 ++ r.encode

/-! ## Reading -/

namespace Log

/-- Take octets off the input, or fail in the given way. -/
def parseOctets (count : Nat) (fault : PayloadFault) : Parse Bytes := fun input =>
  let front := input.take count
  if front.length < count then .error fault else .ok (front, input.drop count)

/-- Take a number of this many octets. -/
def parseNumber (width : Nat) : Parse Nat := do
  return Bytes.leNat (← parseOctets width .cutNumber)

/-- Take an unsigned 8-bit word. -/
def parseU8 : Parse UInt8 := return UInt8.ofNat (← parseNumber 1)

/-- Take an unsigned 16-bit word. -/
def parseU16 : Parse UInt16 := return UInt16.ofNat (← parseNumber 2)

/-- Take an unsigned 32-bit word. -/
def parseU32 : Parse UInt32 := return UInt32.ofNat (← parseNumber 4)

/-- Take an unsigned 64-bit word. -/
def parseU64 : Parse UInt64 := return UInt64.ofNat (← parseNumber 8)

/-- Take a signed 32-bit word. -/
def parseI32 : Parse Int32 := return (← parseU32).toInt32

/-- Take a signed 64-bit word. -/
def parseI64 : Parse Int64 := return (← parseU64).toInt64

/-- Fail with a choice that does not exist. -/
def refuse {α : Type} (choice choices : Nat) : Parse α := fun _ =>
  .error (.badChoice choice choices)

/-- Take a text with its length. -/
def parseText : Parse String := do
  let length ← parseNumber 8
  let octets ← parseOctets length .cutText
  fun rest =>
    match Utf8.decode octets with
    | .ok cs => .ok (String.ofList cs, rest)
    | .error fault => .error (.badText fault)

/-- Take this many values, added to those taken before. -/
def parseMany {α : Type} (parse : Parse α) : Nat → Array α → Parse (Array α)
  | 0, found => pure found
  | count + 1, found => do parseMany parse count (found.push (← parse))

/-- Take a list with its length. -/
def parseList {α : Type} (parse : Parse α) : Parse (List α) := do
  let length ← parseNumber 8
  return (← parseMany parse length #[]).toList

end Log

open Log

/-- Take an action. -/
def Action.parse : Parse Action := do
  match ← parseNumber 4 with
  | 0 => return .new
  | 1 => return .update
  | 2 => return .delete
  | 3 => return .unknown (← parseU8)
  | other => refuse other 4

/-- Take a side. -/
def Side.parse : Parse Side := do
  match ← parseNumber 4 with
  | 0 => return .bid
  | 1 => return .offer
  | 2 => return .emptyBook
  | 3 => return .unknown (← parseU8)
  | other => refuse other 4

/-- Take an update. -/
def OrderUpdate.parse : Parse OrderUpdate := do
  return { orderId := ← parseI64
           orderPrice := ← parseI64
           orderVolume := ← parseI64
           flags := ← parseU64
           flags2 := ← parseU64
           securityId := ← parseI32
           rptSeq := ← parseU32
           action := ← Action.parse
           side := ← Side.parse }

/-- Take an execution. -/
def OrderExecution.parse : Parse OrderExecution := do
  return { orderId := ← parseI64
           orderPrice := ← parseI64
           remainingQuantity := ← parseI64
           tradePrice := ← parseI64
           tradeVolume := ← parseI64
           traderId := ← parseI64
           flags := ← parseU64
           flags2 := ← parseU64
           securityId := ← parseI32
           rptSeq := ← parseU32
           action := ← Action.parse
           side := ← Side.parse }

/-- Take a snapshot's entry. -/
def BookEntry.parse : Parse BookEntry := do
  return { orderId := ← parseI64
           transactTime := ← parseU64
           orderPrice := ← parseI64
           orderVolume := ← parseI64
           tradeId := ← parseI64
           flags := ← parseU64
           flags2 := ← parseU64
           side := ← Side.parse }

/-- Take a structure that holds numbers alone. -/
def Layout.parse {α : Type} (layout : Layout) (ofBlock : Bytes → α) : Parse α := do
  return ofBlock (← parseOctets layout.size .cutNumber)

/-- Take a snapshot's header. -/
def SnapshotHeader.parse : Parse SnapshotHeader :=
  Layout.snapshotHeader.parse SnapshotHeader.ofBlock

/-- Take an envelope. -/
def Envelope.parse : Parse Envelope := Layout.envelope.parse Envelope.ofBlock

/-- Take a message. -/
def LogEvent.parse : Parse LogEvent := do
  match ← parseNumber 4 with
  | 0 => return .update (← OrderUpdate.parse)
  | 1 => return .execution (← OrderExecution.parse)
  | 2 =>
    let header ← SnapshotHeader.parse
    let bids ← parseList BookEntry.parse
    let asks ← parseList BookEntry.parse
    return .snapshot header bids asks
  | other => refuse other 3

/-- Take a record. -/
def LogRecord.parse : Parse LogRecord := do
  return { seq := ← parseU64
           envelope := ← Envelope.parse
           event := ← LogEvent.parse }

/-- Take a log's header. -/
def LogHeader.parse : Parse LogHeader := do
  return { version := ← parseU16
           created := BitVec.ofNat 128 (← parseNumber 16)
           source := ← parseText
           linkType := ← parseU32 }

/-- Take the content of a frame. -/
def LogFrame.parse : Parse LogFrame := do
  match ← parseNumber 4 with
  | 0 => return .header (← LogHeader.parse)
  | 1 => return .record (← LogRecord.parse)
  | other => refuse other 2

end MarketFeed
