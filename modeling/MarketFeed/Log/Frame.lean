import MarketFeed.Message

/-!
# What an Event Log Holds

The frames of an event log: one header, and then one record for each message.

A record numbers its message, keeps the envelope the message came in, and
holds the message itself. A snapshot is held as two plain lists, the best
price first in each, because a log is read by programs that have no use for
the ladders. Putting the entries of both lists into a fresh snapshot gives
the ladders back.

## Main definitions

* `LogHeader`, `LogRecord`, `LogFrame`: The frames.
* `LogEvent`: A message as a log holds it.
* `LogEvent.ofMessage`, `LogEvent.toMessage`: From a message, and back.
-/

namespace MarketFeed

/-- The version of the format that is written. -/
def LogHeader.currentVersion : UInt16 := 1

/-- The first frame of a log. -/
structure LogHeader where
  /-- The version of the format. -/
  version : UInt16
  /-- When the log was made, in nanoseconds since 1970. -/
  created : BitVec 128
  /-- The capture that the events were decoded from. -/
  source : String
  /-- The kind of link of that capture. -/
  linkType : UInt32
  deriving DecidableEq, Repr

/-- A message as a log holds it. -/
inductive LogEvent
  /-- A change to a resting order. -/
  | update (update : OrderUpdate)
  /-- A trade against a resting order. -/
  | execution (execution : OrderExecution)
  /-- The state of a book, the best price first on both sides. -/
  | snapshot (header : SnapshotHeader) (bids asks : List BookEntry)
  deriving DecidableEq, Repr

namespace LogEvent

/-- A message as a log holds it. -/
def ofMessage : Message → LogEvent
  | .update u => .update u
  | .execution x => .execution x
  | .snapshot s => .snapshot s.header s.bidEntries s.askEntries

/-- The message that a log holds. The entries of a snapshot are put into
    place one by one, the bids first. -/
def toMessage : LogEvent → Message
  | .update u => .update u
  | .execution x => .execution x
  | .snapshot header bids asks => .snapshot (Snapshot.ofEntries header (bids ++ asks))

/-- The security that the message is for. -/
def securityId : LogEvent → Int32
  | .update u => u.securityId
  | .execution x => x.securityId
  | .snapshot header _ _ => header.securityId

end LogEvent

/-- One message in a log. -/
structure LogRecord where
  /-- The message's place in the log, from 0 on. -/
  seq : UInt64
  /-- The envelope the message came in. -/
  envelope : Envelope
  /-- The message. -/
  event : LogEvent
  deriving DecidableEq, Repr

/-- A frame of a log. -/
inductive LogFrame
  /-- The header of the log. -/
  | header (header : LogHeader)
  /-- One message. -/
  | record (record : LogRecord)
  deriving DecidableEq, Repr

end MarketFeed
