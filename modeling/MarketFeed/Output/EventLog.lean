import MarketFeed.Output.Staging
import MarketFeed.Log.Stream

/-!
# Messages as an Event Log

The listener that keeps every message for a log, and the file it ends in.

Records are numbered from zero in the order in which their messages were
heard. The header of the log is fixed when the file is begun, and everything
is written when the file takes its final name.

## Main definitions

* `EventLog`: The header and the records so far.
* `EventLog.listener`: The listener that adds a record for each message.
* `EventLog.octets`: The content of the file.
* `EventLog.create`, `EventLog.finish`, `EventLog.abandon`: The life of the
  file.

## Theorems

* `size_hear`: Each message is one record.
-/

namespace MarketFeed

/-- A log that is being kept. -/
structure EventLog where
  /-- The name of its file. -/
  name : String
  /-- Its first frame. -/
  header : LogHeader
  /-- Its records. -/
  records : Array LogRecord := #[]
  deriving DecidableEq, Repr

namespace EventLog

/-- The name of the file in the output folder. -/
def fileName : String := "events.bin"

/-- Add the record of a message. -/
def hear (e : Envelope) (m : Message) (log : EventLog) : EventLog :=
  let record : LogRecord := ⟨UInt64.ofNat log.records.size, e, .ofMessage m⟩
  { log with records := log.records.push record }

/-- The listener that adds a record for each message. -/
def listener : Listener EventLog := hear

/-- The frames of the log. -/
def frames (log : EventLog) : List LogFrame :=
  .header log.header :: log.records.toList.map .record

/-- The content of the log's file. -/
def octets (log : EventLog) : Bytes := log.frames.flatMap LogFrame.octets

/-- Begin the file of a log. -/
def create (path name source : String) (linkType : UInt32) (created : Nat) : Storing EventLog :=
  (Folder.stage path name).andThen fun _ =>
    .done
      { name
        header :=
          { version := LogHeader.currentVersion
            created := BitVec.ofNat 128 created
            source
            linkType } }

/-- Write all frames, and let the file take its final name. Gives the number
    of records. -/
def finish (path : String) (log : EventLog) : Storing Nat := fun f =>
  ((Folder.commit path log.name).andThen fun _ => .done log.records.size)
    (f.fill log.name log.octets)

/-- Give up the file. -/
def abandon (log : EventLog) (f : Folder) : Folder := f.discard log.name

/-- Every message makes one record. -/
theorem size_hear (e : Envelope) (m : Message) (log : EventLog) :
    (log.hear e m).records.size = log.records.size + 1 := by
  simp [hear]

end EventLog

end MarketFeed
