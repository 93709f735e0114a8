import MarketFeed.SystemFault
import MarketFeed.Text.Quoted

/-!
# Why a Capture Cannot Be Read

The causes that end the reading of a capture file.

Unlike a damaged datagram, which is passed over, any of these ends the run:
past the fault there is no telling where the next record starts.

## Main definitions

* `CaptureError`: The causes.
* `CaptureError.message`: The cause as a sentence.
* `CaptureError.chain`: The sentence with what lies behind it.

## Theorems

* `head_chain`: A chain opens with the sentence of the cause itself.
-/

namespace MarketFeed

/-- Why a capture file cannot be read any further. -/
inductive CaptureError
  /-- The file cannot be opened. -/
  | unopened (path : String) (fault : SystemFault)
  /-- The file has no content. -/
  | zeroLength (path : String)
  /-- The file ends before the octets that were asked for. -/
  | shortRead (offset expected actual : Nat)
  /-- The file does not open with the mark of a capture. -/
  | badMagic (word : UInt32)
  /-- A record does not fit one read, so it can never be read whole. -/
  | recordTooLarge (offset : Nat) (capturedLength : UInt32) (chunkSize : Nat)
  /-- The file is already being read. -/
  | alreadyStarted
  /-- The reading failed in itself, at a sum that has no place. -/
  | readingFailed
  /-- The system refuses to read what was opened. -/
  | refused (fault : SystemFault)
  deriving DecidableEq, Repr

namespace CaptureError

/-- The cause as a sentence. -/
def message : CaptureError → String
  | .unopened path fault => "cannot open capture file " ++ Text.quoted path ++ ": " ++
    fault.message
  | .zeroLength path => "cannot analyze a file of size zero: " ++ Text.quoted path
  | .shortRead offset expected actual =>
    "short read at offset " ++ toString offset ++ ": expected " ++ toString expected ++
      " bytes, got " ++ toString actual
  | .badMagic word =>
    "unrecognized capture file magic number 0x" ++ Text.hexPadded 8 word.toNat
  | .recordTooLarge offset capturedLength chunkSize =>
    "record at offset " ++ toString offset ++ " declares " ++ toString capturedLength.toNat ++
      " captured bytes, which does not fit a " ++ toString chunkSize ++ "-byte read chunk"
  | .alreadyStarted => "capture buffering was already started"
  | .readingFailed => "capture producer thread panicked"
  | .refused fault => fault.message

/-- The sentence, followed by the system's own for a file that cannot be
    opened. -/
def chain (e : CaptureError) : List String :=
  match e with
  | .unopened _ fault => [e.message, fault.message]
  | _ => [e.message]

/-- The first line of an error is its own message. -/
theorem head_chain (e : CaptureError) : e.chain.head? = some e.message := by
  cases e <;> rfl

end CaptureError

end MarketFeed
