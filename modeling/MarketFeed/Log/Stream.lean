import MarketFeed.Log.Codec
import MarketFeed.Log.Checksum
import MarketFeed.Text

/-!
# A Log as a Stream of Frames

Frames one after the other, each behind its length and its checksum.

A frame is the length of its content in four octets, the checksum of the
content in four, and the content. Reading takes one frame off the front. Its
checks come in the order in which the octets do: a length that cannot be is
refused before the checksum is looked at, the checksum is compared before the
content is interpreted. What the content has beyond its frame is passed over.

Input of fewer octets than a length word is the end of the log.

## Main definitions

* `LogFrame.octets`: A frame as it stands in a log.
* `LogError`: Why a frame cannot be read.
* `LogFrame.read?`: Take one frame off a log.
* `Log.readAll`: Take all frames off a log, up to the first error.

## Theorems

* `length_octets`: A frame takes eight octets beside its content.
* `length_of_read?`: A frame takes at least eight octets off the log.
-/

namespace MarketFeed

/-- The most octets a frame's content may have. -/
def LogFrame.maxLength : Nat := 64 * 1024 * 1024

/-- Why a frame cannot be read. -/
inductive LogError
  /-- The content would be longer than content may be. -/
  | tooLong (length : Nat)
  /-- The log ends inside the checksum. -/
  | cutHeader
  /-- The log ends inside the content. -/
  | cutPayload
  /-- The content is not what its checksum was made from. -/
  | checksumMismatch (stored computed : UInt32)
  /-- The content makes no sense. -/
  | payload (fault : PayloadFault)
  deriving DecidableEq, Repr

namespace LogError

/-- What the system says of input that ends too early. -/
def unfilled : String := "failed to fill whole buffer"

/-- The error, followed by what lies behind it. -/
def chain : LogError → List String
  | .tooLong length =>
    ["frame length " ++ toString length ++ " exceeds " ++ toString LogFrame.maxLength]
  | .cutHeader => ["truncated frame header", unfilled]
  | .cutPayload => ["truncated frame payload", unfilled]
  | .checksumMismatch stored computed =>
    ["CRC mismatch: file=0x" ++ Text.hex stored.toNat ++ ", calc=0x" ++
      Text.hex computed.toNat]
  | .payload fault => ["bincode decode", fault.message]

/-- The error in one sentence. -/
def message (e : LogError) : String := ": ".intercalate e.chain

end LogError

namespace LogFrame

/-- A frame as it stands in a log. -/
def octets (f : LogFrame) : Bytes :=
  let payload := f.encode
  Bytes.ofLE 4 payload.length ++ Bytes.ofU32 (Checksum.ofBytes payload) ++ payload

/-- Take the frame off the front of a log. There is none if not even a length
    word is left. -/
def read? (input : Bytes) : Except LogError (Option (LogFrame × Bytes)) :=
  match input.window? 0 4 with
  | none => .ok none
  | some word =>
    let length := Bytes.leNat word
    if maxLength < length then .error (.tooLong length)
    else
      match input.window? 4 4 with
      | none => .error .cutHeader
      | some stored =>
        match input.window? 8 length with
        | none => .error .cutPayload
        | some payload =>
          let computed := Checksum.ofBytes payload
          let stored := stored.u32At 0
          if computed ≠ stored then .error (.checksumMismatch stored computed)
          else
            match LogFrame.parse payload with
            | .error fault => .error (.payload fault)
            | .ok (frame, _) => .ok (some (frame, input.drop (8 + length)))

/-- A frame takes its length word, its checksum and its content. -/
theorem length_octets (f : LogFrame) : f.octets.length = 8 + f.encode.length := by
  simp only [octets, Bytes.ofU32, List.length_append, Bytes.length_ofLE]

/-- Reading a frame takes at least the two words in front of it. -/
theorem length_of_read? {input rest : Bytes} {frame : LogFrame}
    (h : read? input = .ok (some (frame, rest))) : rest.length + 8 ≤ input.length := by
  unfold read? at h
  split at h
  · cases h
  · dsimp only at h
    split at h
    · cases h
    · split at h
      · cases h
      · next hw =>
        have hlen := (Bytes.window?_eq_some_iff.mp hw).1
        split at h
        · cases h
        · split at h
          · cases h
          · split at h
            · cases h
            · cases h
              -- The two words in front of the content are eight octets.
              rw [List.length_drop]
              omega

end LogFrame

namespace Log

/-- Take all frames off a log. The error is the one that ended the reading,
    if one did. -/
def readFrom (input : Bytes) (found : Array LogFrame) : Array LogFrame × Option LogError :=
  match h : LogFrame.read? input with
  | .error e => (found, some e)
  | .ok none => (found, none)
  | .ok (some (frame, rest)) =>
    have : rest.length < input.length := by
      have := LogFrame.length_of_read? h
      omega
    readFrom rest (found.push frame)
termination_by input.length

/-- The frames of a log, and the error that ended the reading, if one did. -/
def readAll (input : Bytes) : List LogFrame × Option LogError :=
  let (found, error) := readFrom input #[]
  (found.toList, error)

end Log

end MarketFeed
