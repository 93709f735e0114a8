import MarketFeed.Bytes
import MarketFeed.Capture.Error

/-!
# The Format of a Capture File

A header of 24 octets, and then records until the end of the file.

The first four octets are a mark. It tells in which order the octets of every
later number stand, and whether the fraction in a record's time counts
microseconds or nanoseconds. A file written on a machine of the other order
has the same mark back to front, so four marks are valid and no other is.

A record is a header of 16 octets and the octets that were captured of a
packet, which may be fewer than the packet had.

Both directions are defined. The writer takes the order and the resolution as
choices, so that two files can be compared that differ in nothing else.

## Main definitions

* `CaptureHeader`, `CaptureHeader.parse`, `CaptureHeader.octets`: The header
  of the file, read and written.
* `RecordHeader`, `Record`: The header of a record, and the whole record.
* `Record.split?`: The complete record at the front of the input.
* `Record.gather`: All complete records at the front of the input.

## Theorems

* `Record.length_of_split?`: A record takes its header and its data off the
  input.
* `length_octets` of both headers: Their sizes.
-/

namespace MarketFeed

/-- What the fraction in a record's time counts. -/
inductive Resolution
  /-- Microseconds. -/
  | micros
  /-- Nanoseconds. -/
  | nanos
  deriving DecidableEq, Repr

namespace Resolution

/-- The mark of a file with this resolution. -/
def magic : Resolution → UInt32
  | .micros => 0xa1b2c3d4
  | .nanos => 0xa1b23c4d

/-- How many nanoseconds one unit of the fraction is. -/
def nanosPerUnit : Resolution → UInt64
  | .micros => 1000
  | .nanos => 1

end Resolution

/-- The header of a capture file. -/
structure CaptureHeader where
  /-- The mark, as the file's own order reads it. -/
  magicNumber : UInt32
  /-- The first part of the format's version. -/
  versionMajor : UInt16
  /-- The second part of the format's version. -/
  versionMinor : UInt16
  /-- The offset of the clock from universal time in seconds. -/
  thisZone : Int32
  /-- The accuracy of the times. -/
  sigFigs : UInt32
  /-- The most octets captured of any packet. -/
  snapLength : UInt32
  /-- The kind of link the packets come from. -/
  linkType : UInt32
  /-- The order of the octets in every number. -/
  byteOrder : ByteOrder
  /-- What the fraction of a time counts. -/
  resolution : Resolution
  deriving DecidableEq, Repr

namespace CaptureHeader

/-- The length of the header. -/
def length : Nat := 24

/-- The order and the resolution that the first four octets stand for. -/
def format? (raw : Bytes) : Option (ByteOrder × Resolution) :=
  let first := raw.u32At 0
  let swapped := ByteOrder.big.u32At raw 0
  if first = Resolution.micros.magic then some (.little, .micros)
  else if first = Resolution.nanos.magic then some (.little, .nanos)
  else if swapped = Resolution.micros.magic then some (.big, .micros)
  else if swapped = Resolution.nanos.magic then some (.big, .nanos)
  else none

/-- The header in the first 24 octets of a file. -/
def parse (raw : Bytes) : Except CaptureError CaptureHeader :=
  match format? raw with
  | none => .error (.badMagic (raw.u32At 0))
  | some (order, resolution) =>
    .ok { magicNumber := order.u32At raw 0
          versionMajor := order.u16At raw 4
          versionMinor := order.u16At raw 6
          thisZone := (order.u32At raw 8).toInt32
          sigFigs := order.u32At raw 12
          snapLength := order.u32At raw 16
          linkType := order.u32At raw 20
          byteOrder := order
          resolution }

/-- The 24 octets of a header. The mark follows from the resolution. -/
def octets (h : CaptureHeader) : Bytes :=
  let order := h.byteOrder
  order.octets 4 h.resolution.magic.toNat ++ order.octets 2 h.versionMajor.toNat ++
    order.octets 2 h.versionMinor.toNat ++ order.octets 4 h.thisZone.toUInt32.toNat ++
    order.octets 4 h.sigFigs.toNat ++ order.octets 4 h.snapLength.toNat ++
    order.octets 4 h.linkType.toNat

theorem length_octets (h : CaptureHeader) : h.octets.length = length := by
  simp [octets, length]

end CaptureHeader

/-- The header of a record. -/
structure RecordHeader where
  /-- When the packet was captured, in seconds since 1970. -/
  seconds : UInt32
  /-- The fraction of the second, in units of the file's resolution. -/
  fraction : UInt32
  /-- How many octets were captured. -/
  capturedLength : UInt32
  /-- How many octets the packet had. -/
  originalLength : UInt32
  deriving DecidableEq, Repr

namespace RecordHeader

/-- The length of a record's header. -/
def length : Nat := 16

/-- The header at the front of the input, if it is there whole. -/
def read? (order : ByteOrder) (input : Bytes) : Option RecordHeader :=
  (input.window? 0 length).map fun raw =>
    { seconds := order.u32At raw 0
      fraction := order.u32At raw 4
      capturedLength := order.u32At raw 8
      originalLength := order.u32At raw 12 }

/-- The 16 octets of a header. -/
def octets (order : ByteOrder) (h : RecordHeader) : Bytes :=
  order.octets 4 h.seconds.toNat ++ order.octets 4 h.fraction.toNat ++
    order.octets 4 h.capturedLength.toNat ++ order.octets 4 h.originalLength.toNat

/-- When the packet was captured, in nanoseconds since 1970. -/
def timestamp (resolution : Resolution) (h : RecordHeader) : UInt64 :=
  h.seconds.toUInt64 * 1000000000 + h.fraction.toUInt64 * resolution.nanosPerUnit

theorem length_octets (order : ByteOrder) (h : RecordHeader) :
    (h.octets order).length = length := by
  simp [octets, length]

end RecordHeader

/-- A record of a capture file. -/
structure Record where
  /-- Its header. -/
  header : RecordHeader
  /-- The octets that were captured. -/
  data : Bytes
  deriving DecidableEq, Repr

namespace Record

/-- How many octets the record takes in the file. -/
def size (r : Record) : Nat := RecordHeader.length + r.data.length

/-- The octets of a record. -/
def octets (order : ByteOrder) (r : Record) : Bytes := r.header.octets order ++ r.data

/-- The complete record at the front of the input, and what follows it. -/
def split? (order : ByteOrder) (input : Bytes) : Option (Record × Bytes) :=
  match RecordHeader.read? order input with
  | none => none
  | some header =>
    let body := input.drop RecordHeader.length
    let wanted := header.capturedLength.toNat
    let data := body.take wanted
    if data.length = wanted then some (⟨header, data⟩, body.drop wanted) else none

/-- A record and what follows it are all of the input. -/
theorem length_of_split? {order : ByteOrder} {input rest : Bytes} {record : Record}
    (h : split? order input = some (record, rest)) :
    record.size + rest.length = input.length := by
  unfold split? at h
  cases hr : RecordHeader.read? order input with
  | none => simp [hr] at h
  | some header =>
    -- The header was there, so the input has at least its octets.
    have hlen : RecordHeader.length ≤ input.length := by
      unfold RecordHeader.read? at hr
      cases hw : input.window? 0 RecordHeader.length with
      | none => simp [hw] at hr
      | some raw =>
        have := (Bytes.window?_eq_some_iff.mp hw).1
        omega
    simp only [hr] at h
    split at h
    · next hd =>
      cases h
      simp only [List.length_take, List.length_drop] at hd
      simp only [size, List.length_take, List.length_drop]
      omega
    · cases h

/-- The complete records at the front of the input, added to those found
    before, and what is left of the input. -/
def gather (order : ByteOrder) (input : Bytes) (found : Array Record) : Array Record × Bytes :=
  match h : split? order input with
  | none => (found, input)
  | some (record, rest) =>
    have : rest.length < input.length := by
      have hsize := length_of_split? h
      simp only [size, RecordHeader.length] at hsize
      omega
    gather order rest (found.push record)
termination_by input.length

end Record

end MarketFeed
