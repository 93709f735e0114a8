import MarketFeed.Bytes

/-!
# Batches of Packets

The packets of one read, side by side in one stretch of octets.

A batch does not keep its packets apart. Their octets stand one after the
other in an arena, and a slot for each packet says where its own begin and
end. Putting a packet in appends to both, so what was put in before is never
moved, and a packet without octets has a slot that begins where it ends.

Packets are numbered through the whole file. A batch knows the number of its
first.

## Main definitions

* `Batch`: The arena and the slots.
* `Batch.push`: Put a packet in.
* `Batch.get?`, `Batch.packets`: The packets again.

## Theorems

* `size_push`: Each packet put in is one packet more.
* `byteLength_push`: The arena grows by the packet's octets.
-/

namespace MarketFeed

/-- Where a packet's octets stand in the arena, and what is known of it. -/
structure Slot where
  /-- When it was captured, in nanoseconds since 1970. -/
  timestamp : UInt64
  /-- How many octets the packet had. -/
  originalLength : UInt32
  /-- Where its octets begin. -/
  start : Nat
  /-- Where the next packet's octets begin. -/
  stop : Nat
  deriving DecidableEq, Repr

/-- A packet taken out of its batch. -/
structure CapturedPacket where
  /-- Its place in the capture file, from 1 on. -/
  number : UInt64
  /-- When it was captured, in nanoseconds since 1970. -/
  timestamp : UInt64
  /-- How many octets the packet had. -/
  originalLength : UInt32
  /-- The octets that were captured. -/
  data : Bytes
  deriving DecidableEq, Repr

/-- The packets of one read. -/
structure Batch where
  /-- The number of the first packet. -/
  first : UInt64
  /-- The octets of all packets. -/
  arena : Array UInt8 := #[]
  /-- One slot for each packet. -/
  slots : Array Slot := #[]
  deriving DecidableEq, Repr

namespace Batch

/-- Put a packet behind the others. -/
def push (b : Batch) (timestamp : UInt64) (originalLength : UInt32) (data : Bytes) : Batch :=
  let arena := b.arena ++ data.toArray
  let slot : Slot := ⟨timestamp, originalLength, b.arena.size, arena.size⟩
  { b with arena, slots := b.slots.push slot }

/-- How many packets there are. -/
def size (b : Batch) : Nat := b.slots.size

/-- Whether there are none. -/
def isEmpty (b : Batch) : Bool := b.slots.isEmpty

/-- How many octets the packets have together. -/
def byteLength (b : Batch) : Nat := b.arena.size

/-- The packet of a slot, with the number of its place. -/
def packetAt (b : Batch) (index : Nat) (slot : Slot) : CapturedPacket where
  number := b.first + UInt64.ofNat index
  timestamp := slot.timestamp
  originalLength := slot.originalLength
  data := (b.arena.extract slot.start slot.stop).toList

/-- The packet at a place, if there is one. -/
def get? (b : Batch) (index : Nat) : Option CapturedPacket :=
  b.slots[index]?.map (b.packetAt index)

/-- Whether there is a number for each packet. Asking for a packet behind the
    last number fails, so a batch that is not numbered cannot be taken out. -/
def isNumbered (b : Batch) : Bool := b.first.toNat + b.size ≤ UInt64.size

/-- The packets in order. -/
def packets (b : Batch) : List CapturedPacket := (List.range b.size).filterMap b.get?

theorem size_push (b : Batch) (timestamp : UInt64) (originalLength : UInt32) (data : Bytes) :
    (b.push timestamp originalLength data).size = b.size + 1 := by
  simp [push, size]

/-- The octets of a packet go behind those of the others. -/
theorem byteLength_push (b : Batch) (timestamp : UInt64) (originalLength : UInt32)
    (data : Bytes) :
    (b.push timestamp originalLength data).byteLength = b.byteLength + data.length := by
  simp [push, byteLength]

end Batch

end MarketFeed
