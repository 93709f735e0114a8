import Mathlib.Data.List.Basic
import MarketFeed.Capture.Producer

/-!
# Packets Side by Side

What comes out of a batch is what was put in.

The packets of a batch share one arena and are told apart by stored ranges.
Putting another packet in makes the arena longer and leaves the ranges alone,
so a packet that is already there reads as before, provided that its range
lies within the arena as it was. That is all a batch has to keep, and
`Within` says it.

## Main definitions

* `Batch.Within`: No range runs past the arena.
* `Batch.Item`, `Batch.pushAll`: Packets as they are put in, one after the other.
* `Record.packet`: The packet that a record stands for.

## Theorems

* `packets_push`: A packet put in is behind those that were there.
* `packets_pushAll`: So are several, in their order.
* `packets_ofRecords`: The batch of some records has their packets, numbered
  from its first.
-/

namespace MarketFeed

/-- The packet that a record stands for, with its place in the file. -/
def Record.packet (resolution : Resolution) (number : Nat) (r : Record) : CapturedPacket where
  number := UInt64.ofNat number
  timestamp := r.header.timestamp resolution
  originalLength := r.header.originalLength
  data := r.data

namespace Batch

/-- No slot runs past the end of the arena. -/
def Within (b : Batch) : Prop :=
  ∀ (i : Nat) (slot : Slot), b.slots[i]? = some slot → slot.stop ≤ b.arena.size

variable {b : Batch} {timestamp : UInt64} {originalLength : UInt32} {data : Bytes}

theorem within_empty (first : UInt64) : Within { first } := by
  intro i slot h
  simp only [List.getElem?_toArray, List.getElem?_nil, reduceCtorEq] at h

theorem size_arena_push :
    (b.push timestamp originalLength data).arena.size = b.arena.size + data.length := by
  simp only [push, Array.size_append, List.size_toArray]

/-- The slot of the new packet is the last, and its range is what the arena has
    grown by. -/
theorem slots_push (i : Nat) :
    (b.push timestamp originalLength data).slots[i]?
      = if i = b.size then
          some ⟨timestamp, originalLength, b.arena.size, b.arena.size + data.length⟩
        else b.slots[i]? := by
  rw [size]
  simp only [push, Array.getElem?_push, Array.size_append, List.size_toArray]

/-- The ranges stay within the arena when it grows. -/
theorem Within.push (h : b.Within) : (b.push timestamp originalLength data).Within := by
  intro i slot hslot
  rw [slots_push] at hslot
  rw [size_arena_push]
  -- The new slot ends where the arena ends, and the old ones end before.
  split at hslot
  · cases hslot
    exact Nat.le_refl _
  · exact Nat.le_trans (h i slot hslot) (Nat.le_add_right _ _)

/-! ## What is there stays, what comes is last -/

/-- A packet comes out as before when another has been put in behind it. -/
theorem get?_push_of_lt (h : b.Within) {i : Nat} (hi : i < b.size) :
    (b.push timestamp originalLength data).get? i = b.get? i := by
  rw [get?, get?, slots_push, if_neg (Nat.ne_of_lt hi)]
  cases hslot : b.slots[i]? with
  | none => rfl
  | some slot =>
      have hstop := h i slot hslot
      -- The range ends before the new octets begin.
      have harena : (b.arena ++ data.toArray).extract slot.start slot.stop
          = b.arena.extract slot.start slot.stop := by
        rw [Array.extract_append, Nat.sub_eq_zero_of_le hstop,
          Array.extract_empty_of_stop_le_start (Nat.zero_le _), Array.append_empty]
      simp only [Option.map_some, packetAt, Batch.push, harena]

/-- The packet that was put in last comes out as it was put in. -/
theorem get?_push_self :
    (b.push timestamp originalLength data).get? b.size
      = some ⟨b.first + UInt64.ofNat b.size, timestamp, originalLength, data⟩ := by
  have harena : (b.arena ++ data.toArray).extract b.arena.size (b.arena.size + data.length)
      = data.toArray := by
    rw [← List.size_toArray, Array.extract_append_right, Array.extract_size]
  rw [get?, slots_push, if_pos rfl]
  simp only [Option.map_some, packetAt, Batch.push, harena]

theorem packets_push (h : b.Within) :
    (b.push timestamp originalLength data).packets
      = b.packets ++ [⟨b.first + UInt64.ofNat b.size, timestamp, originalLength, data⟩] := by
  have hold : (List.range b.size).filterMap (b.push timestamp originalLength data).get?
      = (List.range b.size).filterMap b.get? := by
    refine List.filterMap_congr fun i hi => ?_
    exact get?_push_of_lt h (List.mem_range.mp hi)
  -- The places are those of before and the one behind them.
  rw [packets, packets, size_push, List.range_succ, List.filterMap_append, hold]
  simp only [List.filterMap_cons, List.filterMap_nil, get?_push_self]

/-! ## Packets put in one after the other -/

/-- A packet as it is put into a batch. -/
structure Item where
  /-- When it was captured, in nanoseconds since 1970. -/
  timestamp : UInt64
  /-- How many octets the packet had. -/
  originalLength : UInt32
  /-- The octets that were captured. -/
  data : Bytes
  deriving DecidableEq, Repr

/-- The packet that comes out for what was put in. -/
def Item.packet (number : UInt64) (item : Item) : CapturedPacket where
  number
  timestamp := item.timestamp
  originalLength := item.originalLength
  data := item.data

/-- Put packets behind the others, one after the other. -/
def pushAll (b : Batch) (items : List Item) : Batch :=
  items.foldl (fun b item => b.push item.timestamp item.originalLength item.data) b

theorem pushAll_append (b : Batch) (front back : List Item) :
    b.pushAll (front ++ back) = (b.pushAll front).pushAll back :=
  List.foldl_append

theorem Within.pushAll (h : b.Within) (items : List Item) : (b.pushAll items).Within := by
  induction items generalizing b with
  | nil => exact h
  | cons item rest ih => exact ih h.push

theorem first_pushAll (b : Batch) (items : List Item) : (b.pushAll items).first = b.first := by
  induction items generalizing b with
  | nil => rfl
  | cons item rest ih => exact ih _

theorem size_pushAll (b : Batch) (items : List Item) :
    (b.pushAll items).size = b.size + items.length := by
  induction items generalizing b with
  | nil => rfl
  | cons item rest ih =>
      rw [List.length_cons, ← Nat.add_assoc, Nat.add_right_comm, ← size_push]
      exact ih _

/-- Packets come out behind those there were, numbered on from them. -/
theorem packets_pushAll (h : b.Within) (items : List Item) :
    (b.pushAll items).packets
      = b.packets ++ items.mapIdx fun i item =>
          item.packet (b.first + UInt64.ofNat (b.size + i)) := by
  induction items generalizing b with
  | nil => rw [List.mapIdx_nil, List.append_nil, pushAll, List.foldl_nil]
  | cons item rest ih =>
      -- The places of the others are counted from the batch that has this one.
      have hrest := ih (b := b.push item.timestamp item.originalLength item.data) h.push
      rw [packets_push h, size_push, List.append_assoc] at hrest
      rw [List.mapIdx_cons, Nat.add_zero]
      simp only [Nat.add_assoc, Nat.add_comm 1] at hrest ⊢
      exact hrest

/-! ## The batch of some records -/

/-- What is put in for a record. -/
def Item.ofRecord (resolution : Resolution) (r : Record) : Item where
  timestamp := r.header.timestamp resolution
  originalLength := r.header.originalLength
  data := r.data

/-- The batch of records is their packets, put in one after the other. -/
theorem ofRecords_eq_pushAll (resolution : Resolution) (first : UInt64) (records : List Record) :
    ofRecords resolution first records.toArray
      = pushAll { first } (records.map (Item.ofRecord resolution)) := by
  rw [ofRecords, List.foldl_toArray', pushAll, List.foldl_map]
  · rfl
  · rfl

/-- The packets of a batch are those of its records, numbered from its first. -/
theorem packets_ofRecords (resolution : Resolution) (number : Nat) (records : List Record) :
    (ofRecords resolution (UInt64.ofNat number) records.toArray).packets
      = records.mapIdx fun i r => r.packet resolution (number + i) := by
  rw [ofRecords_eq_pushAll, packets_pushAll (within_empty _)]
  have hempty : packets { first := UInt64.ofNat number } = [] := rfl
  have hsize : size { first := UInt64.ofNat number } = 0 := rfl
  rw [hempty, hsize, List.nil_append]
  refine List.mapIdx_eq_iff.mpr fun i => ?_
  rw [List.getElem?_mapIdx, List.getElem?_map, Option.map_map, Nat.zero_add]
  simp only [Record.packet, UInt64.ofNat_add]
  rfl

end Batch

end MarketFeed
