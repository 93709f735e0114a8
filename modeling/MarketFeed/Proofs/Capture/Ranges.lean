import MarketFeed.Proofs.Capture.Arena
import Mathlib.Algebra.Ring.Nat
import Mathlib.Order.Monotone.Basic

/-!
# Ranges End to End

Where the packets of a batch lie in the arena that they share.

The range of a packet begins where the arena ended when the packet was put in,
so the packets in front of it say where that is: its begin is the sum of their
lengths, and its end the sum with its own. All that is said of the ranges is
said of these sums. They go up, so no two ranges overlap and each begins where
the one before it ends; and an octet lies between two sums that follow one
another, so no octet of the arena is left over. A packet without octets has the
same sum twice. Its range holds nothing, and the ranges on both sides of it meet
there.

What comes out for a packet is settled when it has just been put in, as the last
of its batch. Everything that is put in later leaves it alone.

## Main definitions

* `Batch.holding`: The batch that has had some packets put in.
* `Batch.edge`: The octets of the packets in front of a place.
* `Batch.Tiled`: The ranges divide the arena.
* `Batch.Keeps`: A batch tells of each of its packets.

## Theorems

* `slots_holding`: The range of each packet lies between two edges.
* `get?_holding`: What comes out is what was put in, with its number.
* `tiled_holding`: The ranges divide the arena, whatever was put in.
* `boundaries_kept`: All of it, also after more was put in.
-/

namespace MarketFeed

namespace Batch

variable {b : Batch} {items : List Item} {item : Item} {i j : Nat}

/-- The batch that has had these packets put in, the first of which has this
    number. -/
def holding (first : UInt64) (items : List Item) : Batch := pushAll { first } items

/-- How many octets the packets in front of a place have. -/
def edge (items : List Item) (place : Nat) : Nat :=
  ((items.take place).map (·.data.length)).sum

/-- The ranges divide the arena: they lie end to end from its begin to its end,
    none overlaps another, and every octet lies in one. -/
structure Tiled (b : Batch) : Prop where
  /-- The first range begins with the arena. -/
  opens : ∀ slot, b.slots[0]? = some slot → slot.start = 0
  /-- A range begins where the one before it ends. -/
  meets : ∀ (i : Nat) (slot next : Slot), b.slots[i]? = some slot → b.slots[i + 1]? = some next →
    next.start = slot.stop
  /-- The last range ends with the arena. -/
  closes : ∀ (i : Nat) (slot : Slot), b.slots[i]? = some slot → i + 1 = b.size →
    slot.stop = b.arena.size
  /-- A range does not end before it begins, and not behind the arena. -/
  ordered : ∀ (i : Nat) (slot : Slot), b.slots[i]? = some slot →
    slot.start ≤ slot.stop ∧ slot.stop ≤ b.arena.size
  /-- Of two ranges the earlier ends before the later begins. -/
  apart : ∀ (i j : Nat) (slot other : Slot), i < j → b.slots[i]? = some slot →
    b.slots[j]? = some other → slot.stop ≤ other.start
  /-- Every octet of the arena lies in a range. -/
  covered : ∀ position < b.arena.size, ∃ (i : Nat) (slot : Slot), b.slots[i]? = some slot ∧
    slot.start ≤ position ∧ position < slot.stop

/-- A batch tells of each packet that was put in, and of nothing else. -/
structure Keeps (b : Batch) (first : UInt64) (items : List Item) : Prop where
  /-- There are as many packets as were put in. -/
  size : b.size = items.length
  /-- The ranges divide the arena. -/
  tiled : b.Tiled
  /-- A packet comes out with its number and with all that was put in. -/
  packet : ∀ (i : Nat) (item : Item), items[i]? = some item →
    ∃ packet, b.get? i = some packet ∧ packet.number.toNat = first.toNat + i ∧
      packet.timestamp = item.timestamp ∧ packet.originalLength = item.originalLength ∧
      packet.data = item.data
  /-- There is no packet behind the last. -/
  nothing : ∀ i, b.size ≤ i → b.get? i = none
  /-- The list of the packets has each at its place. -/
  packets : ∀ i, b.packets[i]? = b.get? i
  /-- The arena has the octets of all packets. -/
  byteLength : b.byteLength = (items.map (·.data.length)).sum

/-! ## Edges -/

theorem edge_zero (items : List Item) : edge items 0 = 0 := rfl

/-- The last edge is where the octets of all packets end. -/
theorem edge_length (items : List Item) :
    edge items items.length = (items.map (·.data.length)).sum := by
  rw [edge, List.take_length]

/-- From one edge to the next it is the length of the packet between them. -/
theorem edge_succ (h : items[i]? = some item) :
    edge items (i + 1) = edge items i + item.data.length := by
  rw [edge, List.take_add_one, h, Option.toList_some, List.map_append, List.sum_append,
    List.map_singleton, List.sum_singleton, edge]

theorem edge_le_succ (items : List Item) (i : Nat) : edge items i ≤ edge items (i + 1) := by
  cases h : items[i]? with
  | none =>
      have hlength := List.getElem?_eq_none_iff.mp h
      rw [edge, edge, List.take_of_length_le hlength, List.take_of_length_le (by omega)]
  | some item => rw [edge_succ h]; exact Nat.le_add_right _ _

/-- Later packets have later edges. -/
theorem edge_mono (items : List Item) (h : i ≤ j) : edge items i ≤ edge items j :=
  monotone_nat_of_le_succ (edge_le_succ items) h

/-- An octet in front of an edge lies between two edges that follow one
    another. -/
theorem exists_between {position place : Nat} (h : position < edge items place) :
    ∃ i < place, edge items i ≤ position ∧ position < edge items (i + 1) := by
  induction place with
  | zero => exact absurd h (Nat.not_lt_zero _)
  | succ place ih =>
      by_cases hbefore : position < edge items place
      · rcases ih hbefore with ⟨i, hi, hbetween⟩
        exact ⟨i, by omega, hbetween⟩
      · exact ⟨place, Nat.lt_succ_self _, by omega, h⟩

/-! ## What is put in later -/

theorem slots_pushAll_of_lt (items : List Item) (hi : i < b.size) :
    (b.pushAll items).slots[i]? = b.slots[i]? := by
  induction items generalizing b with
  | nil => rfl
  | cons item rest ih =>
      have hrest := ih (b := b.push item.timestamp item.originalLength item.data)
        (by rw [size_push]; omega)
      rw [slots_push, if_neg (Nat.ne_of_lt hi)] at hrest
      exact hrest

/-- A packet comes out as before, however many are put in behind it. -/
theorem get?_pushAll_of_lt (h : b.Within) (items : List Item) (hi : i < b.size) :
    (b.pushAll items).get? i = b.get? i := by
  induction items generalizing b with
  | nil => rfl
  | cons item rest ih =>
      have hrest := ih (b := b.push item.timestamp item.originalLength item.data) h.push
        (by rw [size_push]; omega)
      rw [get?_push_of_lt h hi] at hrest
      exact hrest

/-- The arena grows by the octets of all packets. -/
theorem byteLength_pushAll (b : Batch) (items : List Item) :
    (b.pushAll items).byteLength = b.byteLength + (items.map (·.data.length)).sum := by
  induction items generalizing b with
  | nil => rfl
  | cons item rest ih =>
      rw [List.map_cons, List.sum_cons, ← Nat.add_assoc, ← byteLength_push]
      exact ih _

/-! ## What a batch holds -/

theorem size_holding (first : UInt64) (items : List Item) :
    (holding first items).size = items.length := by
  rw [holding, size_pushAll]
  exact Nat.zero_add _

theorem byteLength_holding (first : UInt64) (items : List Item) :
    (holding first items).byteLength = edge items items.length := by
  rw [holding, byteLength_pushAll, edge_length]
  exact Nat.zero_add _

theorem within_holding (first : UInt64) (items : List Item) : (holding first items).Within :=
  (within_empty first).pushAll items

/-- The batch as it was before a packet of it was put in, then this packet, and
    then all the others. -/
theorem holding_eq_pushAll (first : UInt64) (h : items[i]? = some item) :
    holding first items
      = ((holding first (items.take i)).push item.timestamp item.originalLength
          item.data).pushAll (items.drop (i + 1)) := by
  obtain ⟨hi, rfl⟩ := List.getElem?_eq_some_iff.mp h
  have hsplit : items = items.take i ++ items[i] :: items.drop (i + 1) := by
    rw [← List.drop_eq_getElem_cons hi, List.take_append_drop]
  conv_lhs => rw [hsplit, holding, pushAll_append]
  rfl

theorem length_take_of_getElem? (h : items[i]? = some item) : (items.take i).length = i := by
  have hi := (List.getElem?_eq_some_iff.mp h).1
  rw [List.length_take]
  omega

/-- The range of a packet is what lies between its two edges. -/
theorem slots_holding (first : UInt64) (items : List Item) (i : Nat) :
    (holding first items).slots[i]?
      = items[i]?.map fun item =>
          ⟨item.timestamp, item.originalLength, edge items i, edge items (i + 1)⟩ := by
  cases h : items[i]? with
  | none =>
      have hlength := List.getElem?_eq_none_iff.mp h
      rw [← size_holding first items, size] at hlength
      rw [Option.map_none, Array.getElem?_eq_none_iff]
      exact hlength
  | some item =>
      have htake := length_take_of_getElem? h
      have hsize := size_holding first (items.take i)
      rw [htake] at hsize
      -- The arena has had the packets in front of this one.
      have harena : (holding first (items.take i)).arena.size = edge items i := by
        have hlength := byteLength_holding first (items.take i)
        rw [edge_length] at hlength
        exact hlength
      rw [holding_eq_pushAll first h, slots_pushAll_of_lt _ (by rw [size_push]; omega),
        slots_push, if_pos hsize.symm, harena, edge_succ h, Option.map_some]

/-- Each packet comes out as it was put in, numbered from the first. -/
theorem get?_holding (first : UInt64) (items : List Item) (i : Nat) :
    (holding first items).get? i = items[i]?.map (Item.packet (first + UInt64.ofNat i)) := by
  cases h : items[i]? with
  | none => rw [get?, slots_holding, h, Option.map_none, Option.map_none, Option.map_none]
  | some item =>
      have hsize := size_holding first (items.take i)
      rw [length_take_of_getElem? h] at hsize
      have hself : ((holding first (items.take i)).push item.timestamp item.originalLength
          item.data).get? (holding first (items.take i)).size = some _ := get?_push_self
      rw [hsize, holding, first_pushAll] at hself
      rw [holding_eq_pushAll first h,
        get?_pushAll_of_lt (within_holding first _).push _ (by rw [size_push]; omega)]
      exact hself

/-- Going through the packets gives what asking for each of them gives. -/
theorem packets_holding (first : UInt64) (items : List Item) (i : Nat) :
    (holding first items).packets[i]? = (holding first items).get? i := by
  have hpackets : (holding first items).packets
      = items.mapIdx fun i item => item.packet (first + UInt64.ofNat (0 + i)) :=
    packets_pushAll (within_empty first) items
  rw [hpackets, List.getElem?_mapIdx, get?_holding, Nat.zero_add]

/-- The ranges of a batch tile its arena. -/
theorem tiled_holding (first : UInt64) (items : List Item) : (holding first items).Tiled := by
  have hlength : (holding first items).arena.size = edge items items.length :=
    byteLength_holding first items
  -- A slot of the batch is that of a packet, with the edges on its two sides.
  have hslot : ∀ {i slot}, (holding first items).slots[i]? = some slot →
      i < items.length ∧ slot.start = edge items i ∧ slot.stop = edge items (i + 1) := by
    intro i slot h
    rw [slots_holding] at h
    obtain ⟨item, hitem, rfl⟩ := Option.map_eq_some_iff.mp h
    exact ⟨(List.getElem?_eq_some_iff.mp hitem).1, rfl, rfl⟩
  constructor
  case opens =>
    intro slot h
    rw [(hslot h).2.1, edge_zero]
  case meets =>
    intro i slot next h hnext
    rw [(hslot hnext).2.1, (hslot h).2.2]
  case closes =>
    intro i slot h hlast
    rw [(hslot h).2.2, hlast, size_holding, hlength]
  case ordered =>
    intro i slot h
    rcases hslot h with ⟨hi, hstart, hstop⟩
    rw [hstart, hstop, hlength]
    exact ⟨edge_le_succ items i, edge_mono items hi⟩
  case apart =>
    intro i j slot other hij h hother
    rw [(hslot h).2.2, (hslot hother).2.1]
    exact edge_mono items hij
  case covered =>
    intro position hposition
    rw [hlength] at hposition
    rcases exists_between hposition with ⟨i, hi, hbetween⟩
    refine ⟨i, ⟨items[i].timestamp, items[i].originalLength, edge items i, edge items (i + 1)⟩,
      ?_, hbetween⟩
    rw [slots_holding, List.getElem?_eq_getElem hi, Option.map_some]

/-- Every packet has a number exactly if the last one has. -/
theorem isNumbered_holding (first : UInt64) (items : List Item) :
    (holding first items).isNumbered = true ↔ first.toNat + items.length ≤ UInt64.size := by
  rw [isNumbered, decide_eq_true_iff, size_holding, holding, first_pushAll]

/-- Whatever packets are put in, with or without octets, the batch has a range
    of its own for each, and the ranges divide the arena. Each packet comes out
    as it was put in, numbered from the batch's first, as long as the numbers
    have 64 bits; and it comes out the same when more packets have been put in
    behind it. -/
theorem boundaries_kept (first : UInt64) (items : List Item)
    (hcount : first.toNat + items.length ≤ UInt64.size) :
    (holding first items).Keeps first items ∧
    ∀ (later : List Item) (i : Nat), i < items.length →
      (holding first (items ++ later)).get? i = (holding first items).get? i := by
  refine ⟨⟨size_holding first items, tiled_holding first items, ?_, ?_, packets_holding first items,
    ?_⟩, ?_⟩
  · intro i item hitem
    have hi := (List.getElem?_eq_some_iff.mp hitem).1
    -- The number does not run over, because even the last one does not.
    have hnumber : (first + UInt64.ofNat i).toNat = first.toNat + i := by
      rw [UInt64.toNat_add, UInt64.toNat_ofNat', Nat.add_mod_mod]
      exact Nat.mod_eq_of_lt (show first.toNat + i < UInt64.size by omega)
    exact ⟨_, by rw [get?_holding, hitem, Option.map_some], hnumber, rfl, rfl, rfl⟩
  · intro i hi
    rw [size_holding] at hi
    rw [get?_holding, List.getElem?_eq_none_iff.mpr hi, Option.map_none]
  · rw [byteLength_holding, edge_length]
  · intro later i hi
    have happend : holding first (items ++ later) = (holding first items).pushAll later :=
      pushAll_append { first } items later
    rw [← size_holding first items] at hi
    rw [happend]
    exact get?_pushAll_of_lt (within_holding first items) later hi

/-- Three packets, one of them without octets. -/
def threeItems : List Item := [⟨1, 3, [1, 2, 3]⟩, ⟨2, 0, []⟩, ⟨3, 9, [4]⟩]

theorem boundaries_kept_threeItems :
    (18446744073709551613 : UInt64).toNat + threeItems.length ≤ UInt64.size ∧
      (holding 18446744073709551613 threeItems).Keeps 18446744073709551613 threeItems ∧
      (holding 18446744073709551613 (threeItems ++ threeItems)).get? 2
        = (holding 18446744073709551613 threeItems).get? 2 := by
  have hcount : (18446744073709551613 : UInt64).toNat + threeItems.length ≤ UInt64.size := by
    decide
  rcases boundaries_kept 18446744073709551613 threeItems hcount with ⟨hkeeps, hlater⟩
  exact ⟨hcount, hkeeps, hlater threeItems 2 (by decide)⟩

end Batch

end MarketFeed
