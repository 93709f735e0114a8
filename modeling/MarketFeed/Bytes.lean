/-!
# Octet Strings and Words

The bytes that everything else reads and writes.

A datagram, a capture file and an event log are all lists of octets, and
every number in them is a fixed count of octets in one of two orders. Both
directions are defined here once, on natural numbers: `leNat` reads a list
of any length, `ofLE` writes a given count of octets. The fixed-width words
of the message layouts are these two with a width plugged in, so a law about
a record's layout comes down to the laws about `leNat` and `ofLE` below.

A list is used rather than an array because every consumer here walks its
input from the front, and because what is left after a step is then again an
input of the same kind.

## Main definitions

* `Bytes`: A list of octets.
* `Bytes.leNat`, `Bytes.ofLE`: Numbers in little-endian order.
* `Bytes.capacity`: How many numbers a count of octets can write.
* `Bytes.window?`: A range of octets that lies wholly inside the input.
* `Bytes.u16At` and its companions: The word at a position.
* `Bytes.ofU16` and its companions: The octets of a word.
* `ByteOrder`: Which end of a number comes first.

## Theorems

* `leNat_ofLE`: Reading what was written gives the number back.
* `ofLE_leNat`: Writing what was read gives the octets back.
* `window?_eq_some_iff`: A window exists exactly where the input has it.
-/

namespace MarketFeed

/-- A list of octets: a datagram, a file, or a part of one. -/
abbrev Bytes := List UInt8

namespace Bytes

/-- The number that octets write with the least significant one first. -/
def leNat : Bytes → Nat
  | [] => 0
  | b :: rest => b.toNat + 256 * leNat rest

/-- The `width` octets of `n`, least significant first. What does not fit is
    dropped from the top. -/
def ofLE : Nat → Nat → Bytes
  | 0, _ => []
  | width + 1, n => UInt8.ofNat (n % 256) :: ofLE width (n / 256)

/-- How many different numbers `width` octets can write: 256 to that power. -/
def capacity : Nat → Nat
  | 0 => 1
  | width + 1 => 256 * capacity width

/-- The octets from `offset` on, `size` of them, if the input has them all. -/
def window? (input : Bytes) (offset size : Nat) : Option Bytes :=
  if offset + size ≤ input.length then some ((input.drop offset).take size) else none

/-- The little-endian number in the `width` octets at `position`. Octets past
    the end of the input count as absent, so a caller checks the length
    first. -/
def field (input : Bytes) (position width : Nat) : Nat :=
  leNat ((input.drop position).take width)

/-- The octet at a position. -/
def u8At (input : Bytes) (position : Nat) : UInt8 :=
  UInt8.ofNat (field input position 1)

/-- The unsigned 16-bit word at a position. -/
def u16At (input : Bytes) (position : Nat) : UInt16 :=
  UInt16.ofNat (field input position 2)

/-- The unsigned 32-bit word at a position. -/
def u32At (input : Bytes) (position : Nat) : UInt32 :=
  UInt32.ofNat (field input position 4)

/-- The unsigned 64-bit word at a position. -/
def u64At (input : Bytes) (position : Nat) : UInt64 :=
  UInt64.ofNat (field input position 8)

/-- The signed 32-bit word at a position, in two's complement. -/
def i32At (input : Bytes) (position : Nat) : Int32 :=
  (u32At input position).toInt32

/-- The signed 64-bit word at a position, in two's complement. -/
def i64At (input : Bytes) (position : Nat) : Int64 :=
  (u64At input position).toInt64

/-- The two octets of a 16-bit word. -/
def ofU16 (word : UInt16) : Bytes := ofLE 2 word.toNat

/-- The four octets of a 32-bit word. -/
def ofU32 (word : UInt32) : Bytes := ofLE 4 word.toNat

/-- The eight octets of a 64-bit word. -/
def ofU64 (word : UInt64) : Bytes := ofLE 8 word.toNat

/-- The four octets of a signed 32-bit word. -/
def ofI32 (word : Int32) : Bytes := ofU32 word.toUInt32

/-- The eight octets of a signed 64-bit word. -/
def ofI64 (word : Int64) : Bytes := ofU64 word.toUInt64

/-! ## Numbers and their octets -/

@[simp] theorem leNat_nil : leNat [] = 0 := rfl

@[simp] theorem leNat_cons (b : UInt8) (rest : Bytes) :
    leNat (b :: rest) = b.toNat + 256 * leNat rest := rfl

@[simp] theorem length_ofLE (width n : Nat) : (ofLE width n).length = width := by
  induction width generalizing n with
  | zero => rfl
  | succ width ih => simp [ofLE, ih]

/-- A number has room in its octets. -/
theorem leNat_lt (input : Bytes) : leNat input < capacity input.length := by
  induction input with
  | nil => simp [capacity]
  | cons b rest ih =>
    have hb : b.toNat < 256 := b.toNat_lt
    simp only [leNat_cons, List.length_cons, capacity]
    omega

/-- Writing a number keeps what its width has room for. -/
theorem leNat_ofLE (width n : Nat) : leNat (ofLE width n) = n % capacity width := by
  induction width generalizing n with
  | zero => simp [ofLE, capacity, Nat.mod_one]
  | succ width ih =>
    have hb : (UInt8.ofNat (n % 256)).toNat = n % 256 := by simp
    rw [ofLE, leNat_cons, ih, hb, capacity, Nat.mod_mul]

/-- A number that its width has room for is read back. -/
theorem leNat_ofLE_of_lt {width n : Nat} (h : n < capacity width) :
    leNat (ofLE width n) = n := by
  rw [leNat_ofLE, Nat.mod_eq_of_lt h]

/-- Octets are written back as they were read. -/
theorem ofLE_leNat (input : Bytes) : ofLE input.length (leNat input) = input := by
  induction input with
  | nil => rfl
  | cons b rest ih =>
    have hb : b.toNat < 256 := b.toNat_lt
    have hmod : (b.toNat + 256 * leNat rest) % 256 = b.toNat := by omega
    have hdiv : (b.toNat + 256 * leNat rest) / 256 = leNat rest := by omega
    rw [List.length_cons, leNat_cons, ofLE, hmod, hdiv, ih, UInt8.ofNat_toNat]

/-- Octets behind others count in multiples of what those can hold. -/
theorem leNat_append (front back : Bytes) :
    leNat (front ++ back) = leNat front + capacity front.length * leNat back := by
  induction front with
  | nil => simp [capacity]
  | cons b rest ih =>
    rw [List.cons_append, leNat_cons, leNat_cons, ih, List.length_cons, capacity,
      Nat.mul_add, Nat.mul_assoc, Nat.add_assoc]

/-! ## Windows -/

/-- There is a window exactly if the input reaches to its end. -/
theorem window?_eq_some_iff {input found : Bytes} {offset size : Nat} :
    input.window? offset size = some found ↔
      offset + size ≤ input.length ∧ found = (input.drop offset).take size := by
  unfold window?
  split
  · next h => simp [h, eq_comm]
  · next h => simp [h]

theorem length_of_window? {input found : Bytes} {offset size : Nat}
    (h : input.window? offset size = some found) : found.length = size := by
  obtain ⟨hle, rfl⟩ := window?_eq_some_iff.mp h
  rw [List.length_take, List.length_drop]
  omega

theorem window?_eq_none_iff {input : Bytes} {offset size : Nat} :
    input.window? offset size = none ↔ input.length < offset + size := by
  simp [window?]

end Bytes

/-- Which end of a number comes first in a capture file. -/
inductive ByteOrder
  /-- Least significant octet first. -/
  | little
  /-- Most significant octet first. -/
  | big
  deriving DecidableEq, Repr

namespace ByteOrder

/-- The number that octets write in this order. -/
def number : ByteOrder → Bytes → Nat
  | .little, input => Bytes.leNat input
  | .big, input => Bytes.leNat input.reverse

/-- The `width` octets of a number in this order. -/
def octets : ByteOrder → Nat → Nat → Bytes
  | .little, width, n => Bytes.ofLE width n
  | .big, width, n => (Bytes.ofLE width n).reverse

/-- The unsigned 16-bit word at a position. -/
def u16At (order : ByteOrder) (input : Bytes) (position : Nat) : UInt16 :=
  UInt16.ofNat (order.number ((input.drop position).take 2))

/-- The unsigned 32-bit word at a position. -/
def u32At (order : ByteOrder) (input : Bytes) (position : Nat) : UInt32 :=
  UInt32.ofNat (order.number ((input.drop position).take 4))

@[simp] theorem length_octets (order : ByteOrder) (width n : Nat) :
    (order.octets width n).length = width := by
  cases order <;> simp [octets]

/-- In either order a number is read back as far as its width has room. -/
theorem number_octets (order : ByteOrder) (width n : Nat) :
    order.number (order.octets width n) = n % Bytes.capacity width := by
  cases order <;> simp [octets, number, Bytes.leNat_ofLE]

end ByteOrder

end MarketFeed
