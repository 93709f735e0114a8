import MarketFeed.Bytes

/-!
# Words at a Position

Picking a word out of octets that were written one field after the other.

A layout is written by concatenation and read by position, so each field of
a structure has to be found behind the fields before it. Two moves do this
for any layout. A position behind the first part is a position in the rest,
counted from there; a word at the front of what it opens is that word. The
opposite direction is one move: the octets that a word was read from are the
octets it writes.

## Theorems

* `Bytes.field_append_of_le`, `ByteOrder.u16At_append_of_le`,
  `ByteOrder.u32At_append_of_le`: A field behind the first part.
* `Bytes.field_ofLE_append`, `ByteOrder.u16At_octets_append`,
  `ByteOrder.u32At_octets_append`: A field at the front.
* `Bytes.ofLE_field`, `ByteOrder.octets_u32At`: What a field was read from.
* `Bytes.field_ofU64_append`, `Bytes.ofU64_u64At` and their companions: The same
  for the words of a datagram.
-/

namespace MarketFeed

namespace Bytes

variable {front back input : Bytes} {position width : Nat}

/-- Behind a front of known length, positions are counted from its end. -/
theorem drop_append_of_le (h : front.length ≤ position) :
    (front ++ back).drop position = back.drop (position - front.length) := by
  rw [List.drop_append, List.drop_eq_nil_iff.mpr h, List.nil_append]

/-- Octets between two positions, and what follows the second. -/
theorem drop_eq_take_append {first last : Nat} (h : first ≤ last) :
    input.drop first = (input.drop first).take (last - first) ++ input.drop last := by
  have hlast : input.drop last = (input.drop first).drop (last - first) := by
    rw [List.drop_drop, Nat.add_sub_cancel' h]
  rw [hlast, List.take_append_drop]

theorem length_slice (h : position + width ≤ input.length) :
    ((input.drop position).take width).length = width := by
  rw [List.length_take, List.length_drop]
  omega

/-- A field behind a front is a field of what follows it. -/
theorem field_append_of_le (h : front.length ≤ position) (width : Nat) :
    field (front ++ back) position width = field back (position - front.length) width := by
  unfold field
  rw [drop_append_of_le h]

/-- A number that was written in front is the first field. -/
theorem field_ofLE_append {n : Nat} (h : n < capacity width) :
    field (ofLE width n ++ back) 0 width = n := by
  unfold field
  rw [List.drop_zero, List.take_left' (length_ofLE width n), leNat_ofLE_of_lt h]

/-- A field has room in its octets. -/
theorem field_lt (h : position + width ≤ input.length) :
    field input position width < capacity width := by
  have hlt := leNat_lt ((input.drop position).take width)
  rw [length_slice h] at hlt
  exact hlt

/-- Writing a field gives the octets it was read from. -/
theorem ofLE_field (h : position + width ≤ input.length) :
    ofLE width (field input position width) = (input.drop position).take width := by
  -- The field was read from this slice, and a number of as many octets writes
  -- the slice back.
  have hback := ofLE_leNat ((input.drop position).take width)
  rw [length_slice h] at hback
  exact hback

/-! ## Little-endian words -/

@[simp] theorem length_ofU16 (word : UInt16) : (ofU16 word).length = 2 := length_ofLE 2 _

@[simp] theorem length_ofU32 (word : UInt32) : (ofU32 word).length = 4 := length_ofLE 4 _

@[simp] theorem length_ofU64 (word : UInt64) : (ofU64 word).length = 8 := length_ofLE 8 _

theorem field_ofU16_append (word : UInt16) (back : Bytes) :
    field (ofU16 word ++ back) 0 2 = word.toNat :=
  field_ofLE_append word.toNat_lt

theorem field_ofU32_append (word : UInt32) (back : Bytes) :
    field (ofU32 word ++ back) 0 4 = word.toNat :=
  field_ofLE_append word.toNat_lt

theorem field_ofU64_append (word : UInt64) (back : Bytes) :
    field (ofU64 word ++ back) 0 8 = word.toNat :=
  field_ofLE_append word.toNat_lt

/-- A code is a single octet, which is written without `ofLE`. -/
theorem field_cons_zero (octet : UInt8) (back : Bytes) :
    field (octet :: back) 0 1 = octet.toNat := by
  simp only [field, List.drop_zero, List.take_succ_cons, List.take_zero, leNat_cons, leNat_nil,
    Nat.mul_zero, Nat.add_zero]

theorem field_cons_succ (octet : UInt8) (back : Bytes) (position width : Nat) :
    field (octet :: back) (position + 1) width = field back position width := by
  rw [field, List.drop_succ_cons, field]

theorem singleton_u8At (h : position + 1 ≤ input.length) :
    [u8At input position] = (input.drop position).take 1 := by
  have hback := ofLE_field h
  rw [ofLE, ofLE, Nat.mod_eq_of_lt (show field input position 1 < 256 from field_lt h)] at hback
  exact hback

theorem pair_u8At (h : position + 2 ≤ input.length) :
    [u8At input position, u8At input (position + 1)] = (input.drop position).take 2 := by
  have hfirst : [u8At input position] = (input.drop position).take 1 := singleton_u8At (by omega)
  have hsecond : [u8At input (position + 1)] = (input.drop (position + 1)).take 1 :=
    singleton_u8At (by omega)
  rw [← List.singleton_append, hfirst, hsecond, ← List.drop_drop, ← List.take_add]

/-- A word of two octets is written back as it was read. -/
theorem ofU16_u16At (h : position + 2 ≤ input.length) :
    ofU16 (u16At input position) = (input.drop position).take 2 := by
  rw [ofU16, u16At, UInt16.toNat_ofNat_of_lt' (field_lt h), ofLE_field h]

theorem ofU32_u32At (h : position + 4 ≤ input.length) :
    ofU32 (u32At input position) = (input.drop position).take 4 := by
  rw [ofU32, u32At, UInt32.toNat_ofNat_of_lt' (field_lt h), ofLE_field h]

theorem u32At_ofU32 (word : UInt32) : u32At (ofU32 word) 0 = word := by
  have hfield := field_ofU32_append word []
  rw [List.append_nil] at hfield
  rw [u32At, hfield, UInt32.ofNat_toNat]

theorem ofU64_u64At (h : position + 8 ≤ input.length) :
    ofU64 (u64At input position) = (input.drop position).take 8 := by
  rw [ofU64, u64At, UInt64.toNat_ofNat_of_lt' (field_lt h), ofLE_field h]

/-- The octets of a signed word do not depend on its sign. -/
theorem ofI32_i32At (h : position + 4 ≤ input.length) :
    ofI32 (i32At input position) = (input.drop position).take 4 := by
  rw [ofI32, i32At, UInt32.toUInt32_toInt32, ofU32_u32At h]

theorem ofI64_i64At (h : position + 8 ≤ input.length) :
    ofI64 (i64At input position) = (input.drop position).take 8 := by
  rw [ofI64, i64At, UInt64.toUInt64_toInt64, ofU64_u64At h]

end Bytes

namespace ByteOrder

variable {order : ByteOrder} {front back input : Bytes} {position : Nat}

/-- In either order, a word behind a front is a word of what follows it. -/
theorem u32At_append_of_le (h : front.length ≤ position) :
    order.u32At (front ++ back) position = order.u32At back (position - front.length) := by
  unfold u32At
  rw [Bytes.drop_append_of_le h]

theorem u16At_append_of_le (h : front.length ≤ position) :
    order.u16At (front ++ back) position = order.u16At back (position - front.length) := by
  unfold u16At
  rw [Bytes.drop_append_of_le h]

theorem u16At_octets_append (order : ByteOrder) (word : UInt16) (back : Bytes) :
    order.u16At (order.octets 2 word.toNat ++ back) 0 = word := by
  unfold u16At
  rw [List.drop_zero, List.take_left' (length_octets order 2 _), number_octets,
    Nat.mod_eq_of_lt (show word.toNat < Bytes.capacity 2 from word.toNat_lt), UInt16.ofNat_toNat]

/-- In either order, a word that was written in front is read back. -/
theorem u32At_octets_append (order : ByteOrder) (word : UInt32) (back : Bytes) :
    order.u32At (order.octets 4 word.toNat ++ back) 0 = word := by
  unfold u32At
  rw [List.drop_zero, List.take_left' (length_octets order 4 _), number_octets,
    Nat.mod_eq_of_lt (show word.toNat < Bytes.capacity 4 from word.toNat_lt), UInt32.ofNat_toNat]

/-- Big-endian octets are little-endian ones from the other end, so in both
    orders octets are written back as they were read. -/
theorem octets_number (order : ByteOrder) (input : Bytes) :
    order.octets input.length (order.number input) = input := by
  cases order with
  | little => exact Bytes.ofLE_leNat input
  | big =>
      have hback := Bytes.ofLE_leNat input.reverse
      rw [List.length_reverse] at hback
      rw [octets, number, hback, List.reverse_reverse]

theorem number_lt (order : ByteOrder) (input : Bytes) :
    order.number input < Bytes.capacity input.length := by
  cases order with
  | little => exact Bytes.leNat_lt input
  | big =>
      have hlt := Bytes.leNat_lt input.reverse
      rw [List.length_reverse] at hlt
      exact hlt

theorem octets_u32At (order : ByteOrder) (h : position + 4 ≤ input.length) :
    order.octets 4 (order.u32At input position).toNat = (input.drop position).take 4 := by
  have hlength : ((input.drop position).take 4).length = 4 := Bytes.length_slice h
  have hlt := number_lt order ((input.drop position).take 4)
  have hback := octets_number order ((input.drop position).take 4)
  rw [hlength] at hlt hback
  rw [u32At, UInt32.toNat_ofNat_of_lt' (show _ < UInt32.size from hlt), hback]

/-- A word lies in the octets up to its end, whatever follows them. -/
theorem u32At_take {count : Nat} (h : position + 4 ≤ count) :
    order.u32At (input.take count) position = order.u32At input position := by
  unfold u32At
  rw [List.drop_take, List.take_take, Nat.min_eq_left (by omega)]

end ByteOrder

end MarketFeed
