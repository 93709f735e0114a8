import MarketFeed.Capture.Header
import MarketFeed.Proofs.Words
import Mathlib.Algebra.Ring.Nat

/-!
# Records End to End

How the octets behind the header of a capture fall into records.

Walking from record to record is defined by reading. Here the same is said
by writing: the octets are those of some records one after the other, and
what is left over opens no complete record. The two agree, and the second
form is the one to reason with, since a chunk of a file is a prefix of what
was written, and a prefix of a list of records is easy to name.

There is only one way to take octets apart like this. A record says in its
header how long it is, so the first one is determined by the octets, and so
is every later one.

## Main definitions

* `Record.Cut`: Octets that open no complete record.
* `Record.Splits`: Octets fall into these records and this rest.
* `Record.total`: How many octets records take together.

## Theorems

* `exists_splits`: All octets fall into records and a rest.
* `gather_of_splits`: Walking finds exactly these records and this rest.
* `Splits.unique`: They are determined by the octets.
* `Splits.drop`: What follows some of the records falls into the others.
* `cut_take_of_lt`: A prefix that ends inside the first record is cut.
-/

namespace MarketFeed

namespace RecordHeader

/-- A header that was written is read back, whatever follows it. -/
theorem read?_octets_append (order : ByteOrder) (h : RecordHeader) (rest : Bytes) :
    read? order (h.octets order ++ rest) = some h := by
  have hwindow : Bytes.window? (h.octets order ++ rest) 0 length = some (h.octets order) := by
    refine Bytes.window?_eq_some_iff.mpr ⟨?_, ?_⟩
    · rw [List.length_append, length_octets]
      omega
    · rw [List.drop_zero, List.take_left' (length_octets order h)]
  rw [read?, hwindow, Option.map_some, Option.some.injEq]
  have hfirst : ∀ (word : UInt32) (back : Bytes) (position : Nat), 4 ≤ position →
      order.u32At (order.octets 4 word.toNat ++ back) position
        = order.u32At back (position - 4) := fun word back position hle => by
    have hlength := ByteOrder.length_octets order 4 word.toNat
    rw [ByteOrder.u32At_append_of_le (by omega), hlength]
  have hlast := ByteOrder.u32At_octets_append order h.originalLength []
  rw [List.append_nil] at hlast
  -- Each field stands behind four octets for every field before it.
  unfold octets
  simp only [List.append_assoc]
  rw [ByteOrder.u32At_octets_append, hfirst _ _ 4 (by omega), ByteOrder.u32At_octets_append,
    hfirst _ _ 8 (by omega), hfirst _ _ 4 (by omega), ByteOrder.u32At_octets_append,
    hfirst _ _ 12 (by omega), hfirst _ _ 8 (by omega), hfirst _ _ 4 (by omega), hlast]

/-- A header is missing exactly if the input is too short for it. -/
theorem read?_eq_none_iff {order : ByteOrder} {input : Bytes} :
    read? order input = none ↔ input.length < length := by
  rw [read?, Option.map_eq_none_iff, Bytes.window?_eq_none_iff, Nat.zero_add]

/-- What a header was read from is what it writes. -/
theorem eq_octets_of_read? {order : ByteOrder} {input : Bytes} {h : RecordHeader}
    (hread : read? order input = some h) :
    input = h.octets order ++ input.drop length ∧
      h.capturedLength = order.u32At input 8 := by
  -- A header that was read has all of its octets.
  have hlen : length ≤ input.length := Nat.le_of_not_lt fun hlt => by
    rw [read?_eq_none_iff.mpr hlt] at hread
    cases hread
  have hwindow : input.window? 0 length = some (input.take length) :=
    Bytes.window?_eq_some_iff.mpr ⟨by omega, rfl⟩
  rw [read?, hwindow, Option.map_some, Option.some.injEq] at hread
  simp only [length] at hlen hread ⊢
  have hraw : (input.take 16).length = 16 := by
    rw [List.length_take]
    omega
  subst hread
  constructor
  · simp only [octets]
    rw [ByteOrder.octets_u32At order (by omega), ByteOrder.octets_u32At order (by omega),
      ByteOrder.octets_u32At order (by omega), ByteOrder.octets_u32At order (by omega)]
    -- The four slices of the window join up.
    have hparts : ((input.take 16).drop 0).take 4 ++ ((input.take 16).drop 4).take 4
        ++ ((input.take 16).drop 8).take 4 ++ ((input.take 16).drop 12).take 4
          = input.take 16 := by
      rw [List.drop_zero, ← List.take_add, ← List.take_add, ← List.take_add,
        show 4 + 4 + 4 + 4 = 16 from rfl, List.take_take, Nat.min_self]
    rw [hparts, List.take_append_drop]
  · exact ByteOrder.u32At_take (by omega)

end RecordHeader

namespace Record

/-- The octets end before the record that they open. -/
def Cut (order : ByteOrder) (input : Bytes) : Prop :=
  input.length < RecordHeader.length ∨
    input.length < RecordHeader.length + (order.u32At input 8).toNat

/-- Octets that are those of records one after the other, each as long as it
    says, and of a rest that opens no complete record. -/
structure Splits (order : ByteOrder) (input : Bytes) (records : List Record) (tail : Bytes) :
    Prop where
  /-- The records stand end to end, and the rest behind them. -/
  octets : input = records.flatMap (Record.octets order) ++ tail
  /-- Each record has as many octets of data as its header declares. -/
  lengths : ∀ r ∈ records, r.header.capturedLength.toNat = r.data.length
  /-- The rest ends before the record that it opens. -/
  cut : Cut order tail

/-- How many octets records take together. -/
def total (records : List Record) : Nat := (records.map size).sum

variable {order : ByteOrder} {input tail rest : Bytes} {record : Record} {records : List Record}

@[simp] theorem total_nil : total [] = 0 := rfl

@[simp] theorem total_cons (record : Record) (records : List Record) :
    total (record :: records) = record.size + total records := rfl

@[simp] theorem total_append (front back : List Record) :
    total (front ++ back) = total front + total back := by
  rw [total, List.map_append, List.sum_append_nat, ← total, ← total]

theorem foldl_size (records : List Record) :
    records.toArray.foldl (fun total record => total + record.size) 0 = total records := by
  rw [List.foldl_toArray' _ _ _ rfl, total, List.sum_eq_foldl, List.foldl_map]

theorem length_octets (order : ByteOrder) (record : Record) :
    (record.octets order).length = record.size := by
  rw [Record.octets, List.length_append, RecordHeader.length_octets, size]

theorem length_flatMap_octets (order : ByteOrder) (records : List Record) :
    (records.flatMap (Record.octets order)).length = total records := by
  induction records with
  | nil => rfl
  | cons record rest ih => rw [List.flatMap_cons, List.length_append, length_octets, ih, total_cons]

/-- The records and the rest are all there is. -/
theorem Splits.length (h : Splits order input records tail) :
    input.length = total records + tail.length := by
  rw [h.octets, List.length_append, length_flatMap_octets]

/-! ## One record -/

/-- A record that was written is read back, whatever follows it. -/
theorem split?_octets_append (hlength : record.header.capturedLength.toNat = record.data.length)
    (rest : Bytes) : split? order (record.octets order ++ rest) = some (record, rest) := by
  have hbody : (record.header.octets order ++ (record.data ++ rest)).drop RecordHeader.length
      = record.data ++ rest :=
    List.drop_left' (RecordHeader.length_octets order record.header)
  rw [Record.octets, List.append_assoc, split?, RecordHeader.read?_octets_append]
  simp only [hbody, hlength, List.take_left, List.drop_left, if_true]

/-- There is no complete record exactly where the input is cut. -/
theorem split?_eq_none_iff : split? order input = none ↔ Cut order input := by
  unfold split? Cut
  cases hread : RecordHeader.read? order input with
  | none =>
      have hlt := RecordHeader.read?_eq_none_iff.mp hread
      simp only [hlt, true_or]
  | some header =>
      rcases RecordHeader.eq_octets_of_read? hread with ⟨-, hcaptured⟩
      have hlen : ¬ input.length < RecordHeader.length := fun hlt => by
        rw [RecordHeader.read?_eq_none_iff.mpr hlt] at hread
        cases hread
      simp only [hcaptured, List.length_take, List.length_drop, hlen, false_or,
        ite_eq_right_iff, reduceCtorEq, imp_false]
      omega

/-- A record that is read could have been written there, with the length it
    declares. -/
theorem eq_octets_of_split? (h : split? order input = some (record, rest)) :
    input = record.octets order ++ rest ∧
      record.header.capturedLength.toNat = record.data.length := by
  unfold split? at h
  cases hread : RecordHeader.read? order input with
  | none => rw [hread] at h; cases h
  | some header =>
      rcases RecordHeader.eq_octets_of_read? hread with ⟨hoctets, -⟩
      simp only [hread] at h
      split at h
      · next hlength =>
        cases h
        refine ⟨?_, hlength.symm⟩
        rw [Record.octets, List.append_assoc, List.take_append_drop]
        exact hoctets
      · cases h

/-! ## All records -/

/-- All octets fall into records and a rest. -/
theorem exists_splits (order : ByteOrder) (input : Bytes) :
    ∃ records tail, Splits order input records tail := by
  -- The induction is on the length of the input.
  -- Each record takes octets off the input, so the walk is over at some point.
  induction hn : input.length using Nat.strongRecOn generalizing input with
  | ind n ih =>
    cases hsplit : split? order input with
    | none =>
        exact ⟨[], input, rfl, fun r hr => (List.not_mem_nil hr).elim,
          split?_eq_none_iff.mp hsplit⟩
    | some found =>
        rcases found with ⟨record, rest⟩
        rcases eq_octets_of_split? hsplit with ⟨hoctets, hlength⟩
        have hsize := length_of_split? hsplit
        simp only [size, RecordHeader.length] at hsize
        rcases ih rest.length (by omega) rest rfl with ⟨records, tail, h⟩
        refine ⟨record :: records, tail, ?_, ?_, h.cut⟩
        · rw [List.flatMap_cons, List.append_assoc, ← h.octets]
          exact hoctets
        · exact List.forall_mem_cons.mpr ⟨hlength, h.lengths⟩

/-- Walking finds the records that the octets fall into. -/
theorem gather_of_splits (h : Splits order input records tail) (found : Array Record) :
    gather order input found = (found ++ records.toArray, tail) := by
  induction records generalizing input found with
  | nil =>
      have htail : input = tail := h.octets
      have hnone := split?_eq_none_iff.mpr h.cut
      rw [htail, gather]
      split
      · simp only [Array.append_empty]
      · next hsome => rw [hnone] at hsome; cases hsome
  | cons record records ih =>
      rcases List.forall_mem_cons.mp h.lengths with ⟨hlength, hlengths⟩
      -- The first record stands in front, so that is what splitting finds.
      have hsome : split? order (record.octets order
          ++ (records.flatMap (Record.octets order) ++ tail))
            = some (record, records.flatMap (Record.octets order) ++ tail) :=
        split?_octets_append hlength _
      rw [← List.append_assoc, ← List.flatMap_cons, ← h.octets] at hsome
      rw [gather]
      split
      · next hnone => rw [hsome] at hnone; cases hnone
      · next next rest heq =>
        rw [hsome, Option.some.injEq, Prod.mk.injEq] at heq
        rcases heq with ⟨rfl, rfl⟩
        rw [ih ⟨rfl, hlengths, h.cut⟩]
        simp only [Prod.mk.injEq, and_true]
        rw [← Array.toList_inj]
        simp only [Array.toList_append, Array.toList_push, List.append_assoc, List.cons_append,
          List.nil_append]

/-- The records and the rest are determined by the octets. -/
theorem Splits.unique {others : List Record} {left : Bytes}
    (h : Splits order input records tail) (h' : Splits order input others left) :
    records = others ∧ tail = left := by
  -- Both are what walking finds.
  have heq := (gather_of_splits h #[]).symm.trans (gather_of_splits h' #[])
  rw [Prod.mk.injEq, Array.empty_append, Array.empty_append] at heq
  exact ⟨congrArg Array.toList heq.1, heq.2⟩

/-- What follows some of the records falls into the others. -/
theorem Splits.drop {front : List Record} (h : Splits order input (front ++ records) tail) :
    Splits order (input.drop (total front)) records tail where
  octets := by
    rw [h.octets, List.flatMap_append, List.append_assoc,
      List.drop_left' (length_flatMap_octets order front)]
  lengths r hr := h.lengths r (List.mem_append_right front hr)
  cut := h.cut

/-- A prefix that ends inside the record it opens is cut. -/
theorem cut_take_of_lt {count : Nat}
    (h : count < RecordHeader.length + (order.u32At input 8).toNat) :
    Cut order (input.take count) := by
  have hle := List.length_take_le count input
  -- A prefix that is too short for a header opens no record. In a longer one
  -- the captured length can be read, and the record ends behind the prefix.
  by_cases hheader : count < RecordHeader.length
  · exact Or.inl (by omega)
  · refine Or.inr ?_
    simp only [RecordHeader.length] at hheader ⊢
    rw [ByteOrder.u32At_take (by omega)]
    simp only [RecordHeader.length] at h
    omega

/-- A part of a cut record is cut. -/
theorem Cut.take (h : Cut order input) (count : Nat) : Cut order (input.take count) := by
  by_cases hle : input.length ≤ count
  · rw [List.take_of_length_le hle]
    exact h
  · rcases h with h | h
    · exact Or.inl (by rw [List.length_take]; omega)
    · exact cut_take_of_lt (by omega)

/-- The captured length stands in the record's own octets. -/
theorem u32At_octets_append (record : Record) (rest : Bytes) :
    order.u32At (record.octets order ++ rest) 8 = record.header.capturedLength := by
  rw [Record.octets, List.append_assoc]
  exact ((RecordHeader.eq_octets_of_read?
    (RecordHeader.read?_octets_append order record.header _)).2).symm

end Record

end MarketFeed
