import MarketFeed.Message.Layout
import MarketFeed.Proofs.Words

/-!
# Reading What Was Written

Each structure of a datagram in its two forms.

The fields of a structure are read by position and written one after the
other. A structure that is read from what it writes is the same, and the
octets that it is read from are what it writes. The first holds for a code
only if the code can be read at all: a known octet under the name of an
unknown one cannot.

What follows from the two directions follows for every structure alike. It
can be read at an offset exactly if its octets stand there, and nothing in
front of the offset plays a part.

## Main definitions

* `Layout.Coded`: The two forms of a structure fit each other.
* `Action.Readable`, `Side.Readable`: Codes that come off the wire.

## Theorems

* `Layout.Coded.read_append`, `Layout.Coded.eq_append_of_read`: A structure is
  read where its octets stand, and only there.
* `Layout.block_congr`: A window depends on what follows the offset.
* `coded` of each structure: Its two forms fit.
-/

namespace MarketFeed

/-! ## Windows of a payload -/

namespace Layout

variable {layout : Layout} {payload payload' found rest : Bytes} {offset : Nat}

theorem size_pos (layout : Layout) : 0 < layout.size := by
  cases layout <;> decide

/-- A structure that stands at an offset is read there. -/
theorem block_append (h : payload.drop offset = found ++ rest)
    (hlength : found.length = layout.size) : layout.block payload offset = .ok found := by
  have hpos := layout.size_pos
  have hdrop := congrArg List.length h
  rw [List.length_drop, List.length_append] at hdrop
  refine block_eq_ok_iff.mpr ⟨by omega, ?_⟩
  rw [h, List.take_left' hlength]

/-- A structure that is read at an offset stands there. -/
theorem eq_append_of_block (h : layout.block payload offset = .ok found) :
    payload.drop offset = found ++ payload.drop (offset + layout.size) := by
  rcases block_eq_ok_iff.mp h with ⟨-, rfl⟩
  rw [← List.drop_drop, List.take_append_drop]

/-- Reading depends on nothing in front of the offset. -/
theorem block_congr (h : payload.drop offset = payload'.drop offset) :
    layout.block payload offset = layout.block payload' offset := by
  have hpos := layout.size_pos
  have hlength := congrArg List.length h
  rw [List.length_drop, List.length_drop] at hlength
  have hfits : offset + layout.size ≤ payload.length ↔ offset + layout.size ≤ payload'.length := by
    omega
  simp only [block, Bytes.window?, truncatedAt, h, hlength, hfits]

/-- The fields by position and the fields in order are the same structure,
    except for those values that no octets are read as. -/
structure Coded {α : Type} (layout : Layout) (ofBlock : Bytes → α) (toBlock : α → Bytes)
    (Readable : α → Prop) : Prop where
  length : ∀ x, (toBlock x).length = layout.size
  ofBlock_append : ∀ x, Readable x → ∀ back, ofBlock (toBlock x ++ back) = x
  toBlock_ofBlock : ∀ b : Bytes, b.length = layout.size → toBlock (ofBlock b) = b
  readable : ∀ b, Readable (ofBlock b)

variable {α : Type} {ofBlock : Bytes → α} {toBlock : α → Bytes} {Readable : α → Prop} {x : α}

/-- Wherever there are enough octets, a structure stands in front. -/
theorem Coded.take_eq_toBlock (c : layout.Coded ofBlock toBlock Readable)
    (h : layout.size ≤ payload.length) : payload.take layout.size = toBlock (ofBlock payload) := by
  have hfront : toBlock (ofBlock (payload.take layout.size)) = payload.take layout.size :=
    c.toBlock_ofBlock _ (List.length_take_of_le h)
  -- The window is read as what it writes, and so is the window with what follows.
  have hsame := c.ofBlock_append _ (c.readable (payload.take layout.size))
    (payload.drop layout.size)
  rw [hfront, List.take_append_drop] at hsame
  rw [hsame, hfront]

/-- What was written at an offset is read back. -/
theorem Coded.read_append (c : layout.Coded ofBlock toBlock Readable) (hreadable : Readable x)
    (h : payload.drop offset = toBlock x ++ rest) :
    (layout.block payload offset).map ofBlock = .ok x := by
  have hback := c.ofBlock_append x hreadable []
  rw [List.append_nil] at hback
  rw [block_append h (c.length x), Except.map, hback]

/-- What is read at an offset could have been written there. -/
theorem Coded.eq_append_of_read (c : layout.Coded ofBlock toBlock Readable)
    (h : (layout.block payload offset).map ofBlock = .ok x) :
    Readable x ∧ payload.drop offset = toBlock x ++ payload.drop (offset + layout.size) := by
  cases hblock : layout.block payload offset with
  | error e => rw [hblock] at h; cases h
  | ok b =>
      rw [hblock] at h
      cases h
      rw [c.toBlock_ofBlock b (length_of_block hblock)]
      exact ⟨c.readable b, eq_append_of_block hblock⟩

end Layout

/-! ## Codes -/

/-- The action is what its code is read as. -/
def Action.Readable (a : Action) : Prop := ofCode a.toCode = a

/-- The side is what its code is read as. -/
def Side.Readable (s : Side) : Prop := ofCode s.toCode = s

instance : DecidablePred Action.Readable := fun a => inferInstanceAs (Decidable (_ = a))

instance : DecidablePred Side.Readable := fun s => inferInstanceAs (Decidable (_ = s))

/-- An action that was read can be read again. -/
theorem Action.readable_ofCode (code : UInt8) : (ofCode code).Readable := by
  rw [Readable, toCode_ofCode]

theorem Side.readable_ofCode (code : UInt8) : (ofCode code).Readable := by
  rw [Readable, toCode_ofCode]

/-- Both codes of the update can be read. -/
def OrderUpdate.Readable (u : OrderUpdate) : Prop := u.action.Readable ∧ u.side.Readable

/-- Both codes of the execution can be read. -/
def OrderExecution.Readable (x : OrderExecution) : Prop := x.action.Readable ∧ x.side.Readable

/-- The side of the entry can be read. -/
def BookEntry.Readable (e : BookEntry) : Prop := e.side.Readable

instance : DecidablePred OrderUpdate.Readable := fun u =>
  inferInstanceAs (Decidable (u.action.Readable ∧ u.side.Readable))

instance : DecidablePred OrderExecution.Readable := fun x =>
  inferInstanceAs (Decidable (x.action.Readable ∧ x.side.Readable))

instance : DecidablePred BookEntry.Readable := fun e => inferInstanceAs (Decidable e.side.Readable)

/-! ## Each structure

In one direction, a field stands behind the octets of the fields before it.
In the other, the slices of the window that the fields write join up. -/

theorem Envelope.coded : Layout.envelope.Coded ofBlock toBlock fun _ => True where
  length := length_toBlock
  readable _ := trivial
  ofBlock_append e _ back := by
    simp (disch := simp) only [ofBlock, toBlock, Bytes.u64At, Bytes.u32At, Bytes.u16At,
      List.append_assoc, Bytes.field_append_of_le, Bytes.length_ofU32, Bytes.length_ofU16,
      Bytes.field_ofU64_append, Bytes.field_ofU32_append, Bytes.field_ofU16_append,
      Nat.reduceSub, UInt64.ofNat_toNat, UInt32.ofNat_toNat, UInt16.ofNat_toNat]
  toBlock_ofBlock b h := by
    simp only [Layout.size] at h
    simp (disch := omega) only [toBlock, ofBlock, Bytes.ofU32_u32At, Bytes.ofU16_u16At,
      Bytes.ofU64_u64At, List.drop_zero, ← List.take_add, Nat.reduceAdd,
      List.take_of_length_le]

theorem IncrementalHeader.coded : Layout.incremental.Coded ofBlock toBlock fun _ => True where
  length := length_toBlock
  readable _ := trivial
  ofBlock_append h _ back := by
    simp (disch := simp) only [ofBlock, toBlock, Bytes.u64At, Bytes.u32At, List.append_assoc,
      Bytes.field_append_of_le, Bytes.length_ofU64, Bytes.field_ofU64_append,
      Bytes.field_ofU32_append, Nat.reduceSub, UInt64.ofNat_toNat, UInt32.ofNat_toNat]
  toBlock_ofBlock b h := by
    simp only [Layout.size] at h
    simp (disch := omega) only [toBlock, ofBlock, Bytes.ofU64_u64At, Bytes.ofU32_u32At,
      List.drop_zero, ← List.take_add, Nat.reduceAdd, List.take_of_length_le]

theorem MessageFrame.coded : Layout.frame.Coded ofBlock toBlock fun _ => True where
  length := length_toBlock
  readable _ := trivial
  ofBlock_append f _ back := by
    simp (disch := simp) only [ofBlock, toBlock, Bytes.u16At, List.append_assoc,
      Bytes.field_append_of_le, Bytes.length_ofU16, Bytes.field_ofU16_append, Nat.reduceSub,
      UInt16.ofNat_toNat]
  toBlock_ofBlock b h := by
    simp only [Layout.size] at h
    simp (disch := omega) only [toBlock, ofBlock, Bytes.ofU16_u16At, List.drop_zero,
      ← List.take_add, Nat.reduceAdd, List.take_of_length_le]

theorem OrderUpdate.coded : Layout.update.Coded ofBlock toBlock Readable where
  length := length_toBlock
  readable _ := ⟨Action.readable_ofCode _, Side.readable_ofCode _⟩
  ofBlock_append u hreadable back := by
    -- The codes come back as they are read, which is what being readable is for.
    have hcodes : ofBlock (u.toBlock ++ back) =
        { u with action := .ofCode u.action.toCode, side := .ofCode u.side.toCode } := by
      simp (disch := simp) only [ofBlock, toBlock, Bytes.i64At, Bytes.u64At, Bytes.i32At,
        Bytes.u32At, Bytes.u8At, Bytes.ofI64, Bytes.ofI32, List.append_assoc, List.cons_append,
        List.nil_append, Bytes.field_append_of_le, Bytes.length_ofU64, Bytes.length_ofU32,
        Bytes.field_ofU64_append, Bytes.field_ofU32_append, Bytes.field_cons_zero,
        Bytes.field_cons_succ, Nat.reduceSub, UInt64.ofNat_toNat, UInt32.ofNat_toNat,
        UInt8.ofNat_toNat, Int64.toInt64_toUInt64, Int32.toInt32_toUInt32]
    rw [hcodes, hreadable.1, hreadable.2]
  toBlock_ofBlock b h := by
    simp only [Layout.size] at h
    -- The two codes at the end are single octets next to each other.
    have hcodes : [b.u8At 48, b.u8At 49] = (b.drop 48).take 2 := Bytes.pair_u8At (by omega)
    simp (disch := omega) only [toBlock, ofBlock, Action.toCode_ofCode, Side.toCode_ofCode,
      hcodes, Bytes.ofI64_i64At, Bytes.ofU64_u64At, Bytes.ofI32_i32At, Bytes.ofU32_u32At,
      List.drop_zero, ← List.take_add, Nat.reduceAdd, List.take_of_length_le]

theorem OrderExecution.coded : Layout.execution.Coded ofBlock toBlock Readable where
  length := length_toBlock
  readable _ := ⟨Action.readable_ofCode _, Side.readable_ofCode _⟩
  ofBlock_append x hreadable back := by
    have hcodes : ofBlock (x.toBlock ++ back) =
        { x with action := .ofCode x.action.toCode, side := .ofCode x.side.toCode } := by
      simp (disch := simp) only [ofBlock, toBlock, Bytes.i64At, Bytes.u64At, Bytes.i32At,
        Bytes.u32At, Bytes.u8At, Bytes.ofI64, Bytes.ofI32, List.append_assoc, List.cons_append,
        List.nil_append, Bytes.field_append_of_le, Bytes.length_ofU64, Bytes.length_ofU32,
        Bytes.field_ofU64_append, Bytes.field_ofU32_append, Bytes.field_cons_zero,
        Bytes.field_cons_succ, Nat.reduceSub, UInt64.ofNat_toNat, UInt32.ofNat_toNat,
        UInt8.ofNat_toNat, Int64.toInt64_toUInt64, Int32.toInt32_toUInt32]
    rw [hcodes, hreadable.1, hreadable.2]
  toBlock_ofBlock b h := by
    simp only [Layout.size] at h
    have hcodes : [b.u8At 72, b.u8At 73] = (b.drop 72).take 2 := Bytes.pair_u8At (by omega)
    simp (disch := omega) only [toBlock, ofBlock, Action.toCode_ofCode, Side.toCode_ofCode,
      hcodes, Bytes.ofI64_i64At, Bytes.ofU64_u64At, Bytes.ofI32_i32At, Bytes.ofU32_u32At,
      List.drop_zero, ← List.take_add, Nat.reduceAdd, List.take_of_length_le]

theorem SnapshotHeader.coded : Layout.snapshotHeader.Coded ofBlock toBlock fun _ => True where
  length := length_toBlock
  readable _ := trivial
  ofBlock_append h _ back := by
    simp (disch := simp) only [ofBlock, toBlock, Bytes.i32At, Bytes.u32At, Bytes.ofI32,
      List.append_assoc, Bytes.field_append_of_le, Bytes.length_ofU32, Bytes.field_ofU32_append,
      Nat.reduceSub, UInt32.ofNat_toNat, Int32.toInt32_toUInt32]
  toBlock_ofBlock b h := by
    simp only [Layout.size] at h
    simp (disch := omega) only [toBlock, ofBlock, Bytes.ofI32_i32At, Bytes.ofU32_u32At,
      List.drop_zero, ← List.take_add, Nat.reduceAdd, List.take_of_length_le]

theorem GroupSize.coded : Layout.group.Coded ofBlock toBlock fun _ => True where
  length := length_toBlock
  readable _ := trivial
  ofBlock_append g _ back := by
    simp (disch := simp) only [ofBlock, toBlock, Bytes.u16At, Bytes.u8At, List.append_assoc,
      List.cons_append, List.nil_append, Bytes.field_append_of_le, Bytes.length_ofU16,
      Bytes.field_ofU16_append, Bytes.field_cons_zero, Nat.reduceSub, UInt16.ofNat_toNat,
      UInt8.ofNat_toNat]
  toBlock_ofBlock b h := by
    simp only [Layout.size] at h
    simp (disch := omega) only [toBlock, ofBlock, Bytes.ofU16_u16At, Bytes.singleton_u8At,
      List.drop_zero, ← List.take_add, Nat.reduceAdd, List.take_of_length_le]

theorem BookEntry.coded : Layout.entry.Coded ofBlock toBlock Readable where
  length := length_toBlock
  readable _ := Side.readable_ofCode _
  ofBlock_append e hreadable back := by
    have hcodes : ofBlock (e.toBlock ++ back) = { e with side := .ofCode e.side.toCode } := by
      simp (disch := simp) only [ofBlock, toBlock, Bytes.i64At, Bytes.u64At, Bytes.u8At,
        Bytes.ofI64, List.append_assoc, List.cons_append, List.nil_append,
        Bytes.field_append_of_le, Bytes.length_ofU64, Bytes.field_ofU64_append,
        Bytes.field_cons_zero, Nat.reduceSub, UInt64.ofNat_toNat, UInt8.ofNat_toNat,
        Int64.toInt64_toUInt64]
    rw [hcodes, hreadable]
  toBlock_ofBlock b h := by
    simp only [Layout.size] at h
    simp (disch := omega) only [toBlock, ofBlock, Side.toCode_ofCode, Bytes.ofI64_i64At,
      Bytes.ofU64_u64At, Bytes.singleton_u8At, List.drop_zero, ← List.take_add, Nat.reduceAdd,
      List.take_of_length_le]

end MarketFeed
