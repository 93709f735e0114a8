import MarketFeed.Proofs.Datagram.Isolation
import Mathlib.Algebra.Ring.Nat

/-!
# The Decoder, Step by Step

The decoder once more, with everything written down that it does to reach
into a datagram.

That reading is bounded cannot be said of `decode`: its value is the outcome,
and the offsets that were computed and the octets that were taken on the way
are gone. Here they are kept beside the value. The decoder below is the same
function by function, but its offsets come from `advance` alone and its octets
from `slice` alone, and either leaves a step behind. Forgetting the steps
gives the decoder back, which is shown in the order in which the functions
call each other.

A structure is taken as one range of the payload, and its fields are ranges
of that range. Which ones is a table, and no structure depends on any octet
outside of them.

## Main definitions

* `Step`: An offset that is computed, a range that is taken, or a message that
  is dispatched.
* `Traced`: A value and the steps that led to it.
* `Layout.fields`: Where the fields of a structure lie.
* `Traced.decode`: Reading one datagram, with its steps.

## Theorems

* `takesFields` of each structure: It depends on its fields only.
* `value_stride`, `value_walk`, `value_decode`: Without the steps it is the
  decoder.
-/

namespace MarketFeed

/-- What the decoder does to reach into a payload. -/
inductive Step
  /-- An offset was computed. -/
  | offset (value : Nat)
  /-- The octets from the first place up to the last were taken. -/
  | slice (first last : Nat)
  /-- A message was dispatched, and reading goes on behind it. -/
  | message (next : Nat)
  deriving DecidableEq, Repr

/-- A value and the steps that led to it. -/
structure Traced (α : Type) where
  value : α
  steps : List Step

namespace Layout

/-- How many octets each field has. -/
def widths : Layout → List Nat
  | .envelope => [4, 2, 2, 8]
  | .incremental => [8, 4]
  | .frame => [2, 2, 2, 2]
  | .update => [8, 8, 8, 8, 8, 4, 4, 1, 1]
  | .execution => [8, 8, 8, 8, 8, 8, 8, 8, 4, 4, 1, 1]
  | .snapshotHeader => [4, 4, 4, 4]
  | .group => [2, 1]
  | .entry => [8, 8, 8, 8, 8, 8, 8, 1]

/-- Ranges of these widths, each of which begins where the last one ends. -/
def rangesFrom (first : Nat) : List Nat → List (Nat × Nat)
  | [] => []
  | width :: rest => (first, first + width) :: rangesFrom (first + width) rest

theorem length_rangesFrom (first : Nat) (widths : List Nat) :
    (rangesFrom first widths).length = widths.length := by
  induction widths generalizing first with
  | nil => rfl
  | cons width rest ih => rw [rangesFrom, List.length_cons, List.length_cons, ih]

/-- The fields of a structure take all of it. -/
theorem sum_widths (layout : Layout) : layout.widths.sum = layout.size := by
  cases layout <;> rfl

/-- The range of a field lies within the structure. -/
theorem of_mem_rangesFrom {first : Nat} {widths : List Nat} {range : Nat × Nat}
    (h : range ∈ rangesFrom first widths) :
    first ≤ range.1 ∧ range.1 ≤ range.2 ∧ range.2 ≤ first + widths.sum := by
  induction widths generalizing first with
  | nil => cases h
  | cons width rest ih =>
      rw [List.sum_cons]
      rcases List.mem_cons.mp h with rfl | hrest
      · exact ⟨Nat.le_refl _, by omega, by omega⟩
      · have hbehind := ih hrest
        exact ⟨by omega, by omega, by omega⟩

/-- What is made of a structure's octets depends on its fields only. -/
def TakesFields {α : Type} (layout : Layout) (ofBlock : Bytes → α) : Prop :=
  ∀ b b' : Bytes, (∀ range ∈ rangesFrom 0 layout.widths,
      b.field range.1 (range.2 - range.1) = b'.field range.1 (range.2 - range.1)) →
    ofBlock b = ofBlock b'

end Layout

theorem Envelope.takesFields : Layout.envelope.TakesFields ofBlock := by
  intro b b' h
  simp only [Layout.widths, Layout.rangesFrom, List.forall_mem_cons] at h
  simp only [ofBlock, Bytes.u16At, Bytes.u32At, Bytes.u64At, h]

theorem IncrementalHeader.takesFields : Layout.incremental.TakesFields ofBlock := by
  intro b b' h
  simp only [Layout.widths, Layout.rangesFrom, List.forall_mem_cons] at h
  simp only [ofBlock, Bytes.u32At, Bytes.u64At, h]

theorem MessageFrame.takesFields : Layout.frame.TakesFields ofBlock := by
  intro b b' h
  simp only [Layout.widths, Layout.rangesFrom, List.forall_mem_cons] at h
  simp only [ofBlock, Bytes.u16At, h]

theorem OrderUpdate.takesFields : Layout.update.TakesFields ofBlock := by
  intro b b' h
  simp only [Layout.widths, Layout.rangesFrom, List.forall_mem_cons] at h
  simp only [ofBlock, Bytes.i64At, Bytes.u64At, Bytes.i32At, Bytes.u32At, Bytes.u8At, h]

theorem OrderExecution.takesFields : Layout.execution.TakesFields ofBlock := by
  intro b b' h
  simp only [Layout.widths, Layout.rangesFrom, List.forall_mem_cons] at h
  simp only [ofBlock, Bytes.i64At, Bytes.u64At, Bytes.i32At, Bytes.u32At, Bytes.u8At, h]

theorem SnapshotHeader.takesFields : Layout.snapshotHeader.TakesFields ofBlock := by
  intro b b' h
  simp only [Layout.widths, Layout.rangesFrom, List.forall_mem_cons] at h
  simp only [ofBlock, Bytes.i32At, Bytes.u32At, h]

theorem GroupSize.takesFields : Layout.group.TakesFields ofBlock := by
  intro b b' h
  simp only [Layout.widths, Layout.rangesFrom, List.forall_mem_cons] at h
  simp only [ofBlock, Bytes.u16At, Bytes.u8At, h]

theorem BookEntry.takesFields : Layout.entry.TakesFields ofBlock := by
  intro b b' h
  simp only [Layout.widths, Layout.rangesFrom, List.forall_mem_cons] at h
  simp only [ofBlock, Bytes.i64At, Bytes.u64At, Bytes.u8At, h]

/-! ## The decoder with its steps -/

namespace Traced

variable {α β : Type}

instance : Monad Traced where
  pure a := ⟨a, []⟩
  bind x f := ⟨(f x.value).value, x.steps ++ (f x.value).steps⟩

variable {σ : Type}

/-- The offset this much further on. -/
def advance (offset count : Nat) : Traced Nat := ⟨offset + count, [.offset (offset + count)]⟩

/-- The octets of a range. -/
def slice (payload : Bytes) (first last : Nat) : Traced Bytes :=
  ⟨(payload.drop first).take (last - first), [.slice first last]⟩

/-- The fields of a structure, one after the other. -/
def fields (layout : Layout) (offset : Nat) : Traced Unit :=
  ⟨(), (Layout.rangesFrom offset layout.widths).map fun range => .slice range.1 range.2⟩

/-- The structure at an offset. -/
def read (layout : Layout) (ofBlock : Bytes → α) (payload : Bytes) (offset : Nat) :
    Traced (Except DecodeError α) := do
  let last ← advance offset layout.size
  if last ≤ payload.length then
    let found ← slice payload offset last
    fields layout offset
    pure (.ok (ofBlock found))
  else pure (.error (layout.truncatedAt payload offset layout.size))

/-- Entries that lie `stride` octets apart, and the offset at which their
    reading ends. -/
def readEntries (payload : Bytes) (stride : Nat) : (count offset : Nat) → Snapshot →
    (kept : Nat) → Traced ((Except DecodeError Snapshot × Nat) × Nat)
  | 0, offset, s, kept => pure ((.ok s, kept), offset)
  | count + 1, offset, s, kept =>
    if payload.length - offset < stride then
      pure ((.error (Layout.entry.truncatedAt payload offset stride), kept), offset)
    else do
      match ← read .entry BookEntry.ofBlock payload offset with
      | .error e => pure ((.error e, kept), offset)
      | .ok entry =>
        let next ← advance offset stride
        let found := s.put entry
        readEntries payload stride count next found.1 (if found.2 then kept + 1 else kept)

/-- The update behind a frame. -/
def update (listen : Listener σ) (payload : Bytes) (offset : Nat) (frame : MessageFrame)
    (d : Decoder) (s : σ) : Traced (Decoder.Stride σ) :=
  if frame.blockLength.toNat = Layout.update.size then do
    match ← read .update OrderUpdate.ofBlock payload offset with
    | .error e => pure (.failed e d)
    | .ok u =>
      let next ← advance offset Layout.update.size
      pure (.dispatched (next - offset)
        (d.count fun c => { c with orderUpdates := c.orderUpdates + 1 })
        (listen d.envelope (.update u) s))
  else pure (.failed (Decoder.wrongLength frame Layout.update.size) d)

/-- The execution behind a frame. -/
def execution (listen : Listener σ) (payload : Bytes) (offset : Nat) (frame : MessageFrame)
    (d : Decoder) (s : σ) : Traced (Decoder.Stride σ) :=
  if frame.blockLength.toNat = Layout.execution.size then do
    match ← read .execution OrderExecution.ofBlock payload offset with
    | .error e => pure (.failed e d)
    | .ok x =>
      let next ← advance offset Layout.execution.size
      pure (.dispatched (next - offset)
        (d.count fun c => { c with orderExecutions := c.orderExecutions + 1 })
        (listen d.envelope (.execution x) s))
  else pure (.failed (Decoder.wrongLength frame Layout.execution.size) d)

/-- The snapshot behind a frame. -/
def snapshot (listen : Listener σ) (payload : Bytes) (offset : Nat) (frame : MessageFrame)
    (d : Decoder) (s : σ) : Traced (Decoder.Stride σ) :=
  let rootLength := frame.blockLength.toNat
  if rootLength < Layout.snapshotHeader.size then
    pure (.failed (Decoder.wrongLength frame Layout.snapshotHeader.size) d)
  else do
    match ← read .snapshotHeader SnapshotHeader.ofBlock payload offset with
    | .error e => pure (.failed e d)
    | .ok header =>
      let behindRoot ← advance offset rootLength
      match ← read .group GroupSize.ofBlock payload behindRoot with
      | .error e => pure (.failed e d)
      | .ok group =>
        let stride := group.blockSize.toNat
        if stride < Layout.entry.size then
          pure (.failed (.groupBlockTooSmall group.blockSize Layout.entry.size) d)
        else
          let start ← advance behindRoot Layout.group.size
          let ((outcome, kept), behind) ←
            readEntries payload stride group.numInGroup.toNat start { header } 0
          let d := d.count fun c => { c with snapshotEntries := c.snapshotEntries + kept }
          match outcome with
          | .error e => pure (.failed e d)
          | .ok found =>
            pure (.dispatched (behind - offset)
              (d.count fun c => { c with orderBookSnapshots := c.orderBookSnapshots + 1 })
              (listen d.envelope (.snapshot found) s))

/-- The frame at an offset and the message behind it. -/
def stride (listen : Listener σ) (payload : Bytes) (offset : Nat) (d : Decoder) (s : σ) :
    Traced (Decoder.Stride σ) := do
  match ← read .frame MessageFrame.ofBlock payload offset with
  | .error e => pure (.failed e d)
  | .ok frame =>
    let d := { d with lastFrame := some frame }
    let body ← advance offset Layout.frame.size
    match Template.ofNumber? frame.templateId with
    | none =>
      pure (.unknownTemplate (d.count fun c => { c with unknownTemplates := c.unknownTemplates + 1 }))
    | some .orderUpdate => update listen payload body frame d s
    | some .orderExecution => execution listen payload body frame d s
    | some .bookSnapshot => snapshot listen payload body frame d s

/-- Message after message from an offset on, while it lies before the declared
    size. -/
def walk (listen : Listener σ) (payload : Bytes) (limit offset dispatched : Nat) (d : Decoder)
    (s : σ) : Traced (Reading σ) :=
  if offset < limit then
    match stride listen payload offset d s with
    | ⟨.dispatched used d s, steps⟩ =>
      let next := offset + Layout.frame.size + used
      let rest := walk listen payload limit next (dispatched + 1) d s
      ⟨rest.value, steps ++ .message next :: rest.steps⟩
    | ⟨.unknownTemplate d, steps⟩ => ⟨⟨.ok dispatched, d, s⟩, steps⟩
    | ⟨.failed e d, steps⟩ => ⟨⟨.error e, d, s⟩, steps⟩
  else pure ⟨.ok dispatched, d, s⟩
termination_by limit - offset
decreasing_by
  simp only [Layout.size]
  omega

/-- The headers of a datagram, and then its messages. -/
def readPayload (listen : Listener σ) (payload : Bytes) (d : Decoder) (s : σ) :
    Traced (Reading σ) := do
  match ← read .envelope Envelope.ofBlock payload 0 with
  | .error e => pure ⟨.error e, d, s⟩
  | .ok envelope =>
    let d := { d with envelope }
    let limit := envelope.messageSize.toNat
    let offset := Layout.envelope.size
    if envelope.isIncremental then
      match ← read .incremental IncrementalHeader.ofBlock payload offset with
      | .error e => pure ⟨.error e, d, s⟩
      | .ok header =>
        let body ← advance offset Layout.incremental.size
        walk listen payload limit body 0 { d with incremental := some header } s
    else walk listen payload limit offset 0 d s

/-- One datagram. -/
def decode (listen : Listener σ) (payload : Bytes) (d : Decoder) (s : σ) : Traced (Reading σ) := do
  let reading ← readPayload listen payload d.start s
  match reading.result with
  | .ok _ => pure reading
  | .error _ =>
    pure { reading with
      decoder := reading.decoder.count fun c => { c with decodeErrors := c.decodeErrors + 1 } }

/-! ## Without the steps -/

variable {listen : Listener σ} {payload : Bytes} {offset : Nat} {d : Decoder} {s : σ}

@[simp] theorem value_pure (a : α) : (pure a : Traced α).value = a := rfl

@[simp] theorem steps_pure (a : α) : (pure a : Traced α).steps = [] := rfl

@[simp] theorem value_bind (x : Traced α) (f : α → Traced β) :
    (x >>= f).value = (f x.value).value := rfl

@[simp] theorem value_advance (offset count : Nat) : (advance offset count).value = offset + count :=
  rfl

theorem bind_eq (x : Traced α) (f : α → Traced β) :
    x >>= f = ⟨(f x.value).value, x.steps ++ (f x.value).steps⟩ := rfl

/-- Reading a structure that is there takes its window and the ranges of its
    fields. -/
theorem read_of_fits {layout : Layout} (ofBlock : Bytes → α)
    (hfits : offset + layout.size ≤ payload.length) :
    read layout ofBlock payload offset
      = ⟨.ok (ofBlock ((payload.drop offset).take layout.size)),
          .offset (offset + layout.size) :: .slice offset (offset + layout.size) ::
            (Layout.rangesFrom offset layout.widths).map fun range => .slice range.1 range.2⟩ := by
  have hlast : (advance offset layout.size).value ≤ payload.length := hfits
  have hsize : (advance offset layout.size).value - offset = layout.size :=
    Nat.add_sub_cancel_left _ _
  simp only [read, bind_eq, if_pos hlast, slice, hsize, steps_pure, List.append_nil]
  rfl

/-- Reading a structure that is not there computes where it would end. -/
theorem read_of_not_fits {layout : Layout} (ofBlock : Bytes → α)
    (hfits : ¬ offset + layout.size ≤ payload.length) :
    read layout ofBlock payload offset
      = ⟨.error (layout.truncatedAt payload offset layout.size), [.offset (offset + layout.size)]⟩ := by
  have hlast : ¬ (advance offset layout.size).value ≤ payload.length := hfits
  simp only [read, bind_eq, if_neg hlast]
  rfl

@[simp] theorem value_read (layout : Layout) (ofBlock : Bytes → α) (payload : Bytes)
    (offset : Nat) : (read layout ofBlock payload offset).value
      = (layout.block payload offset).map ofBlock := by
  rw [Layout.block, Bytes.window?]
  by_cases hfits : offset + layout.size ≤ payload.length
  · rw [read_of_fits ofBlock hfits, if_pos hfits]
    rfl
  · rw [read_of_not_fits ofBlock hfits, if_neg hfits]
    rfl

/-- Tracing does not change what entries are read, or where they end. -/
theorem value_readEntries (payload : Bytes) (stride count offset : Nat) (found : Snapshot)
    (kept : Nat) :
    (readEntries payload stride count offset found kept).value.1
        = Snapshot.readEntries payload stride count offset found kept ∧
      ((Snapshot.readEntries payload stride count offset found kept).1.isOk →
        (readEntries payload stride count offset found kept).value.2 = offset + count * stride) := by
  induction count generalizing offset found kept with
  | zero =>
      rw [Nat.zero_mul]
      exact ⟨rfl, fun _ => rfl⟩
  | succ count ih =>
      unfold readEntries Snapshot.readEntries
      by_cases hroom : payload.length - offset < stride
      · rw [if_pos hroom, if_pos hroom]
        exact ⟨rfl, fun hok => by cases hok⟩
      · rw [if_neg hroom, if_neg hroom]
        simp only [value_bind, value_read, BookEntry.read]
        cases (Layout.entry.block payload offset).map BookEntry.ofBlock with
        | error e => exact ⟨rfl, fun hok => by cases hok⟩
        | ok entry =>
            rw [Nat.succ_mul, Nat.add_comm (count * stride), ← Nat.add_assoc]
            exact ih _ _ _

theorem value_update (frame : MessageFrame) :
    (update listen payload offset frame d s).value
      = Decoder.update listen payload offset frame d s := by
  unfold update Decoder.update
  by_cases hlength : frame.blockLength.toNat = Layout.update.size
  · rw [if_pos hlength, if_pos hlength]
    simp only [value_bind, value_read, OrderUpdate.read]
    cases (Layout.update.block payload offset).map OrderUpdate.ofBlock with
    | error e => rfl
    | ok u => simp only [value_bind, value_advance, value_pure, Nat.add_sub_cancel_left]
  · rw [if_neg hlength, if_neg hlength]
    rfl

theorem value_execution (frame : MessageFrame) :
    (execution listen payload offset frame d s).value
      = Decoder.execution listen payload offset frame d s := by
  unfold execution Decoder.execution
  by_cases hlength : frame.blockLength.toNat = Layout.execution.size
  · rw [if_pos hlength, if_pos hlength]
    simp only [value_bind, value_read, OrderExecution.read]
    cases (Layout.execution.block payload offset).map OrderExecution.ofBlock with
    | error e => rfl
    | ok x => simp only [value_bind, value_advance, value_pure, Nat.add_sub_cancel_left]
  · rw [if_neg hlength, if_neg hlength]
    rfl

theorem value_snapshot (frame : MessageFrame) :
    (snapshot listen payload offset frame d s).value
      = Decoder.snapshot listen payload offset frame d s := by
  unfold snapshot Decoder.snapshot
  by_cases hroot : frame.blockLength.toNat < Layout.snapshotHeader.size
  · simp only [if_pos hroot, value_pure]
  · simp only [if_neg hroot, value_bind, value_read, SnapshotHeader.read]
    cases (Layout.snapshotHeader.block payload offset).map SnapshotHeader.ofBlock with
    | error e => rfl
    | ok header =>
        simp only [value_bind, value_advance, value_read, GroupSize.read]
        cases (Layout.group.block payload (offset + frame.blockLength.toNat)).map
            GroupSize.ofBlock with
        | error e => rfl
        | ok group =>
            by_cases hstride : group.blockSize.toNat < Layout.entry.size
            · simp only [if_pos hstride, value_pure]
            · simp only [if_neg hstride, value_bind, value_advance]
              have hentries := value_readEntries payload group.blockSize.toNat
                group.numInGroup.toNat (offset + frame.blockLength.toNat + Layout.group.size)
                { header } 0
              -- The tracing loop also carries where it stands, and only its
              -- first part is the result.
              generalize readEntries payload group.blockSize.toNat group.numInGroup.toNat
                (offset + frame.blockLength.toNat + Layout.group.size) { header } 0 = run
                at hentries ⊢
              rcases run with ⟨⟨⟨outcome, kept⟩, behind⟩, steps⟩
              rcases hentries with ⟨hentries, hbehind⟩
              rw [← hentries] at hbehind ⊢
              cases outcome with
              | error e => rfl
              | ok found =>
                  have hplace : behind = offset + frame.blockLength.toNat + Layout.group.size
                    + group.numInGroup.toNat * group.blockSize.toNat := hbehind rfl
                  have hused : behind - offset = frame.blockLength.toNat + Layout.group.size
                      + group.numInGroup.toNat * group.blockSize.toNat := by
                    omega
                  simp only [value_pure, hused]

theorem value_stride (listen : Listener σ) (payload : Bytes) (offset : Nat) (d : Decoder) (s : σ) :
    (stride listen payload offset d s).value = Decoder.stride listen payload offset d s := by
  unfold stride Decoder.stride
  simp only [value_bind, value_read, MessageFrame.read]
  cases (Layout.frame.block payload offset).map MessageFrame.ofBlock with
  | error e => rfl
  | ok frame =>
      simp only [value_bind, value_advance]
      cases Template.ofNumber? frame.templateId with
      | none => rfl
      | some kind =>
          cases kind with
          | orderUpdate => exact value_update frame
          | orderExecution => exact value_execution frame
          | bookSnapshot => exact value_snapshot frame

theorem value_walk (limit n : Nat) : (walk listen payload limit offset n d s).value
    = Decoder.walk listen payload limit offset n d s := by
  -- Either walk makes the same stride.
  have hsame : ∀ offset d (s : σ), Decoder.stride listen payload offset d s
      = (stride listen payload offset d s).value := fun offset d s =>
    (value_stride listen payload offset d s).symm
  fun_induction walk listen payload limit offset n d s with
  | case1 offset n d s hlimit used d' s' steps hstride next rest ih =>
      rw [Decoder.walk, if_pos hlimit, hsame, hstride]
      exact ih
  | case2 offset n d s hlimit d' steps hstride =>
      rw [Decoder.walk, if_pos hlimit, hsame, hstride]
  | case3 offset n d s hlimit e d' steps hstride =>
      rw [Decoder.walk, if_pos hlimit, hsame, hstride]
  | case4 offset n d s hlimit =>
      rw [Decoder.walk, if_neg hlimit]
      rfl

theorem value_readPayload : (readPayload listen payload d s).value
    = Decoder.readPayload listen payload d s := by
  unfold readPayload Decoder.readPayload
  simp only [value_bind, value_read, Envelope.read]
  cases (Layout.envelope.block payload 0).map Envelope.ofBlock with
  | error e => rfl
  | ok envelope =>
      by_cases hflag : envelope.isIncremental
      · simp only [hflag, if_true, value_bind, value_read, IncrementalHeader.read]
        cases (Layout.incremental.block payload Layout.envelope.size).map
            IncrementalHeader.ofBlock with
        | error e => rfl
        | ok header => exact value_walk _ _
      · simp only [if_neg hflag]
        exact value_walk _ _

/-- Tracing does not change what decoding leads to. -/
theorem value_decode (listen : Listener σ) (payload : Bytes) (d : Decoder) (s : σ) :
    (decode listen payload d s).value = Decoder.decode listen payload d s := by
  unfold decode Decoder.decode
  simp only [value_bind, value_readPayload]
  cases (Decoder.readPayload listen payload d.start s).result <;> rfl

end Traced

end MarketFeed
