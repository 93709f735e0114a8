import MarketFeed.Message
import MarketFeed.Proofs.Message.Layouts

/-!
# The Grammar of a Datagram

What may stand behind the headers of a datagram, by what it writes.

A message stands behind its frame. The frame names the template and declares
how long the message's block is; an update and an execution must declare
exactly their own length. A snapshot may declare more than its header needs,
and the entries of its group may be further apart than an entry is long. The
octets in between are extensions. They take up room, and they say nothing.

A message as it stands on the wire is therefore more than the message: it
has its frame, its extensions, and the entries that the snapshot will not
keep. All of that is determined by the octets, so at most one well-formed
message stands at any place.

Whether one stands there can be told without writing it out: by the length
that is left, the template, and the lengths that the frame and the group
declare. A snapshot may also be torn: it is there up to one of its entries,
and the octets end before the next.

## Main definitions

* `Framed`: A message as it stands on the wire.
* `Framed.octets`: What it writes.
* `Framed.WellFormed`: Its frame and its group declare what is there.
* `Framed.TornIn`: A snapshot of which only the end of the group is missing.
* `Framed.message`: What it says.
* `Framed.bare`: The same without what the extensions hold.
* `Framed.Begins`: A message begins here, told from the octets.
* `Framed.Laid`: Messages end to end from an offset on.

## Theorems

* `recover_octets_append`: A message on the wire is determined by its octets.
* `exists_stands_iff_begins`: One stands exactly where one begins.
* `Laid.prefix_of_longest`: A run that ends where no message begins is the
  longest.
-/

namespace MarketFeed

/-- A message as it stands on the wire. The octets of a snapshot's block beyond
    its header are kept as they are, and so is what each entry's block has
    beyond the entry. -/
inductive Framed
  /-- A change to an order. -/
  | update (frame : MessageFrame) (body : OrderUpdate)
  /-- A trade. -/
  | execution (frame : MessageFrame) (body : OrderExecution)
  /-- The state of a book. -/
  | snapshot (frame : MessageFrame) (header : SnapshotHeader) (extension : Bytes)
      (group : GroupSize) (blocks : List (BookEntry × Bytes))
  deriving DecidableEq, Repr

namespace Framed

/-- The frame in front of the message. -/
def frame : Framed → MessageFrame
  | .update frame _ => frame
  | .execution frame _ => frame
  | .snapshot frame _ _ _ _ => frame

/-- An entry and what its block has beyond it. -/
def blockOctets (block : BookEntry × Bytes) : Bytes := block.1.toBlock ++ block.2

/-- The octets behind the frame. -/
def body : Framed → Bytes
  | .update _ u => u.toBlock
  | .execution _ x => x.toBlock
  | .snapshot _ header extension group blocks =>
    header.toBlock ++ (extension ++ (group.toBlock ++ blocks.flatMap blockOctets))

/-- All octets of the message. -/
def octets (m : Framed) : Bytes := m.frame.toBlock ++ m.body

/-- The frame names the template of the message and the length of its block,
    and the head of a group says how many entries there are and how far they
    are apart. -/
def WellFormed : Framed → Prop
  | .update frame u => frame.templateId = 15 ∧ frame.blockLength.toNat = 50 ∧ u.Readable
  | .execution frame x => frame.templateId = 16 ∧ frame.blockLength.toNat = 74 ∧ x.Readable
  | .snapshot frame _ extension group blocks =>
    frame.templateId = 17 ∧ frame.blockLength.toNat = 16 + extension.length ∧
      57 ≤ group.blockSize.toNat ∧ group.numInGroup.toNat = blocks.length ∧
      ∀ block ∈ blocks, block.1.Readable ∧ group.blockSize.toNat = 57 + block.2.length

instance : DecidablePred WellFormed
  | .update frame u => inferInstanceAs (Decidable (frame.templateId = 15 ∧ _ ∧ u.Readable))
  | .execution frame x => inferInstanceAs (Decidable (frame.templateId = 16 ∧ _ ∧ x.Readable))
  | .snapshot frame _ extension group blocks =>
    inferInstanceAs (Decidable (frame.templateId = 17 ∧
      frame.blockLength.toNat = 16 + extension.length ∧ 57 ≤ group.blockSize.toNat ∧
      group.numInGroup.toNat = blocks.length ∧
      ∀ block ∈ blocks, block.1.Readable ∧ group.blockSize.toNat = 57 + block.2.length))

/-- A snapshot of which all is there but the end of its group. The head of the
    group announces more entries, and what is left is too short for the next. -/
def Torn (left : Bytes) : Framed → Prop
  | .snapshot frame _ extension group blocks =>
    frame.templateId = 17 ∧ frame.blockLength.toNat = 16 + extension.length ∧
      57 ≤ group.blockSize.toNat ∧ blocks.length < group.numInGroup.toNat ∧
      left.length < group.blockSize.toNat ∧
      ∀ block ∈ blocks, block.1.Readable ∧ group.blockSize.toNat = 57 + block.2.length
  | .update .. | .execution .. => False

/-- The input is a torn snapshot, and behind its last whole entry what is left. -/
def TornIn (input : Bytes) (m : Framed) : Prop := ∃ left, m.Torn left ∧ input = m.octets ++ left

/-- How many entries of the message's group are kept. -/
def kept : Framed → Nat
  | .snapshot _ _ _ _ blocks => (blocks.map (·.1)).countP Snapshot.keeps
  | .update .. | .execution .. => 0

/-- What the message says. A snapshot is built from its entries in order. -/
def message : Framed → Message
  | .update _ u => .update u
  | .execution _ x => .execution x
  | .snapshot _ header _ _ blocks => .snapshot (Snapshot.ofEntries header (blocks.map (·.1)))

/-- The message with nothing in its extensions. -/
def bare : Framed → Framed
  | .snapshot frame header _ group blocks =>
    .snapshot frame header [] group (blocks.map fun block => (block.1, []))
  | m => m

/-- Messages stand end to end from an offset on, and each of them begins before
    the limit. -/
inductive Laid (payload : Bytes) (limit : Nat) : Nat → List Framed → Nat → Prop
  | nil (offset : Nat) : Laid payload limit offset [] offset
  | cons {offset stop : Nat} {m : Framed} {rest : List Framed} (hlimit : offset < limit)
      (hwell : m.WellFormed) (hstands : m.octets <+: payload.drop offset)
      (hrest : Laid payload limit (offset + m.octets.length) rest stop) :
      Laid payload limit offset (m :: rest) stop

/-! ## A message is determined by its octets -/

variable {m : Framed} {payload input : Bytes} {blocks : List (BookEntry × Bytes)}
variable {limit offset stop : Nat}

/-- The entries that stand a given number of octets apart. -/
def blocksIn (stride : Nat) : Nat → Bytes → List (BookEntry × Bytes)
  | 0, _ => []
  | count + 1, input =>
    (BookEntry.ofBlock input, (input.drop 57).take (stride - 57)) ::
      blocksIn stride count (input.drop stride)

/-- The only message that may stand at the front of the input. -/
def recover (input : Bytes) : Framed :=
  let frame := MessageFrame.ofBlock input
  let body := input.drop 8
  let rootLength := frame.blockLength.toNat
  let group := GroupSize.ofBlock (body.drop rootLength)
  if frame.templateId = 15 then .update frame (OrderUpdate.ofBlock body)
  else if frame.templateId = 16 then .execution frame (OrderExecution.ofBlock body)
  else
    .snapshot frame (SnapshotHeader.ofBlock body) ((body.drop 16).take (rootLength - 16)) group
      (blocksIn group.blockSize.toNat group.numInGroup.toNat (body.drop (rootLength + 3)))

theorem length_blockOctets (block : BookEntry × Bytes) :
    (blockOctets block).length = 57 + block.2.length := by
  rw [blockOctets, List.length_append, BookEntry.length_toBlock, Layout.size]

/-- Blocks that are all equally long take their number times that length. -/
theorem length_flatMap_blockOctets {stride : Nat}
    (h : ∀ block ∈ blocks, block.1.Readable ∧ stride = 57 + block.2.length) :
    (blocks.flatMap blockOctets).length = blocks.length * stride := by
  induction blocks with
  | nil => rw [List.flatMap_nil, List.length_nil, List.length_nil, Nat.zero_mul]
  | cons block blocks ih =>
      rcases List.forall_mem_cons.mp h with ⟨⟨-, hstride⟩, hblocks⟩
      rw [List.flatMap_cons, List.length_append, ih hblocks, length_blockOctets, ← hstride,
        List.length_cons, Nat.succ_mul, Nat.add_comm]

/-- Blocks that were written are read back. The stride says where the next block
    begins, and the entry how much of the block is extension. -/
theorem blocksIn_append {stride : Nat}
    (h : ∀ block ∈ blocks, block.1.Readable ∧ stride = 57 + block.2.length) (rest : Bytes) :
    blocksIn stride blocks.length (blocks.flatMap blockOctets ++ rest) = blocks := by
  induction blocks with
  | nil => rfl
  | cons block blocks ih =>
      rcases List.forall_mem_cons.mp h with ⟨⟨hreadable, hstride⟩, hblocks⟩
      have hentry : block.1.toBlock.length = 57 := block.1.length_toBlock
      have hlength : (blockOctets block).length = stride := by
        rw [length_blockOctets, hstride]
      have hextension : ((blockOctets block ++ (blocks.flatMap blockOctets ++ rest)).drop 57).take
          (stride - 57) = block.2 := by
        rw [blockOctets, List.append_assoc, List.drop_left' hentry, List.take_left' (by omega)]
      rw [List.length_cons, blocksIn, List.flatMap_cons, List.append_assoc, hextension,
        List.drop_left' hlength, ih hblocks, blockOctets, List.append_assoc,
        BookEntry.coded.ofBlock_append _ hreadable]

/-- A message on the wire is determined by its octets, whatever follows it. -/
theorem recover_octets_append (h : m.WellFormed) (rest : Bytes) :
    recover (m.octets ++ rest) = m := by
  -- The frame tells the template and the length of the block, and with them
  -- the rest is read part by part.
  have hframe : MessageFrame.ofBlock (m.octets ++ rest) = m.frame := by
    rw [octets, List.append_assoc, MessageFrame.coded.ofBlock_append _ trivial]
  have hbody : (m.octets ++ rest).drop 8 = m.body ++ rest := by
    have hlength : m.frame.toBlock.length = 8 := m.frame.length_toBlock
    rw [octets, List.append_assoc, List.drop_left' hlength]
  cases m with
  | update frame u =>
      rcases h with ⟨htemplate, -, hreadable⟩
      simp only [recover, hframe, hbody, Framed.frame, htemplate, body, if_true,
        OrderUpdate.coded.ofBlock_append _ hreadable]
  | execution frame x =>
      rcases h with ⟨htemplate, -, hreadable⟩
      simp only [recover, hframe, hbody, Framed.frame, htemplate, body, if_true,
        OrderExecution.coded.ofBlock_append _ hreadable]
      rfl
  | snapshot frame header extension group blocks =>
      rcases h with ⟨htemplate, hroot, -, hcount, hblocks⟩
      have hheader : header.toBlock.length = 16 := header.length_toBlock
      have hdescriptor : group.toBlock.length = 3 := group.length_toBlock
      have hgroup : (body (.snapshot frame header extension group blocks) ++ rest).drop
          (16 + extension.length) = group.toBlock ++ (blocks.flatMap blockOctets ++ rest) := by
        simp only [body, List.append_assoc]
        rw [← List.drop_drop, List.drop_left' hheader, List.drop_left]
      have hfirst : (body (.snapshot frame header extension group blocks) ++ rest).drop
          (16 + extension.length + 3) = blocks.flatMap blockOctets ++ rest := by
        rw [← List.drop_drop, hgroup, List.drop_left' hdescriptor]
      have hextension : ((body (.snapshot frame header extension group blocks) ++ rest).drop
          16).take (16 + extension.length - 16) = extension := by
        simp only [body, List.append_assoc]
        rw [List.drop_left' hheader, List.take_left' (by omega)]
      simp only [recover, hframe, hbody, Framed.frame, htemplate, hroot, hgroup, hfirst,
        hextension, GroupSize.coded.ofBlock_append _ trivial, hcount]
      rw [if_neg (by decide), if_neg (by decide), blocksIn_append hblocks]
      simp only [body, List.append_assoc, SnapshotHeader.coded.ofBlock_append _ trivial]

/-- At most one well-formed message stands at the front of the input. -/
theorem WellFormed.unique {other : Framed} (h : m.WellFormed) (h' : other.WellFormed)
    (hstands : m.octets <+: input) (hstands' : other.octets <+: input) : m = other := by
  rcases hstands with ⟨rest, rfl⟩
  rcases hstands' with ⟨rest', heq⟩
  rw [← recover_octets_append h rest, ← heq, recover_octets_append h']

/-! ## Where a message begins -/

/-- A message begins here, told from the octets. There is a frame; an update or
    an execution declares its own length and is there in full; a snapshot
    declares at least its header, its blocks are at least as long as an entry,
    and the last of them ends within the input. -/
def Begins (input : Bytes) : Prop :=
  let frame := MessageFrame.ofBlock input
  let rootLength := frame.blockLength.toNat
  let group := GroupSize.ofBlock (input.drop (8 + rootLength))
  8 ≤ input.length ∧
    ((frame.templateId = 15 ∧ rootLength = 50 ∧ 8 + 50 ≤ input.length) ∨
      (frame.templateId = 16 ∧ rootLength = 74 ∧ 8 + 74 ≤ input.length) ∨
      (frame.templateId = 17 ∧ 16 ≤ rootLength ∧ 57 ≤ group.blockSize.toNat ∧
        8 + rootLength + 3 + group.numInGroup.toNat * group.blockSize.toNat ≤ input.length))

theorem length_blocksIn (stride count : Nat) (input : Bytes) :
    (blocksIn stride count input).length = count := by
  induction count generalizing input with
  | zero => rfl
  | succ count ih => rw [blocksIn, List.length_cons, ih]

/-- Blocks that the input reaches to the end of are readable and as long as they
    should be. -/
theorem of_mem_blocksIn {stride count : Nat} (hstride : 57 ≤ stride)
    (hlength : count * stride ≤ input.length) :
    ∀ block ∈ blocksIn stride count input, block.1.Readable ∧ stride = 57 + block.2.length := by
  induction count generalizing input with
  | zero => exact fun block hblock => (List.not_mem_nil hblock).elim
  | succ count ih =>
      rw [Nat.succ_mul] at hlength
      refine List.forall_mem_cons.mpr ⟨⟨BookEntry.coded.readable input, ?_⟩, ih ?_⟩
      · rw [List.length_take, List.length_drop]
        omega
      · rw [List.length_drop]
        omega

/-- Blocks that the input reaches to the end of are written back as they were
    read. -/
theorem flatMap_blocksIn {stride count : Nat} (hstride : 57 ≤ stride)
    (hlength : count * stride ≤ input.length) :
    (blocksIn stride count input).flatMap blockOctets = input.take (count * stride) := by
  induction count generalizing input with
  | zero => rw [Nat.zero_mul]; rfl
  | succ count ih =>
      rw [Nat.succ_mul] at hlength
      have hentry : input.take 57 = (BookEntry.ofBlock input).toBlock :=
        BookEntry.coded.take_eq_toBlock (by simp only [Layout.size]; omega)
      have hrest : count * stride ≤ (input.drop stride).length := by
        rw [List.length_drop]
        omega
      -- The block is the entry and what lies between it and the next.
      rw [blocksIn, List.flatMap_cons, ih hrest, blockOctets, ← hentry, ← List.take_add,
        Nat.add_sub_cancel' hstride, ← List.take_add, Nat.succ_mul, Nat.add_comm]

/-- Blocks stand in front of any octets, up to a count or until less than one is
    left. -/
theorem exists_blocks {stride : Nat} (hstride : 57 ≤ stride) (count : Nat) (input : Bytes) :
    ∃ (blocks : List (BookEntry × Bytes)) (rest : Bytes),
      input = blocks.flatMap blockOctets ++ rest ∧
      (∀ block ∈ blocks, block.1.Readable ∧ stride = 57 + block.2.length) ∧
      (blocks.length = count ∨ blocks.length < count ∧ rest.length < stride) := by
  -- As many blocks as the input has room for, unless fewer are asked for.
  have hfits : min count (input.length / stride) * stride ≤ input.length :=
    Nat.le_trans (Nat.mul_le_mul_right stride (Nat.min_le_right _ _)) (Nat.div_mul_le_self _ _)
  refine ⟨blocksIn stride (min count (input.length / stride)) input,
    input.drop (min count (input.length / stride) * stride), ?_, of_mem_blocksIn hstride hfits, ?_⟩
  · rw [flatMap_blocksIn hstride hfits, List.take_append_drop]
  · rw [length_blocksIn, List.length_drop]
    by_cases hall : count ≤ input.length / stride
    · exact Or.inl (Nat.min_eq_left hall)
    · rw [Nat.min_eq_right (by omega)]
      have hleft := Nat.mod_lt input.length (show 0 < stride by omega)
      rw [Nat.mod_eq_sub_div_mul] at hleft
      exact Or.inr ⟨by omega, hleft⟩

/-- Where a message begins, one stands. -/
theorem recover_of_begins (h : Begins input) :
    (recover input).WellFormed ∧ (recover input).octets <+: input := by
  rcases h with ⟨hroom, hkind⟩
  have hframe : input.take 8 = (MessageFrame.ofBlock input).toBlock :=
    MessageFrame.coded.take_eq_toBlock hroom
  have hbody : (input.drop 8).length = input.length - 8 := List.length_drop
  unfold recover
  rcases hkind with ⟨htemplate, hroot, hlength⟩ | ⟨htemplate, hroot, hlength⟩ |
    ⟨htemplate, hroot, hstride, hlength⟩
  · have hupdate : (input.drop 8).take 50 = (OrderUpdate.ofBlock (input.drop 8)).toBlock :=
      OrderUpdate.coded.take_eq_toBlock (by simp only [Layout.size]; omega)
    rw [if_pos htemplate]
    refine ⟨⟨htemplate, hroot, OrderUpdate.coded.readable _⟩, ?_⟩
    rw [octets, Framed.frame, body, ← hframe, ← hupdate, ← List.take_add]
    exact List.take_prefix _ _
  · have hexecution : (input.drop 8).take 74 = (OrderExecution.ofBlock (input.drop 8)).toBlock :=
      OrderExecution.coded.take_eq_toBlock (by simp only [Layout.size]; omega)
    rw [if_neg (by rw [htemplate]; decide), if_pos htemplate]
    refine ⟨⟨htemplate, hroot, OrderExecution.coded.readable _⟩, ?_⟩
    rw [octets, Framed.frame, body, ← hframe, ← hexecution, ← List.take_add]
    exact List.take_prefix _ _
  · have hheader : (input.drop 8).take 16 = (SnapshotHeader.ofBlock (input.drop 8)).toBlock :=
      SnapshotHeader.coded.take_eq_toBlock (by simp only [Layout.size]; omega)
    rw [if_neg (by rw [htemplate]; decide), if_neg (by rw [htemplate]; decide)]
    generalize hrootLength : (MessageFrame.ofBlock input).blockLength.toNat = rootLength at *
    have hdrop (count : Nat) : ((input.drop 8).drop count).length = input.length - 8 - count := by
      rw [List.length_drop, hbody]
    have hgroup : ((input.drop 8).drop rootLength).take 3
        = (GroupSize.ofBlock ((input.drop 8).drop rootLength)).toBlock :=
      GroupSize.coded.take_eq_toBlock (by simp only [Layout.size, hdrop]; omega)
    rw [← List.drop_drop] at hstride hlength
    have hblocks := hdrop (rootLength + 3)
    refine ⟨⟨htemplate, ?_, hstride, (length_blocksIn _ _ _).symm,
      of_mem_blocksIn hstride (by omega)⟩, ?_⟩
    · rw [hrootLength, List.length_take, hdrop]
      omega
    · -- Every part is a window, and the windows join up.
      rw [octets, Framed.frame, body, flatMap_blocksIn hstride (by omega), ← hframe, ← hheader,
        ← hgroup, ← List.drop_drop, ← List.take_add, ← List.append_assoc (List.take 16 _),
        ← List.take_add, Nat.add_sub_cancel' hroot, ← List.take_add, ← List.take_add]
      exact List.take_prefix _ _

/-- A well-formed message stands in front of the input exactly if one begins
    there. -/
theorem exists_stands_iff_begins :
    (∃ m : Framed, m.WellFormed ∧ m.octets <+: input) ↔ Begins input := by
  constructor
  · intro h
    rcases h with ⟨m, hwell, rest, rfl⟩
    have hframe : MessageFrame.ofBlock (m.octets ++ rest) = m.frame := by
      rw [octets, List.append_assoc, MessageFrame.coded.ofBlock_append _ trivial]
    have hlength : (m.octets ++ rest).length = 8 + m.body.length + rest.length := by
      rw [octets, List.length_append, List.length_append, m.frame.length_toBlock, Layout.size]
    -- What the octets tell is read off the parts that they were written from.
    unfold Begins
    simp only [hframe, hlength]
    refine ⟨by omega, ?_⟩
    cases m with
    | update frame u =>
        rcases hwell with ⟨htemplate, hroot, -⟩
        have hbody : (body (.update frame u)).length = 50 := u.length_toBlock
        exact Or.inl ⟨htemplate, hroot, by omega⟩
    | execution frame x =>
        rcases hwell with ⟨htemplate, hroot, -⟩
        have hbody : (body (.execution frame x)).length = 74 := x.length_toBlock
        exact Or.inr (Or.inl ⟨htemplate, hroot, by omega⟩)
    | snapshot frame header extension group blocks =>
        rcases hwell with ⟨htemplate, hroot, hstride, hcount, hblocks⟩
        have hfront : (frame.toBlock ++ (header.toBlock ++ extension)).length
            = 8 + frame.blockLength.toNat := by
          simp only [List.length_append, MessageFrame.length_toBlock,
            SnapshotHeader.length_toBlock, Layout.size, hroot]
        have hgroup : GroupSize.ofBlock ((octets (.snapshot frame header extension group blocks)
            ++ rest).drop (8 + frame.blockLength.toNat)) = group := by
          have happend : octets (.snapshot frame header extension group blocks) ++ rest
              = (frame.toBlock ++ (header.toBlock ++ extension))
                ++ (group.toBlock ++ (blocks.flatMap blockOctets ++ rest)) := by
            simp only [octets, Framed.frame, body, List.append_assoc]
          rw [happend, List.drop_left' hfront, GroupSize.coded.ofBlock_append _ trivial]
        have hbody : (body (.snapshot frame header extension group blocks)).length
            = frame.blockLength.toNat + 3 + blocks.length * group.blockSize.toNat := by
          simp only [body, List.length_append, header.length_toBlock, group.length_toBlock,
            length_flatMap_blockOctets hblocks, Layout.size, hroot]
          omega
        simp only [Framed.frame, hgroup, hbody, hcount]
        exact Or.inr (Or.inr ⟨htemplate, by omega, hstride, by omega⟩)
  · intro h
    exact ⟨recover input, recover_of_begins h⟩

/-! ## Messages end to end -/

variable {messages others : List Framed}

/-- A run that ends where no message begins continues every other run. -/
theorem Laid.prefix_of_longest {stop' : Nat} (h : Laid payload limit offset messages stop)
    (hlast : stop < limit → ¬ Begins (payload.drop stop))
    (h' : Laid payload limit offset others stop') : others <+: messages := by
  -- Along the run, the other run has the same message or ends.
  induction h generalizing others with
  | nil =>
      cases h' with
      | nil => exact List.prefix_refl []
      | cons hlimit hwell hstands _ =>
          exact absurd (exists_stands_iff_begins.mp ⟨_, hwell, hstands⟩) (hlast hlimit)
  | cons hlimit hwell hstands hrest ih =>
      cases h' with
      | nil => exact List.nil_prefix
      | cons _ hwell' hstands' hrest' =>
          rcases hwell.unique hwell' hstands hstands' with rfl
          exact List.cons_prefix_cons.mpr ⟨rfl, ih hlast hrest'⟩

end Framed

end MarketFeed
