import MarketFeed.Datagram.Decoder
import MarketFeed.Proofs.Datagram.Grammar

/-!
# One Message

What the decoder makes of the octets at one offset.

If a well-formed message stands there, it is dispatched, and the offset moves
behind it. If a message is dispatched, a well-formed one stands there: every
check that the decoder makes is a part of being well-formed, and what it has
read writes the octets that it was read from. So the decoder and the grammar
agree about one message, in both directions.

Everything that one frame and its message can lead to is said once, in one
case distinction over all listeners, and whatever is to be shown of a step of
the decoder follows from that.

A snapshot is the one message with a loop in it. The loop is over the
entries, and what holds of it is shown by induction on them: the entries that
stand there are put in one after the other. The loop can end early only where
the octets do, at a torn snapshot, and then the entries so far have been
counted.

Nothing in front of the offset plays a part, which is shown in the same order
as the reading is defined.

## Main definitions

* `Framed.after`: The decoder behind a message.
* `Decoder.passed`, `Decoder.stuck`: The decoder where no message stands.

## Theorems

* `readEntries_append`, `readEntries_of_torn`: Entries are read where they
  stand, and only there.
* `stride_of_stands`: A message is dispatched where it stands.
* `stride_of_torn`: A torn snapshot is an error.
* `update_cases`, `execution_cases`, `snapshot_cases`: What can be behind a frame.
* `stride_cases`: What one frame and its message can lead to.
* `readPayload_cases`: What a datagram can lead to before its first frame.
* `decode_eq`: What is counted after the last.
* `stride_congr`: Only what follows the offset is looked at.
-/

namespace MarketFeed

/-- The decoder behind a message. -/
def Framed.after (m : Framed) (d : Decoder) : Decoder :=
  let d := { d with lastFrame := some m.frame }
  match m with
  | .update _ _ => d.count fun c => { c with orderUpdates := c.orderUpdates + 1 }
  | .execution _ _ => d.count fun c => { c with orderExecutions := c.orderExecutions + 1 }
  | .snapshot _ _ _ _ blocks =>
    (d.count fun c =>
        { c with
          snapshotEntries := c.snapshotEntries + (blocks.map (·.1)).countP Snapshot.keeps }).count
      fun c => { c with orderBookSnapshots := c.orderBookSnapshots + 1 }

/-! ## Entries -/

namespace Snapshot

open Framed

variable {payload payload' rest : Bytes} {stride offset count k : Nat} {s found : Snapshot}
variable {blocks : List (BookEntry × Bytes)}

/-- The entries that stand there are put in, and the reading goes on behind
    them. -/
theorem readEntries_blocks
    (h : ∀ block ∈ blocks, block.1.Readable ∧ stride = 57 + block.2.length)
    (hstands : payload.drop offset = blocks.flatMap blockOctets ++ rest) (more : Nat) :
    readEntries payload stride (blocks.length + more) offset s k
      = readEntries payload stride more (offset + blocks.length * stride)
          ((blocks.map (·.1)).foldl insert s) (k + (blocks.map (·.1)).countP keeps) := by
  -- The entries that are to come are counted apart, since a torn group has more
  -- of them than there are blocks.
  induction blocks generalizing offset s k with
  | nil => simp only [List.length_nil, Nat.zero_add, Nat.zero_mul, Nat.add_zero, List.map_nil,
      List.foldl_nil, List.countP_nil]
  | cons block blocks ih =>
      rcases List.forall_mem_cons.mp h with ⟨⟨hreadable, hstride⟩, hblocks⟩
      rw [List.flatMap_cons, List.append_assoc] at hstands
      have hlength : (blockOctets block).length = stride := by
        rw [length_blockOctets, hstride]
      have hroom : ¬ payload.length - offset < stride := by
        have hdrop := congrArg List.length hstands
        rw [List.length_drop, List.length_append, hlength] at hdrop
        omega
      have hentry : BookEntry.read payload offset = .ok block.1 := by
        rw [blockOctets, List.append_assoc] at hstands
        exact BookEntry.coded.read_append hreadable hstands
      have hrest : payload.drop (offset + stride) = blocks.flatMap blockOctets ++ rest := by
        rw [← List.drop_drop, hstands, List.drop_left' hlength]
      have hnext : offset + (blocks.length + 1) * stride
          = offset + stride + blocks.length * stride := by
        rw [Nat.succ_mul]
        omega
      rw [List.length_cons, Nat.add_right_comm, hnext]
      simp only [readEntries, hroom, if_false, hentry, put_eq]
      rw [ih hblocks hrest, List.map_cons, List.foldl_cons, List.countP_cons]
      split <;> simp only [Nat.add_assoc, Nat.add_comm 1, Nat.add_zero]

/-- Entries that stand at an offset are read, and all are put in. -/
theorem readEntries_append
    (h : ∀ block ∈ blocks, block.1.Readable ∧ stride = 57 + block.2.length)
    (hstands : payload.drop offset = blocks.flatMap blockOctets ++ rest) :
    readEntries payload stride blocks.length offset s k
      = (.ok ((blocks.map (·.1)).foldl insert s),
          k + (blocks.map (·.1)).countP keeps) :=
  readEntries_blocks h hstands 0

/-- Where less than a block is left, the next entry is missing. -/
theorem readEntries_of_torn
    (h : ∀ block ∈ blocks, block.1.Readable ∧ stride = 57 + block.2.length)
    (hstands : payload.drop offset = blocks.flatMap blockOctets ++ rest)
    (hcount : blocks.length < count) (hrest : rest.length < stride) :
    readEntries payload stride count offset s k
      = (.error (Layout.entry.truncatedAt payload (offset + blocks.length * stride) stride),
          k + (blocks.map (·.1)).countP keeps) := by
  obtain ⟨more, rfl⟩ := Nat.exists_eq_add_of_lt hcount
  have hdrop := congrArg List.length hstands
  rw [List.length_drop, List.length_append, length_flatMap_blockOctets h] at hdrop
  rw [Nat.add_assoc, readEntries_blocks h hstands, readEntries, if_pos (by omega)]

theorem readEntries_congr (h : payload.drop offset = payload'.drop offset) :
    readEntries payload stride count offset s k
      = readEntries payload' stride count offset s k := by
  induction count generalizing offset s k with
  | zero => rfl
  | succ count ih =>
      have hlength := congrArg List.length h
      rw [List.length_drop, List.length_drop] at hlength
      have hnext : payload.drop (offset + stride) = payload'.drop (offset + stride) := by
        rw [← List.drop_drop, h, List.drop_drop]
      simp only [readEntries, BookEntry.read, Layout.truncatedAt, Layout.block_congr h, hlength,
        ih hnext]

end Snapshot

namespace Decoder

open Framed

variable {σ : Type} {listen : Listener σ} {payload payload' rest : Bytes} {offset used : Nat}
variable {m : Framed} {d d' : Decoder} {s s' : σ}

/-- The decoder at a message that could not be read. The entries that were read
    before the fault have been counted. -/
def stuck (d : Decoder) (frame : Option MessageFrame) (entries : Nat) : Decoder :=
  { d with
    lastFrame := frame
    stats := { d.stats with snapshotEntries := d.stats.snapshotEntries + entries } }

/-- The decoder at a frame without a template. -/
def passed (d : Decoder) (frame : MessageFrame) : Decoder :=
  { d with
    lastFrame := some frame
    stats := { d.stats with unknownTemplates := d.stats.unknownTemplates + 1 } }

/-! ## A message that stands there is dispatched -/

/-- Where the parts of a snapshot in front of its entries stand, the entries
    decide. -/
theorem snapshot_of_front {frame : MessageFrame} {header : SnapshotHeader} {extension : Bytes}
    {group : GroupSize} (hroot : frame.blockLength.toNat = 16 + extension.length)
    (hstride : 57 ≤ group.blockSize.toNat)
    (hstands : payload.drop offset = header.toBlock ++ (extension ++ (group.toBlock ++ rest))) :
    payload.drop (offset + (16 + extension.length) + Layout.group.size) = rest ∧
      ∀ outcome kept, Snapshot.readEntries payload group.blockSize.toNat group.numInGroup.toNat
          (offset + (16 + extension.length) + Layout.group.size) { header } 0 = (outcome, kept) →
        snapshot listen payload offset frame d s =
          match outcome with
          | .error e => .failed e (d.count fun c =>
              { c with snapshotEntries := c.snapshotEntries + kept })
          | .ok found =>
            .dispatched
              (16 + extension.length + Layout.group.size
                + group.numInGroup.toNat * group.blockSize.toNat)
              ((d.count fun c => { c with snapshotEntries := c.snapshotEntries + kept }).count
                fun c => { c with orderBookSnapshots := c.orderBookSnapshots + 1 })
              (listen d.envelope (.snapshot found) s) := by
  have hlength : (header.toBlock ++ extension).length = 16 + extension.length := by
    rw [List.length_append, header.length_toBlock, Layout.size]
  have hheader : SnapshotHeader.read payload offset = .ok header :=
    SnapshotHeader.coded.read_append trivial hstands
  -- The group stands behind the block, and the entries behind its head.
  have hgroup : payload.drop (offset + (16 + extension.length)) = group.toBlock ++ rest := by
    rw [← List.drop_drop, hstands, ← List.append_assoc, List.drop_left' hlength]
  have hsize : GroupSize.read payload (offset + (16 + extension.length)) = .ok group :=
    GroupSize.coded.read_append trivial hgroup
  have hroom : ¬ 16 + extension.length < Layout.snapshotHeader.size := by
    simp only [Layout.size]
    omega
  have hwide : ¬ group.blockSize.toNat < Layout.entry.size := by
    simp only [Layout.size]
    omega
  refine ⟨?_, fun outcome kept hentries => ?_⟩
  · rw [← List.drop_drop, hgroup, List.drop_left' group.length_toBlock]
  · unfold snapshot
    simp only [hroot, if_neg hroom, hheader, hsize, if_neg hwide, hentries]
    rfl

/-- A snapshot that stands at an offset is dispatched, and its octets are
    used. -/
theorem snapshot_of_stands {frame : MessageFrame} {header : SnapshotHeader} {extension : Bytes}
    {group : GroupSize} {blocks : List (BookEntry × Bytes)}
    (hwell : (Framed.snapshot frame header extension group blocks).WellFormed)
    (hstands : payload.drop offset
      = (Framed.snapshot frame header extension group blocks).body ++ rest) :
    snapshot listen payload offset frame d s
      = .dispatched (16 + extension.length + 3 + blocks.length * group.blockSize.toNat)
          ((d.count fun c =>
              { c with snapshotEntries :=
                  c.snapshotEntries + (blocks.map (·.1)).countP Snapshot.keeps }).count
            fun c => { c with orderBookSnapshots := c.orderBookSnapshots + 1 })
          (listen d.envelope
            (.snapshot (Snapshot.ofEntries header (blocks.map (·.1)))) s) := by
  rcases hwell with ⟨-, hroot, hstride, hcount, hblocks⟩
  simp only [body, List.append_assoc] at hstands
  obtain ⟨hfirst, hread⟩ := snapshot_of_front hroot hstride hstands
  have hentries : Snapshot.readEntries payload group.blockSize.toNat group.numInGroup.toNat
      (offset + (16 + extension.length) + Layout.group.size) { header } 0
        = (.ok (Snapshot.ofEntries header (blocks.map (·.1))),
            0 + (blocks.map (·.1)).countP Snapshot.keeps) := by
    rw [hcount]
    exact Snapshot.readEntries_append hblocks hfirst
  rw [hread _ _ hentries, hcount, Nat.zero_add]
  rfl

/-- The entries of a torn snapshot are counted before the next is missed. -/
theorem snapshot_of_torn {frame : MessageFrame} {header : SnapshotHeader} {extension : Bytes}
    {group : GroupSize} {blocks : List (BookEntry × Bytes)} {left : Bytes}
    (htorn : (Framed.snapshot frame header extension group blocks).Torn left)
    (hstands : payload.drop offset
      = (Framed.snapshot frame header extension group blocks).body ++ left) :
    snapshot listen payload offset frame d s
      = .failed
          (Layout.entry.truncatedAt payload
            (offset + (16 + extension.length) + Layout.group.size
              + blocks.length * group.blockSize.toNat) group.blockSize.toNat)
          (d.stuck d.lastFrame (Framed.snapshot frame header extension group blocks).kept) := by
  rcases htorn with ⟨-, hroot, hstride, hcount, hleft, hblocks⟩
  simp only [body, List.append_assoc] at hstands
  obtain ⟨hfirst, hread⟩ := snapshot_of_front hroot hstride hstands
  rw [hread _ _ (Snapshot.readEntries_of_torn hblocks hfirst hcount hleft), Nat.zero_add]
  rfl

/-- Where a message stands its frame is read, and behind it stands the rest of
    it. -/
theorem frame_of_stands (hstands : payload.drop offset = m.octets ++ rest) :
    MessageFrame.read payload offset = .ok m.frame ∧
      payload.drop (offset + Layout.frame.size) = m.body ++ rest := by
  rw [octets, List.append_assoc] at hstands
  refine ⟨MessageFrame.coded.read_append trivial hstands, ?_⟩
  rw [← List.drop_drop, hstands, List.drop_left' m.frame.length_toBlock]

/-- A well-formed message that stands there is dispatched. -/
theorem stride_of_stands (hwell : m.WellFormed) (hstands : payload.drop offset = m.octets ++ rest) :
    stride listen payload offset d s
      = .dispatched m.body.length (m.after d) (listen d.envelope m.message s) := by
  rcases frame_of_stands hstands with ⟨hframe, hbody⟩
  unfold stride
  simp only [hframe]
  cases m with
  | update frame u =>
      rcases hwell with ⟨htemplate, hroot, hreadable⟩
      have hread : OrderUpdate.read payload (offset + Layout.frame.size) = .ok u :=
        OrderUpdate.coded.read_append hreadable hbody
      have hkind : Template.ofNumber? frame.templateId = some .orderUpdate := by
        rw [htemplate]
        rfl
      simp only [Framed.frame, hkind, update, hread, body, u.length_toBlock]
      exact if_pos hroot
  | execution frame x =>
      rcases hwell with ⟨htemplate, hroot, hreadable⟩
      have hread : OrderExecution.read payload (offset + Layout.frame.size) = .ok x :=
        OrderExecution.coded.read_append hreadable hbody
      have hkind : Template.ofNumber? frame.templateId = some .orderExecution := by
        rw [htemplate]
        rfl
      simp only [Framed.frame, hkind, execution, hread, body, x.length_toBlock]
      exact if_pos hroot
  | snapshot frame header extension group blocks =>
      have hkind : Template.ofNumber? frame.templateId = some .bookSnapshot := by
        rw [hwell.1]
        rfl
      have hlength : (Framed.snapshot frame header extension group blocks).body.length
          = 16 + extension.length + 3 + blocks.length * group.blockSize.toNat := by
        simp only [body, List.length_append, header.length_toBlock, group.length_toBlock,
          length_flatMap_blockOctets hwell.2.2.2.2, Layout.size]
        omega
      simp only [Framed.frame, hkind]
      rw [snapshot_of_stands hwell hbody, hlength]
      rfl

/-- A torn snapshot is an error, with the entries that are there counted. -/
theorem stride_of_torn (d : Decoder) (htorn : TornIn (payload.drop offset) m) :
    ∃ e, ∀ {σ : Type} (listen : Listener σ) (s : σ),
      stride listen payload offset d s = .failed e (d.stuck (some m.frame) m.kept) := by
  rcases htorn with ⟨left, htorn, hstands⟩
  rcases frame_of_stands hstands with ⟨hframe, hbody⟩
  cases m with
  | update => exact htorn.elim
  | execution => exact htorn.elim
  | snapshot frame header extension group blocks =>
      have hkind : Template.ofNumber? frame.templateId = some .bookSnapshot := by
        rw [htorn.1]
        rfl
      refine ⟨Layout.entry.truncatedAt payload
        (offset + Layout.frame.size + (16 + extension.length) + Layout.group.size
          + blocks.length * group.blockSize.toNat) group.blockSize.toNat, fun listen s => ?_⟩
      unfold stride
      simp only [hframe, Framed.frame, hkind]
      rw [snapshot_of_torn htorn hbody]
      rfl

/-! ## What one frame and its message can lead to -/

/-- What was read of a snapshot in front of its entries stands there. -/
theorem exists_front_of_reads {header : SnapshotHeader} {group : GroupSize} {rootLength : Nat}
    (hroot : 16 ≤ rootLength) (hheader : SnapshotHeader.read payload offset = .ok header)
    (hgroup : GroupSize.read payload (offset + rootLength) = .ok group) :
    ∃ extension : Bytes, rootLength = 16 + extension.length ∧
      payload.drop offset = header.toBlock
        ++ (extension ++ (group.toBlock ++ payload.drop (offset + rootLength + 3))) := by
  rcases SnapshotHeader.coded.eq_append_of_read hheader with ⟨-, hstands⟩
  rcases GroupSize.coded.eq_append_of_read hgroup with ⟨-, hbehind⟩
  have hlength := congrArg List.length hbehind
  simp only [Layout.size, List.length_drop, List.length_append, group.length_toBlock]
    at hstands hbehind hlength
  -- What the block has beyond the header is in front of the group.
  refine ⟨(payload.drop (offset + 16)).take (rootLength - 16), ?_, ?_⟩
  · rw [List.length_take, List.length_drop]
    omega
  · have hextension : payload.drop (offset + 16)
        = (payload.drop (offset + 16)).take (rootLength - 16)
          ++ payload.drop (offset + rootLength) := by
      rw [← Nat.add_sub_add_left offset rootLength 16]
      exact Bytes.drop_eq_take_append (by omega)
    rw [← hbehind, ← hextension]
    exact hstands

/-- Behind the frame of an update one stands, or it fails whoever listens. -/
theorem update_cases (payload : Bytes) (offset : Nat) {frame : MessageFrame}
    (htemplate : frame.templateId = 15) :
    (∃ (u : OrderUpdate) (rest : Bytes), (Framed.update frame u).WellFormed ∧
      payload.drop offset = (Framed.update frame u).body ++ rest) ∨
    ∃ e, ∀ {σ : Type} (listen : Listener σ) (d : Decoder) (s : σ),
      update listen payload offset frame d s = .failed e d := by
  by_cases hroot : frame.blockLength.toNat = Layout.update.size
  · cases hread : OrderUpdate.read payload offset with
    | error e =>
        refine Or.inr ⟨e, fun listen d s => ?_⟩
        simp only [update, if_pos hroot, hread]
    | ok u =>
        rcases OrderUpdate.coded.eq_append_of_read hread with ⟨hreadable, hbody⟩
        exact Or.inl ⟨u, _, ⟨htemplate, hroot, hreadable⟩, hbody⟩
  · refine Or.inr ⟨wrongLength frame Layout.update.size, fun listen d s => ?_⟩
    simp only [update, if_neg hroot]

/-- Behind the frame of an execution one stands, or it fails whoever listens. -/
theorem execution_cases (payload : Bytes) (offset : Nat) {frame : MessageFrame}
    (htemplate : frame.templateId = 16) :
    (∃ (x : OrderExecution) (rest : Bytes), (Framed.execution frame x).WellFormed ∧
      payload.drop offset = (Framed.execution frame x).body ++ rest) ∨
    ∃ e, ∀ {σ : Type} (listen : Listener σ) (d : Decoder) (s : σ),
      execution listen payload offset frame d s = .failed e d := by
  by_cases hroot : frame.blockLength.toNat = Layout.execution.size
  · cases hread : OrderExecution.read payload offset with
    | error e =>
        refine Or.inr ⟨e, fun listen d s => ?_⟩
        simp only [execution, if_pos hroot, hread]
    | ok x =>
        rcases OrderExecution.coded.eq_append_of_read hread with ⟨hreadable, hbody⟩
        exact Or.inl ⟨x, _, ⟨htemplate, hroot, hreadable⟩, hbody⟩
  · refine Or.inr ⟨wrongLength frame Layout.execution.size, fun listen d s => ?_⟩
    simp only [execution, if_neg hroot]

/-- Behind the frame of a snapshot one stands, or one is torn, or it fails
    whoever listens. -/
theorem snapshot_cases (payload : Bytes) (offset : Nat) {frame : MessageFrame}
    (htemplate : frame.templateId = 17) :
    (∃ (header : SnapshotHeader) (extension : Bytes) (group : GroupSize)
        (blocks : List (BookEntry × Bytes)) (rest : Bytes),
        (Framed.snapshot frame header extension group blocks).WellFormed ∧
        payload.drop offset
          = (Framed.snapshot frame header extension group blocks).body ++ rest) ∨
    (∃ (header : SnapshotHeader) (extension : Bytes) (group : GroupSize)
        (blocks : List (BookEntry × Bytes)) (left : Bytes),
        (Framed.snapshot frame header extension group blocks).Torn left ∧
        payload.drop offset
          = (Framed.snapshot frame header extension group blocks).body ++ left) ∨
      ∃ e, ∀ {σ : Type} (listen : Listener σ) (d : Decoder) (s : σ),
        snapshot listen payload offset frame d s = .failed e d := by
  by_cases hroom : frame.blockLength.toNat < Layout.snapshotHeader.size
  · refine Or.inr (Or.inr ⟨wrongLength frame Layout.snapshotHeader.size, fun listen d s => ?_⟩)
    simp only [snapshot, if_pos hroom]
  · cases hheader : SnapshotHeader.read payload offset with
    | error e =>
        refine Or.inr (Or.inr ⟨e, fun listen d s => ?_⟩)
        simp only [snapshot, if_neg hroom, hheader]
    | ok header =>
        cases hsize : GroupSize.read payload (offset + frame.blockLength.toNat) with
        | error e =>
            refine Or.inr (Or.inr ⟨e, fun listen d s => ?_⟩)
            simp only [snapshot, if_neg hroom, hheader, hsize]
        | ok group =>
            by_cases hwide : group.blockSize.toNat < Layout.entry.size
            · refine Or.inr (Or.inr ⟨.groupBlockTooSmall group.blockSize Layout.entry.size,
                fun listen d s => ?_⟩)
              simp only [snapshot, if_neg hroom, hheader, hsize, if_pos hwide]
            · simp only [Layout.size] at hroom hwide
              rcases exists_front_of_reads (by omega) hheader hsize
                with ⟨extension, hroot, hstands⟩
              -- What follows the head of the group is entries, as many as it
              -- announces or as many as there are.
              rcases exists_blocks (Nat.not_lt.mp hwide) group.numInGroup.toNat
                (payload.drop (offset + frame.blockLength.toNat + 3))
                with ⟨blocks, left, hbehind, hblocks, hcount | ⟨hcount, hleft⟩⟩
              · refine Or.inl ⟨header, extension, group, blocks, left,
                  ⟨htemplate, hroot, by omega, hcount.symm, hblocks⟩, ?_⟩
                simp only [body, List.append_assoc]
                rw [← hbehind]
                exact hstands
              · refine Or.inr (Or.inl ⟨header, extension, group, blocks, left,
                  ⟨htemplate, hroot, by omega, hcount, hleft, hblocks⟩, ?_⟩)
                simp only [body, List.append_assoc]
                rw [← hbehind]
                exact hstands

/-- Either a well-formed message stands at the offset and is dispatched, or a
    frame without a template does, or there is an error. Only at a torn snapshot
    have entries been counted then. Which of them it is does not depend on who
    listens. -/
theorem stride_cases (payload : Bytes) (offset : Nat) (d : Decoder) :
    (∃ (m : Framed) (rest : Bytes), m.WellFormed ∧ payload.drop offset = m.octets ++ rest ∧
      ∀ {σ : Type} (listen : Listener σ) (s : σ), stride listen payload offset d s
        = .dispatched m.body.length (m.after d) (listen d.envelope m.message s)) ∨
    (∃ frame, MessageFrame.read payload offset = .ok frame ∧
      Template.ofNumber? frame.templateId = none ∧
      ∀ {σ : Type} (listen : Listener σ) (s : σ), stride listen payload offset d s
        = .unknownTemplate (d.passed frame)) ∨
    (∃ e frame entries, (entries = 0 ∨ ∃ m, TornIn (payload.drop offset) m) ∧
      ∀ {σ : Type} (listen : Listener σ) (s : σ),
        stride listen payload offset d s = .failed e (d.stuck frame entries)) := by
  -- Each of the three kinds either stands there whole, and then it is dispatched,
  -- or ends in an error that no listener can change.
  cases hframe : MessageFrame.read payload offset with
  | error e =>
      refine Or.inr (Or.inr ⟨e, d.lastFrame, 0, Or.inl rfl, fun listen s => ?_⟩)
      simp only [stride, hframe]
      rfl
  | ok frame =>
      rcases MessageFrame.coded.eq_append_of_read hframe with ⟨-, hstands⟩
      cases hkind : Template.ofNumber? frame.templateId with
      | none =>
          refine Or.inr (Or.inl ⟨frame, rfl, hkind, fun listen s => ?_⟩)
          simp only [stride, hframe, hkind]
          rfl
      | some kind =>
          have hnumber := (Template.number_of_ofNumber? hkind).symm
          cases kind with
          | orderUpdate =>
              rcases update_cases payload (offset + Layout.frame.size) hnumber with
                ⟨u, rest, hwell, hbody⟩ | ⟨e, hfailed⟩
              · rw [hbody, ← List.append_assoc] at hstands
                exact Or.inl ⟨.update frame u, rest, hwell, hstands, fun listen s =>
                  stride_of_stands hwell hstands⟩
              · refine Or.inr (Or.inr ⟨e, some frame, 0, Or.inl rfl, fun listen s => ?_⟩)
                simp only [stride, hframe, hkind]
                rw [hfailed]
                rfl
          | orderExecution =>
              rcases execution_cases payload (offset + Layout.frame.size) hnumber with
                ⟨x, rest, hwell, hbody⟩ | ⟨e, hfailed⟩
              · rw [hbody, ← List.append_assoc] at hstands
                exact Or.inl ⟨.execution frame x, rest, hwell, hstands, fun listen s =>
                  stride_of_stands hwell hstands⟩
              · refine Or.inr (Or.inr ⟨e, some frame, 0, Or.inl rfl, fun listen s => ?_⟩)
                simp only [stride, hframe, hkind]
                rw [hfailed]
                rfl
          | bookSnapshot =>
              rcases snapshot_cases payload (offset + Layout.frame.size) hnumber with
                ⟨header, extension, group, blocks, rest, hwell, hbody⟩ |
                ⟨header, extension, group, blocks, left, htorn, hbody⟩ | ⟨e, hfailed⟩
              · rw [hbody, ← List.append_assoc] at hstands
                exact Or.inl ⟨.snapshot frame header extension group blocks, rest, hwell, hstands,
                  fun listen s => stride_of_stands hwell hstands⟩
              · rw [hbody, ← List.append_assoc] at hstands
                rcases stride_of_torn d ⟨left, htorn, hstands⟩ with ⟨e, hfailed⟩
                exact Or.inr (Or.inr ⟨e, _, _, Or.inr ⟨_, left, htorn, hstands⟩, hfailed⟩)
              · refine Or.inr (Or.inr ⟨e, some frame, 0, Or.inl rfl, fun listen s => ?_⟩)
                simp only [stride, hframe, hkind]
                rw [hfailed]
                rfl

/-! ## Around the frames -/

/-- Either a header is missing, or what is behind the headers is gone through.
    Which of them it is does not depend on who listens. -/
theorem readPayload_cases (payload : Bytes) (d : Decoder) :
    (∃ e d', d'.stats = d.stats ∧ ∀ {σ : Type} (listen : Listener σ) (s : σ),
      readPayload listen payload d s = ⟨.error e, d', s⟩) ∨
    (∃ limit offset d', d'.stats = d.stats ∧ ∀ {σ : Type} (listen : Listener σ) (s : σ),
      readPayload listen payload d s = walk listen payload limit offset 0 d' s) := by
  cases henvelope : Envelope.read payload 0 with
  | error e =>
      refine Or.inl ⟨e, d, rfl, fun listen s => ?_⟩
      simp only [readPayload, henvelope]
  | ok envelope =>
      by_cases hflag : envelope.isIncremental = true
      · cases hheader : IncrementalHeader.read payload Layout.envelope.size with
        | error e =>
            refine Or.inl ⟨e, { d with envelope }, rfl, fun listen s => ?_⟩
            simp only [readPayload, henvelope, if_pos hflag, hheader]
        | ok header =>
            refine Or.inr ⟨envelope.messageSize.toNat,
              Layout.envelope.size + Layout.incremental.size,
              { d with envelope, incremental := some header }, rfl, fun listen s => ?_⟩
            simp only [readPayload, henvelope, if_pos hflag, hheader]
      · refine Or.inr ⟨envelope.messageSize.toNat, Layout.envelope.size, { d with envelope }, rfl,
          fun listen s => ?_⟩
        simp only [readPayload, henvelope, if_neg hflag]

/-- After the reading an error is counted, and nothing else happens. -/
theorem decode_eq (listen : Listener σ) (payload : Bytes) (d : Decoder) (s : σ) :
    decode listen payload d s
      = ⟨(readPayload listen payload d.start s).result,
          (readPayload listen payload d.start s).decoder.count fun c =>
            { c with
              decodeErrors := c.decodeErrors +
                if (readPayload listen payload d.start s).result.isOk then 0 else 1 },
          (readPayload listen payload d.start s).heard⟩ := by
  unfold decode
  cases hout : readPayload listen payload d.start s with
  | mk result decoder heard => cases result <;> rfl

theorem heard_decode :
    (decode listen payload d s).heard = (readPayload listen payload d.start s).heard := by
  rw [decode_eq]

theorem result_decode :
    (decode listen payload d s).result = (readPayload listen payload d.start s).result := by
  rw [decode_eq]

/-! ## What stands in front of the offset plays no part -/

theorem drop_congr (h : payload.drop offset = payload'.drop offset) (count : Nat) :
    payload.drop (offset + count) = payload'.drop (offset + count) := by
  rw [← List.drop_drop, h, List.drop_drop]

theorem snapshot_congr (h : payload.drop offset = payload'.drop offset) (frame : MessageFrame) :
    snapshot listen payload offset frame d s = snapshot listen payload' offset frame d s := by
  -- Each structure is read at the offset or behind it.
  have hgroup := drop_congr h frame.blockLength.toNat
  simp only [snapshot, SnapshotHeader.read, GroupSize.read, Layout.block_congr h,
    Layout.block_congr hgroup, Snapshot.readEntries_congr (drop_congr hgroup Layout.group.size)]

/-- One frame and its message depend on nothing in front of the offset. -/
theorem stride_congr (h : payload.drop offset = payload'.drop offset) :
    stride listen payload offset d s = stride listen payload' offset d s := by
  have hbody := drop_congr h Layout.frame.size
  simp only [stride, MessageFrame.read, update, OrderUpdate.read, execution, OrderExecution.read,
    Layout.block_congr h, Layout.block_congr hbody, snapshot_congr hbody]

end Decoder

end MarketFeed
