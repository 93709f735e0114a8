import MarketFeed.Proofs.Datagram.DeclaredSize
import MarketFeed.Proofs.Datagram.Steps

/-!
# No Datagram Leads Too Far

What reading can cost, whatever octets a datagram has.

The numbers that move the offset are the datagram's own: the length of a
block, the distance between entries, how many there are. Nothing bounds them
but their width. So an offset is computed before it is known to lie in the
payload, and it may lie up to a block's length and a group's head behind it.
What keeps reading inside is that nothing is taken and no message dispatched
before the range has been compared with the end.

The invariant of the walk is that the offset lies in the payload. A stride
from there that dispatches a message ends in the payload again, further on,
and has taken fewer steps than it has passed octets; a stride that does not is
the last one. So the steps are paid for by octets, up to one that failed. No
message is shorter than a snapshot without entries, which is twenty-seven
octets, and that bounds how many there can be.

## Main definitions

* `Step.Inside`: A step reaches no further than it may.
* `Traced.Reads`: All steps are inside, and there are not too many.
* `Framed.ends`: Where messages end that stand end to end.
* `Decoder.Bounded`: What holds of every call.

## Theorems

* `steps_stride`: What a stride costs, and where it ends.
* `steps_walk`: What the walk costs.
* `nexts_walk_of_laid`: Where reading goes on behind each message.
* `Laid.length_le`: How many messages there can be.
* `decode_bounded`: Every call is bounded.
-/

namespace MarketFeed

/-- A step that reaches into a payload of `n` octets: an offset no more than a
    block's length and the head of a group behind a frame at its end, or a range
    within it. -/
def Step.Inside (n : Nat) : Step → Prop
  | .offset value => value ≤ n + 65535 + 11
  | .slice first last => first ≤ last ∧ last ≤ n
  | .message _ => False

/-- Where reading goes on behind a message. -/
def Step.next? : Step → Option Nat
  | .message next => some next
  | _ => none

namespace Framed

/-- Where messages end that stand end to end from an offset on. -/
def ends : Nat → List Framed → List Nat
  | _, [] => []
  | offset, m :: rest => (offset + m.octets.length) :: ends (offset + m.octets.length) rest

variable {payload : Bytes} {limit offset stop : Nat} {messages : List Framed}

theorem length_ends (offset : Nat) (messages : List Framed) :
    (ends offset messages).length = messages.length := by
  induction messages generalizing offset with
  | nil => rfl
  | cons m rest ih => rw [ends, List.length_cons, List.length_cons, ih]

/-- The shortest message is a snapshot without entries. -/
theorem WellFormed.length_octets_ge {m : Framed} (h : m.WellFormed) : 27 ≤ m.octets.length := by
  rw [length_octets]
  cases m with
  | update frame u =>
      rw [body, u.length_toBlock]
      decide
  | execution frame x =>
      rw [body, x.length_toBlock]
      decide
  | snapshot frame header extension group blocks =>
      simp only [body, List.length_append, header.length_toBlock, group.length_toBlock, Layout.size]
      omega

/-- A message takes octets, so behind each of them reading goes on at a larger
    offset. -/
theorem isChain_ends (h : Laid payload limit offset messages stop) :
    (offset :: ends offset messages).IsChain (· < ·) := by
  induction h with
  | nil => exact .singleton _
  | cons _ hwell _ _ ih =>
      have hlength := hwell.length_octets_ge
      exact .cons_cons (by omega) ih

/-- Every message ends within the payload. -/
theorem Laid.ends_le (h : Laid payload limit offset messages stop) :
    ∀ next ∈ ends offset messages, next ≤ payload.length := by
  induction h with
  | nil => exact fun _ hmem => (List.not_mem_nil hmem).elim
  | @cons offset stop m rest _ hwell hstands _ ih =>
      have hlength := hstands.length_le
      rw [List.length_drop] at hlength
      have hpositive := hwell.length_octets_ge
      exact List.forall_mem_cons.mpr ⟨by omega, ih⟩

/-- Messages take up room, and the last of them begins before the limit. -/
theorem Laid.length_le (h : Laid payload limit offset messages stop)
    (hoffset : offset ≤ payload.length) : offset + 27 * messages.length ≤ payload.length ∧
      (messages ≠ [] → offset + 27 * (messages.length - 1) < limit) := by
  -- The second part is about the last message alone, which begins behind all
  -- the others, so it comes from the rest if there is one.
  induction h with
  | nil => exact ⟨hoffset, fun hne => absurd rfl hne⟩
  | @cons offset stop m rest hlimit hwell hstands hrest ih =>
      have hroom := hstands.length_le
      rw [List.length_drop] at hroom
      have hlength := hwell.length_octets_ge
      rcases ih (by omega) with ⟨hle, hlt⟩
      rw [List.length_cons]
      refine ⟨by omega, fun _ => ?_⟩
      cases rest with
      | nil => exact hlimit
      | cons m' rest' =>
          have hbefore := hlt (List.cons_ne_nil m' rest')
          rw [List.length_cons] at hbefore ⊢
          omega

end Framed

namespace Traced

/-! ## Steps and what they cost -/

variable {α β σ : Type} {x : Traced α} {f : α → Traced β} {n cost more : Nat}

/-- The steps are inside, and there are no more of them than this. -/
structure Reads (n : Nat) (x : Traced α) (cost : Nat) : Prop where
  inside : ∀ step ∈ x.steps, step.Inside n
  length : x.steps.length ≤ cost

theorem Reads.mono (h : x.Reads n cost) (hle : cost ≤ more) : x.Reads n more :=
  ⟨h.inside, h.length.trans hle⟩

theorem reads_pure (a : α) : (pure a : Traced α).Reads n 0 :=
  ⟨fun _ hstep => (List.not_mem_nil hstep).elim, Nat.le_refl _⟩

/-- What is done with a value is paid for beside how the value came about. -/
theorem Reads.bind {a : α} {total : Nat} (h : x.Reads n cost) (hvalue : x.value = a)
    (hf : (f a).Reads n more) (hle : cost + more ≤ total) : (x >>= f).Reads n total := by
  subst hvalue
  rw [bind_eq]
  refine ⟨List.forall_mem_append.mpr ⟨h.inside, hf.inside⟩, ?_⟩
  rw [List.length_append]
  exact (Nat.add_le_add h.length hf.length).trans hle

theorem value_bind_of {a : α} (hvalue : x.value = a) : (x >>= f).value = (f a).value :=
  congrArg (fun a => (f a).value) hvalue

theorem reads_advance {offset count : Nat} (h : offset + count ≤ n + 65535 + 11) :
    (advance offset count).Reads n 1 :=
  ⟨List.forall_mem_singleton.mpr h, Nat.le_refl _⟩

section Read

variable {payload : Bytes} {layout : Layout} {ofBlock : Bytes → α} {offset : Nat}

/-- A structure that is there is one range, and its fields are ranges of it. -/
theorem reads_of_ok {a : α} (h : (read layout ofBlock payload offset).value = .ok a) :
    (read layout ofBlock payload offset).Reads payload.length (2 + layout.widths.length) ∧
      offset + layout.size ≤ payload.length := by
  have hfits : offset + layout.size ≤ payload.length := by
    rw [value_read] at h
    cases hblock : layout.block payload offset with
    | error e =>
        rw [hblock] at h
        cases h
    | ok found => exact (Layout.block_eq_ok_iff.mp hblock).1
  -- One offset, one window, and one range for each field.
  refine ⟨?_, hfits⟩
  rw [read_of_fits ofBlock hfits]
  constructor
  · refine List.forall_mem_cons.mpr ⟨?_, List.forall_mem_cons.mpr
      ⟨⟨Nat.le_add_right _ _, hfits⟩, List.forall_mem_map.mpr fun range hrange => ?_⟩⟩
    · exact hfits.trans (Nat.le_add_right payload.length (65535 + 11))
    · have hfield := Layout.of_mem_rangesFrom hrange
      rw [layout.sum_widths] at hfield
      exact ⟨hfield.2.1, hfield.2.2.trans hfits⟩
  · rw [List.length_cons, List.length_cons, List.length_map, Layout.length_rangesFrom]
    omega

/-- A structure that the payload reaches to the end of is read. -/
theorem exists_ok_of_fits (ofBlock : Bytes → α) (hfits : offset + layout.size ≤ payload.length) :
    ∃ a, (read layout ofBlock payload offset).value = .ok a := by
  rw [read_of_fits ofBlock hfits]
  exact ⟨_, rfl⟩

/-- A structure that is not there costs the offset of its end. -/
theorem reads_of_error {e : DecodeError}
    (h : (read layout ofBlock payload offset).value = .error e)
    (hreach : offset + layout.size ≤ payload.length + 65535 + 11) :
    (read layout ofBlock payload offset).Reads payload.length 1 := by
  have hfits : ¬ offset + layout.size ≤ payload.length := by
    intro hfits
    rw [read_of_fits ofBlock hfits] at h
    cases h
  rw [read_of_not_fits ofBlock hfits]
  exact ⟨List.forall_mem_singleton.mpr hreach, Nat.le_refl _⟩

end Read

variable {payload : Bytes} {offset : Nat} {listen : Listener σ} {d : Decoder} {s : σ}

/-- Entries are paid for by the octets that they are apart. -/
theorem reads_readEntries {stride : Nat} (hstride : 57 ≤ stride) (count : Nat) (found : Snapshot)
    (kept : Nat) (h : offset ≤ payload.length) :
    ((readEntries payload stride count offset found kept).Reads payload.length
        (min (count * stride) (payload.length - offset))) ∧
      ((readEntries payload stride count offset found kept).value.1.1.isOk →
        (readEntries payload stride count offset found kept).value.2 = offset + count * stride ∧
          offset + count * stride ≤ payload.length) := by
  induction count generalizing offset found kept with
  | zero =>
      rw [Nat.zero_mul]
      exact ⟨(reads_pure _).mono (Nat.zero_le _), fun _ => ⟨rfl, h⟩⟩
  | succ count ih =>
      unfold readEntries
      -- The check for room costs nothing. An entry costs its window and fields,
      -- and one more for the next offset, which is less than it is long.
      by_cases hroom : payload.length - offset < stride
      · rw [if_pos hroom]
        exact ⟨(reads_pure _).mono (Nat.zero_le _), fun hok => by cases hok⟩
      · rw [if_neg hroom, Nat.succ_mul]
        have hspaced : Layout.entry.size ≤ payload.length - offset := by
          simp only [Layout.size]
          omega
        cases hread : (read .entry BookEntry.ofBlock payload offset).value with
        | error e =>
            have hentry := reads_of_error hread (by omega)
            rw [value_bind_of hread]
            refine ⟨hentry.bind hread (reads_pure _) ?_, fun hok => by cases hok⟩
            simp only [Layout.size] at hspaced
            omega
        | ok entry =>
            have hentry := (reads_of_ok hread).1
            have hnext : (advance offset stride).Reads payload.length 1 :=
              reads_advance (by omega)
            rcases ih (found.put entry).1 (if (found.put entry).2 then kept + 1 else kept)
              (show offset + stride ≤ payload.length by omega) with ⟨hrest, hbehind⟩
            rw [value_bind_of hread]
            refine ⟨hentry.bind hread (hnext.bind rfl hrest (Nat.le_refl _)) ?_, fun hok => ?_⟩
            · simp only [Layout.widths, List.length_cons, List.length_nil]
              omega
            · rcases hbehind hok with ⟨hplace, hend⟩
              exact ⟨hplace.trans (by omega), by omega⟩

/-- What stands behind a frame has been read from an offset on, after steps that
    are owed and with octets in hand. If a message was dispatched, its octets pay
    for what is owed and for its own steps, and it ends in the payload. If not,
    the octets that are left pay for all but the step that failed. -/
structure Strides (n offset owed inHand : Nat) (x : Traced (Decoder.Stride σ)) : Prop where
  inside : ∀ step ∈ x.steps, step.Inside n
  paid : match x.value with
    | .dispatched used _ _ => owed + x.steps.length ≤ inHand + used ∧ offset + used ≤ n
    | .unknownTemplate _ | .failed _ _ => owed + x.steps.length ≤ inHand + (n - offset) + 1

/-- A reading that fails takes no step itself, and what is left pays for what is
    owed. -/
theorem strides_failed {owed : Nat} {e : DecodeError} (h : owed ≤ n - offset + 1) :
    (pure (.failed e d) : Traced (Decoder.Stride σ)).Strides n offset owed 0 := by
  refine ⟨fun _ hstep => (List.not_mem_nil hstep).elim, ?_⟩
  change owed + 0 ≤ 0 + (n - offset) + 1
  omega

/-- A message that is dispatched pays with its octets for what is owed. -/
theorem strides_dispatched {owed behind : Nat} (h : owed ≤ behind - offset)
    (hfirst : offset ≤ behind) (hend : behind ≤ n) :
    (pure (.dispatched (behind - offset) d s) : Traced (Decoder.Stride σ)).Strides
      n offset owed 0 := by
  refine ⟨fun _ hstep => (List.not_mem_nil hstep).elim, ?_⟩
  change owed + 0 ≤ 0 + (behind - offset) ∧ offset + (behind - offset) ≤ n
  omega

/-- Only what is owed beyond what is in hand matters. -/
theorem Strides.of_paid {x y : Traced (Decoder.Stride σ)} {owed owed' inHand inHand' : Nat}
    (h : y.Strides n offset owed inHand) (hvalue : x.value = y.value)
    (hinside : ∀ step ∈ x.steps, step.Inside n)
    (hpaid : owed' + x.steps.length + inHand ≤ owed + y.steps.length + inHand') :
    x.Strides n offset owed' inHand' := by
  have hbefore := h.paid
  refine ⟨hinside, ?_⟩
  rw [hvalue]
  cases houtcome : y.value with
  | dispatched used d s =>
      rw [houtcome] at hbefore
      exact ⟨by omega, hbefore.2⟩
  | unknownTemplate d | failed e d =>
      rw [houtcome] at hbefore
      simp only at hbefore ⊢
      omega

/-- What a part of the reading costs is owed by what follows it. -/
theorem Strides.bind {a : α} {owed inHand : Nat} {f : α → Traced (Decoder.Stride σ)}
    (h : x.Reads n cost) (hvalue : x.value = a) (hf : (f a).Strides n offset (owed + cost) inHand) :
    (x >>= f).Strides n offset owed inHand := by
  subst hvalue
  have hlength := h.length
  rw [bind_eq]
  refine hf.of_paid rfl (List.forall_mem_append.mpr ⟨h.inside, hf.inside⟩) ?_
  rw [List.length_append]
  omega

/-- What is owed can be paid from what is in hand. -/
theorem Strides.add {x : Traced (Decoder.Stride σ)} (h : x.Strides n offset 0 0) (count : Nat) :
    x.Strides n offset count count :=
  h.of_paid rfl h.inside (by omega)

/-- However it ends, the octets that are left pay for all steps but one. -/
theorem Strides.length_le {x : Traced (Decoder.Stride σ)} {owed inHand : Nat}
    (h : x.Strides n offset owed inHand) :
    owed + x.steps.length ≤ inHand + (n - offset) + 1 := by
  have hpaid := h.paid
  cases houtcome : x.value with
  | dispatched used d s =>
      rw [houtcome] at hpaid
      omega
  | unknownTemplate d | failed e d =>
      rw [houtcome] at hpaid
      exact hpaid

/-- A message that is one structure. -/
theorem strides_whole {layout : Layout} {ofBlock : Bytes → α}
    {f : Except DecodeError α → Traced (Decoder.Stride σ)} (h : offset ≤ payload.length)
    (hcost : 2 + layout.widths.length + 1 ≤ layout.size) (hreach : layout.size ≤ 65535 + 11)
    (hfailed : ∀ e, f (.error e) = pure (.failed e d))
    (hdispatched : ∀ a, ∃ d' s', f (.ok a)
      = advance offset layout.size >>= fun next => pure (.dispatched (next - offset) d' s')) :
    (read layout ofBlock payload offset >>= f).Strides payload.length offset 0 0 := by
  -- Whether it fails or not, the structure is longer than the steps it takes.
  cases hread : (read layout ofBlock payload offset).value with
  | error e =>
      refine .bind (reads_of_error hread (by omega)) hread ?_
      rw [hfailed e]
      exact strides_failed (by omega)
  | ok a =>
      rcases reads_of_ok hread with ⟨hblock, hend⟩
      rcases hdispatched a with ⟨d', s', hnext⟩
      refine .bind hblock hread ?_
      rw [hnext]
      refine .bind (reads_advance (by omega)) rfl
        (strides_dispatched ?_ (Nat.le_add_right _ _) hend)
      rw [value_advance]
      omega

theorem strides_update (frame : MessageFrame) (h : offset ≤ payload.length) :
    (update listen payload offset frame d s).Strides payload.length offset 0 0 := by
  unfold update
  by_cases hlength : frame.blockLength.toNat = Layout.update.size
  · rw [if_pos hlength]
    exact strides_whole h (by decide) (by decide) (fun _ => rfl) fun _ => ⟨_, _, rfl⟩
  · rw [if_neg hlength]
    exact strides_failed (Nat.zero_le _)

theorem strides_execution (frame : MessageFrame) (h : offset ≤ payload.length) :
    (execution listen payload offset frame d s).Strides payload.length offset 0 0 := by
  unfold execution
  by_cases hlength : frame.blockLength.toNat = Layout.execution.size
  · rw [if_pos hlength]
    exact strides_whole h (by decide) (by decide) (fun _ => rfl) fun _ => ⟨_, _, rfl⟩
  · rw [if_neg hlength]
    exact strides_failed (Nat.zero_le _)

/-- A snapshot pays for its steps, with its entries for theirs. -/
theorem strides_snapshot (frame : MessageFrame) (h : offset ≤ payload.length) :
    (snapshot listen payload offset frame d s).Strides payload.length offset 0 0 := by
  have hwidth := frame.blockLength.toNat_lt
  unfold snapshot
  by_cases hroot : frame.blockLength.toNat < Layout.snapshotHeader.size
  · simp only [if_pos hroot]
    exact strides_failed (Nat.zero_le _)
  · simp only [if_neg hroot]
    simp only [Layout.size] at hroot
    cases hheader : (read .snapshotHeader SnapshotHeader.ofBlock payload offset).value with
    | error e =>
        exact .bind (reads_of_error hheader (by simp only [Layout.size]; omega)) hheader
          (strides_failed (by omega))
    | ok header =>
        rcases reads_of_ok hheader with ⟨hblock, hheaderEnd⟩
        simp only [Layout.size] at hheaderEnd
        refine .bind hblock hheader (.bind (reads_advance (by omega)) rfl ?_)
        -- The offset can lie behind the payload here, by what a block can be long.
        cases hgroup : (read .group GroupSize.ofBlock payload
            (offset + frame.blockLength.toNat)).value with
        | error e =>
            refine .bind (reads_of_error hgroup
                (by simp only [value_advance, Layout.size]; omega)) hgroup
              (strides_failed ?_)
            simp only [Layout.widths, List.length_cons, List.length_nil]
            omega
        | ok group =>
            rcases reads_of_ok hgroup with ⟨hhead, hgroupEnd⟩
            simp only [Layout.size] at hgroupEnd
            refine .bind hhead hgroup ?_
            simp only
            by_cases hstride : group.blockSize.toNat < Layout.entry.size
            · rw [if_pos hstride]
              refine strides_failed ?_
              simp only [Layout.widths, List.length_cons, List.length_nil]
              omega
            · rw [if_neg hstride]
              rcases reads_readEntries (Nat.not_lt.mp hstride) group.numInGroup.toNat { header } 0
                hgroupEnd with ⟨hentries, hbehind⟩
              rcases hrun : (readEntries payload group.blockSize.toNat group.numInGroup.toNat
                (offset + frame.blockLength.toNat + 3) { header } 0).value with
                ⟨⟨outcome, kept⟩, behind⟩
              rw [hrun] at hbehind
              refine .bind (reads_advance (by simp only [value_advance, Layout.size]; omega)) rfl
                (.bind hentries hrun ?_)
              simp only [Layout.widths, List.length_cons, List.length_nil]
              cases outcome with
              | error e => exact strides_failed (by omega)
              | ok found =>
                  rcases hbehind rfl with ⟨hplace, hend⟩
                  simp only at hplace
                  exact strides_dispatched (by omega) (by omega) (by omega)

/-- A frame has octets for more than the steps that it takes to read it. -/
theorem strides_stride (listen : Listener σ) (d : Decoder) (s : σ) {frame : MessageFrame}
    (hread : (read .frame MessageFrame.ofBlock payload offset).value = .ok frame) :
    (stride listen payload offset d s).Strides payload.length (offset + Layout.frame.size) 0 7 := by
  rcases reads_of_ok hread with ⟨hframe, hend⟩
  refine .bind hframe hread (.bind (reads_advance (by omega)) rfl (Strides.add ?_ 7))
  cases Template.ofNumber? frame.templateId with
  | none => exact ⟨fun _ hstep => (List.not_mem_nil hstep).elim, Nat.zero_le _⟩
  | some kind =>
      cases kind with
      | orderUpdate => exact strides_update frame hend
      | orderExecution => exact strides_execution frame hend
      | bookSnapshot => exact strides_snapshot frame hend

/-- A frame and its message pay for their steps, and for the note that the
    message leaves. -/
theorem steps_stride (listen : Listener σ) (d : Decoder) (s : σ) (h : offset ≤ payload.length) :
    (∀ step ∈ (stride listen payload offset d s).steps, step.Inside payload.length) ∧
      (stride listen payload offset d s).steps.length ≤ payload.length - offset + 1 ∧
      ∀ used d' s', (stride listen payload offset d s).value = .dispatched used d' s' →
        (stride listen payload offset d s).steps.length + 1 ≤ Layout.frame.size + used ∧
          offset + Layout.frame.size + used ≤ payload.length := by
  -- Without a frame there is one step, and otherwise the frame pays together
  -- with what is behind it.
  cases hread : (read .frame MessageFrame.ofBlock payload offset).value with
  | error e =>
      have hmissing : (stride listen payload offset d s).Reads payload.length 1 := by
        unfold stride
        exact .bind (reads_of_error hread (by simp only [Layout.size]; omega)) hread
          (reads_pure _) (Nat.le_refl _)
      have hvalue : (stride listen payload offset d s).value = .failed e d := by
        unfold stride
        exact value_bind_of hread
      refine ⟨hmissing.inside, hmissing.length.trans (Nat.le_add_left _ _), ?_⟩
      intro used d' s' hdispatched
      rw [hvalue] at hdispatched
      cases hdispatched
  | ok frame =>
      have hend := (reads_of_ok hread).2
      have hstride := strides_stride listen d s hread
      have hlength := hstride.length_le
      have hpaid := hstride.paid
      simp only [Layout.size] at hend hlength hpaid ⊢
      refine ⟨hstride.inside, by omega, ?_⟩
      intro used d' s' hdispatched
      rw [hdispatched] at hpaid
      omega

/-! ## The walk -/

/-- Every turn of the walk is paid for by the octets that it passes. -/
theorem steps_walk (listen : Listener σ) (limit k : Nat) (d : Decoder) (s : σ)
    (h : offset ≤ payload.length) :
    (∀ step ∈ (walk listen payload limit offset k d s).steps,
        step.Inside payload.length ∨ ∃ next, step = .message next) ∧
      (walk listen payload limit offset k d s).steps.length ≤ payload.length - offset + 1 := by
  -- The octets of a message pay for its steps and for the note behind it, so
  -- what is left of the payload still pays for what is left of the walk.
  induction hn : limit - offset using Nat.strongRecOn generalizing offset k d s with
  | ind room ih =>
      rw [walk]
      by_cases hlimit : offset < limit
      · rw [if_pos hlimit]
        rcases steps_stride listen d s h with ⟨hinside, hlength, hdispatched⟩
        generalize stride listen payload offset d s = turn at hinside hlength hdispatched ⊢
        rcases turn with ⟨outcome, steps⟩
        simp only at hinside hlength hdispatched
        cases outcome with
        | dispatched used d' s' =>
            rcases hdispatched used d' s' rfl with ⟨hpaid, hend⟩
            simp only [Layout.size] at hpaid hend
            rcases ih (limit - (offset + Layout.frame.size + used)) (by
              simp only [Layout.size]
              omega) (k + 1) d' s' hend rfl with ⟨hrest, hrestLength⟩
            refine ⟨?_, ?_⟩
            · refine List.forall_mem_append.mpr ⟨fun step hstep => Or.inl (hinside step hstep), ?_⟩
              exact List.forall_mem_cons.mpr ⟨Or.inr ⟨_, rfl⟩, hrest⟩
            · simp only [List.length_append, List.length_cons]
              simp only [Layout.size] at hrestLength ⊢
              omega
        | unknownTemplate d' => exact ⟨fun step hstep => Or.inl (hinside step hstep), hlength⟩
        | failed e d' => exact ⟨fun step hstep => Or.inl (hinside step hstep), hlength⟩
      · rw [if_neg hlimit]
        exact ⟨fun _ hstep => (List.not_mem_nil hstep).elim, Nat.zero_le _⟩

/-- Where reading goes on behind each message. -/
def nexts (x : Traced α) : List Nat := x.steps.filterMap Step.next?

/-- Steps that reach into the payload are no notes of where a message ends. -/
theorem filterMap_next?_of_inside {steps : List Step} (h : ∀ step ∈ steps, step.Inside n) :
    steps.filterMap Step.next? = [] := by
  refine List.filterMap_eq_nil_iff.mpr fun step hstep => ?_
  cases step with
  | offset value => rfl
  | slice first last => rfl
  | message next => exact (h _ hstep).elim

/-- Reading goes on exactly where the messages of the run end. -/
theorem nexts_walk_of_laid {limit stop : Nat} {messages : List Framed}
    (h : Framed.Laid payload limit offset messages stop) (hoffset : offset ≤ payload.length)
    (hlast : stop < limit → ¬ Framed.Begins (payload.drop stop)) (k : Nat) (d : Decoder) (s : σ) :
    (walk listen payload limit offset k d s).nexts = Framed.ends offset messages := by
  induction h generalizing k d s with
  | nil offset =>
      rw [nexts, walk]
      by_cases hlimit : offset < limit
      · rw [if_pos hlimit]
        have hinside := (steps_stride listen d s hoffset).1
        have hvalue := value_stride listen payload offset d s
        generalize stride listen payload offset d s = turn at hinside hvalue ⊢
        rcases turn with ⟨outcome, steps⟩
        have hnone := filterMap_next?_of_inside hinside
        -- No message begins here, so none is dispatched.
        rcases Decoder.stride_of_no_message (hlast hlimit) with
          ⟨-, d', hquiet⟩ | ⟨-, e, d', hfailed⟩
        · rw [hquiet] at hvalue
          cases hvalue
          exact hnone
        · rw [hfailed] at hvalue
          cases hvalue
          exact hnone
      · rw [if_neg hlimit]
        rfl
  | @cons offset stop m rest hlimit hwell hstands hrest ih =>
      have hroom := hstands.length_le
      rw [List.length_drop] at hroom
      have hlength := hwell.length_octets_ge
      rcases hstands with ⟨back, hback⟩
      have hinside := (steps_stride listen d s hoffset).1
      have hvalue : (stride listen payload offset d s).value
          = .dispatched m.body.length (m.after d) (listen d.envelope m.message s) :=
        (value_stride listen payload offset d s).trans
          (Decoder.stride_of_stands hwell hback.symm)
      have hnext : offset + Layout.frame.size + m.body.length = offset + m.octets.length := by
        rw [Framed.length_octets, Nat.add_assoc]
      rw [nexts, walk, if_pos hlimit]
      generalize stride listen payload offset d s = turn at hinside hvalue ⊢
      rcases turn with ⟨outcome, steps⟩
      have hnone := filterMap_next?_of_inside hinside
      cases hvalue
      simp only [hnext, List.filterMap_append, hnone, List.nil_append]
      exact congrArg (List.cons _) (ih (by omega) hlast (k + 1) _ _)

/-! ## From the headers on -/

/-- With its headers in full a payload is walked, and the headers pay for
    themselves. -/
theorem steps_readPayload_of_full (listen : Listener σ) (d : Decoder) (s : σ)
    (hfull : (Envelope.front payload).bodyOffset ≤ payload.length) :
    ∃ front d', (readPayload listen payload d s).steps
        = front ++ (walk listen payload (Envelope.front payload).messageSize.toNat
            (Envelope.front payload).bodyOffset 0 d' s).steps ∧
      (∀ step ∈ front, step.Inside payload.length) ∧
      front.length ≤ (Envelope.front payload).bodyOffset := by
  have hsixteen := Decoder.sixteen_le_bodyOffset (.front payload)
  have hread : (read .envelope Envelope.ofBlock payload 0).value = .ok (.front payload) :=
    (value_read _ _ _ _).trans (Decoder.read_front (hsixteen.trans hfull))
  have henvelope := (reads_of_ok hread).1
  unfold readPayload
  rw [bind_eq, hread]
  -- With the incremental header there are twelve octets more to pay with.
  by_cases hflag : (Envelope.front payload).isIncremental
  · have hbody : (Envelope.front payload).bodyOffset = 28 := if_pos hflag
    rw [hbody] at hfull
    rcases exists_ok_of_fits IncrementalHeader.ofBlock
      (show Layout.envelope.size + Layout.incremental.size ≤ payload.length from hfull)
      with ⟨header, hheader⟩
    have hnext : (advance Layout.envelope.size Layout.incremental.size).Reads payload.length 1 :=
      reads_advance (hfull.trans (Nat.le_add_right payload.length (65535 + 11)))
    have hincremental := (reads_of_ok hheader).1
    simp only [if_pos hflag, hbody]
    rw [bind_eq, hheader]
    simp only
    rw [bind_eq, ← List.append_assoc, ← List.append_assoc]
    refine ⟨_, _, rfl, ?_, ?_⟩
    · exact List.forall_mem_append.mpr ⟨List.forall_mem_append.mpr
        ⟨henvelope.inside, hincremental.inside⟩, hnext.inside⟩
    · have hcost := Nat.add_le_add (Nat.add_le_add henvelope.length hincremental.length)
        hnext.length
      rw [← List.length_append, ← List.length_append] at hcost
      exact hcost.trans (by decide)
  · have hbody : (Envelope.front payload).bodyOffset = 16 := if_neg hflag
    simp only [if_neg hflag, hbody]
    exact ⟨_, _, rfl, henvelope.inside, henvelope.length.trans (by decide)⟩

/-- Without them it is not. -/
theorem reads_readPayload_of_not_full (listen : Listener σ) (d : Decoder) (s : σ)
    (hmissing : payload.length < (Envelope.front payload).bodyOffset) :
    (readPayload listen payload d s).Reads payload.length (payload.length + 1) := by
  unfold readPayload
  cases hread : (read .envelope Envelope.ofBlock payload 0).value with
  | error e =>
      exact .bind (reads_of_error hread (by simp only [Layout.size]; omega)) hread
        (reads_pure _) (Nat.le_add_left 1 _)
  | ok envelope =>
      rcases reads_of_ok hread with ⟨hblock, hend⟩
      have hfront : Except.ok envelope = .ok (Envelope.front payload) :=
        hread.symm.trans ((value_read _ _ _ _).trans (Decoder.read_front (by omega)))
      cases hfront
      -- There is the envelope, so it is the other header that is missing.
      have hflag : (Envelope.front payload).isIncremental = true := by
        by_contra hplain
        rw [Envelope.bodyOffset, if_neg hplain] at hmissing
        exact Nat.not_lt.mpr hend hmissing
      rw [Envelope.bodyOffset, if_pos hflag] at hmissing
      have hcost : 2 + Layout.envelope.widths.length + 1 ≤ payload.length + 1 := by
        simp only [Layout.size, Layout.widths, List.length_cons, List.length_nil] at hend ⊢
        omega
      refine .bind hblock hread ?_ hcost
      simp only [if_pos hflag]
      cases hheader : (read .incremental IncrementalHeader.ofBlock payload
          Layout.envelope.size).value with
      | error e =>
          exact .bind (reads_of_error hheader (by simp only [Layout.size]; omega)) hheader
            (reads_pure _) (Nat.le_refl _)
      | ok header => exact absurd hmissing (Nat.not_lt.mpr (reads_of_ok hheader).2)

theorem steps_decode (listen : Listener σ) (payload : Bytes) (d : Decoder) (s : σ) :
    (decode listen payload d s).steps = (readPayload listen payload d.start s).steps := by
  unfold decode
  rw [bind_eq]
  cases (readPayload listen payload d.start s).value.result <;> exact List.append_nil _

/-- With its headers in full a payload is read along the messages laid in it. -/
theorem steps_decode_of_full (listen : Listener σ) (d : Decoder) (s : σ) {stop : Nat}
    {messages : List Framed} (hfull : (Envelope.front payload).bodyOffset ≤ payload.length)
    (hlaid : Framed.Laid payload (Envelope.front payload).messageSize.toNat
      (Envelope.front payload).bodyOffset messages stop)
    (hlast : stop < (Envelope.front payload).messageSize.toNat →
      ¬ Framed.Begins (payload.drop stop)) :
    (∀ step ∈ (decode listen payload d s).steps,
        step.Inside payload.length ∨ ∃ next, step = .message next) ∧
      (decode listen payload d s).steps.length ≤ payload.length + 1 ∧
      (decode listen payload d s).nexts
        = Framed.ends (Envelope.front payload).bodyOffset messages := by
  rcases steps_readPayload_of_full listen d.start s hfull with
    ⟨front, d', hsteps, hinside, hlength⟩
  rcases steps_walk listen (Envelope.front payload).messageSize.toNat 0 d' s hfull with
    ⟨hwalk, hwalkLength⟩
  rw [nexts, steps_decode, hsteps]
  refine ⟨?_, ?_, ?_⟩
  · exact List.forall_mem_append.mpr ⟨fun step hstep => Or.inl (hinside step hstep), hwalk⟩
  · rw [List.length_append]
    omega
  · rw [List.filterMap_append, filterMap_next?_of_inside hinside, List.nil_append]
    exact nexts_walk_of_laid hlaid hfull hlast 0 d' s

/-- Without its headers in full a datagram costs hardly a step. -/
theorem reads_decode_of_not_full (listen : Listener σ) (d : Decoder) (s : σ)
    (hmissing : payload.length < (Envelope.front payload).bodyOffset) :
    (decode listen payload d s).Reads payload.length (payload.length + 1) := by
  have hreads := reads_readPayload_of_not_full listen d.start s hmissing
  exact ⟨steps_decode listen payload d s ▸ hreads.inside,
    steps_decode listen payload d s ▸ hreads.length⟩

/-- Of steps that are inside or notes, the offsets and the ranges are inside. -/
theorem inside_of_mem {steps : List Step}
    (h : ∀ step ∈ steps, step.Inside n ∨ ∃ next, step = .message next) :
    (∀ value, .offset value ∈ steps → value ≤ n + 65535 + 11) ∧
      ∀ first last, .slice first last ∈ steps → first ≤ last ∧ last ≤ n := by
  constructor
  · intro value hmem
    rcases h _ hmem with hinside | ⟨next, hmessage⟩
    · exact hinside
    · cases hmessage
  · intro first last hmem
    rcases h _ hmem with hinside | ⟨next, hmessage⟩
    · exact hinside
    · cases hmessage

end Traced

namespace Decoder

/-- What holds of a call on any octets. The traced decoder is the decoder, and it
    takes no more steps than the payload has octets, and one. The offsets that it
    computes and the ranges that it takes are bounded by the payload, behind each
    message it goes on further inside the payload, and there are as many of these
    places as messages are told. They are not shorter than a snapshot without
    entries, and they begin before the declared size. -/
structure Bounded {σ : Type} (listen : Listener σ) (payload : Bytes) (d : Decoder) (s : σ) :
    Prop where
  value : (Traced.decode listen payload d s).value = decode listen payload d s
  length : (Traced.decode listen payload d s).steps.length ≤ payload.length + 1
  offsets : ∀ value, .offset value ∈ (Traced.decode listen payload d s).steps →
    value ≤ payload.length + 65535 + 11
  slices : ∀ first last, .slice first last ∈ (Traced.decode listen payload d s).steps →
    first ≤ last ∧ last ≤ payload.length
  onward : ((Envelope.front payload).bodyOffset :: (Traced.decode listen payload d s).nexts).IsChain
    (· < ·)
  reached : ∀ next ∈ (Traced.decode listen payload d s).nexts, next ≤ payload.length
  heard : (decode listen payload d s).heard = listen.replay (callbacks payload) s
  told : (Traced.decode listen payload d s).nexts.length = (callbacks payload).length
  room : callbacks payload ≠ [] → 16 + 27 * (callbacks payload).length ≤ payload.length ∧
    16 + 27 * ((callbacks payload).length - 1) < (Envelope.front payload).messageSize.toNat

/-- Decoding ends for every payload, in a number of steps that the payload
    bounds, and looks nowhere but into the payload. -/
theorem decode_bounded {σ : Type} (listen : Listener σ) (payload : Bytes) (d : Decoder) (s : σ) :
    Bounded listen payload d s := by
  have hvalue := Traced.value_decode listen payload d s
  have hheard := heard_eq_replay listen payload d s
  by_cases hfull : (Envelope.front payload).bodyOffset ≤ payload.length
  · rcases exists_laid payload (Envelope.front payload).messageSize.toNat
      (Envelope.front payload).bodyOffset with ⟨messages, stop, hlaid, hlast⟩
    rcases Traced.steps_decode_of_full listen d s hfull hlaid hlast with
      ⟨hall, hlength, hnexts⟩
    have htold : (callbacks payload).length = messages.length := by
      rw [callbacks_of_full rfl hfull hlaid hlast, Framed.told, List.length_map]
    rcases Traced.inside_of_mem hall with ⟨hoffsets, hslices⟩
    rcases hlaid.length_le hfull with ⟨hroom, hdeclared⟩
    have hsixteen := sixteen_le_bodyOffset (.front payload)
    refine ⟨hvalue, hlength, hoffsets, hslices, ?_, ?_, hheard, ?_, ?_⟩
    · rw [hnexts]
      exact Framed.isChain_ends hlaid
    · rw [hnexts]
      exact hlaid.ends_le
    · rw [hnexts, Framed.length_ends, htold]
    · intro hcalls
      have hmessages : messages ≠ [] := by
        rintro rfl
        exact hcalls (List.eq_nil_of_length_eq_zero htold)
      have hbefore := hdeclared hmessages
      rw [htold]
      omega
  · -- Nothing is told, and what was read ended inside the headers.
    have hmissing := Nat.not_le.mp hfull
    have hreads := Traced.reads_decode_of_not_full listen d s hmissing
    have hnone : callbacks payload = [] := by
      rcases readPayload_of_not_full hmissing with ⟨e, d', hread, -⟩
      rw [callbacks, heard_decode, hread]
    have hnexts : (Traced.decode listen payload d s).nexts = [] :=
      Traced.filterMap_next?_of_inside hreads.inside
    rcases Traced.inside_of_mem fun step hstep => Or.inl (hreads.inside step hstep) with
      ⟨hoffsets, hslices⟩
    refine ⟨hvalue, hreads.length, hoffsets, hslices, ?_, ?_, hheard, ?_, ?_⟩
    · rw [hnexts]
      exact .singleton _
    · rw [hnexts]
      exact fun _ hmem => (List.not_mem_nil hmem).elim
    · rw [hnexts, hnone]
      rfl
    · exact fun hcalls => absurd hnone hcalls

end Decoder

end MarketFeed
