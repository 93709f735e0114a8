import MarketFeed.Proofs.Capture.Exact

/-!
# The Offset and the Position

How the offset of a capture file moves, and why reads leave it alone.

A file that is being read is known by two numbers. The offset says which octets
are done with and is kept by the reader; the position says where the system will
take the next octets from. Every read begins by setting the position to the
offset, so it does not matter where earlier reads, whole or short, have left it.
The system may bring the octets of a read in any number of parts, and signals
may come in between. The parts are always the octets that follow, so together
they are the same octets, however they were brought.

The offset is moved by a sum, and the sum is held against the size of the file
only when it is there. A sum that 64 bits can hold moves the offset forward, or
to the end of the file. For any other count there is no sum, and moving the
offset fails, although the end of the file would have been in front of it. So a
sequence of accesses comes to its end exactly if each sum along it fits, and as
far as it comes, the offset only goes on. The reading of a capture always comes
to its end, because it adds no more than there is left of the file.

## Main definitions

* `Handle`, `Handle.fill`: An open file of the system, and a read from it in
  parts.
* `CaptureFile.Held`, `CaptureFile.Held.run`: A capture file with the position of
  its handle, and what is done with it.
* `CaptureFile.Event.Accounted`: What one access does, by the offset before it.
* `CaptureFile.offsetBehind`: The offset that some accesses lead to.

## Theorems

* `fill_eq_some`, `exists_fill`: What is read does not depend on the parts.
* `read_eq_some`: A read through the handle is the read of the file.
* `accounted_perform`, `accounted_run`: What one access does, and what a whole
  sequence does.
* `exists_run_iff`: When a sequence comes to its end.
* `offset_only_goes_on`: How the offset moves, for every sequence.
* `far_count_fails`: A count with which there is no sum.
* `Sound.ne_readingFailed`: The reading of a capture never comes to that.
-/

namespace MarketFeed

/-- A file that the system has open. -/
structure Handle where
  /-- The octets of the file. -/
  content : Bytes
  /-- Where the next octets are taken from. -/
  position : Nat
  deriving DecidableEq, Repr

/-- What the system does about one request for octets. The disk is sound, so no
    request fails. -/
inductive Grant
  /-- A signal comes in before anything was brought. -/
  | interrupted
  /-- It brings as many as it likes, up to a limit. It brings at least one, unless
      the file is at its end. -/
  | upTo (limit : Nat)
  deriving DecidableEq, Repr

/-- Whether a request is answered. -/
def Grant.answers : Grant → Bool
  | .interrupted => false
  | .upTo _ => true

namespace Handle

/-- The octets from the position on. -/
def ahead (h : Handle) : Bytes := h.content.drop h.position

/-- Set the position. -/
def seek (h : Handle) (position : Nat) : Handle := { h with position }

/-- Move the position over octets that were brought. -/
def pass (h : Handle) (count : Nat) : Handle := { h with position := h.position + count }

/-- The octets that one request brings, if it is answered. -/
def request (h : Handle) (wanted : Nat) : Grant → Option Bytes
  | .interrupted => none
  | .upTo limit => some (h.ahead.take (min wanted (max limit 1)))

/-- Ask for octets until as many are there as are wanted, or until a request
    brings none. A request that was interrupted is made again. There is no
    outcome as long as the requests that are answered do not suffice. -/
def fill (h : Handle) (wanted : Nat) (filled : Bytes) (grants : List Grant) :
    Option (Bytes × Handle) :=
  if wanted ≤ filled.length then some (filled, h)
  else
    match grants with
    | [] => none
    | grant :: rest =>
      match h.request (wanted - filled.length) grant with
      | none => h.fill wanted filled rest
      | some [] => some (filled, h)
      | some part => (h.pass part.length).fill wanted (filled ++ part) rest

variable {h h' : Handle} {wanted count : Nat} {filled found part : Bytes} {grant : Grant}
variable {grants : List Grant}

theorem pass_zero (h : Handle) : h.pass 0 = h := rfl

/-- Passing octets in two steps is passing them in one. -/
theorem pass_pass (h : Handle) (first second : Nat) :
    (h.pass first).pass second = h.pass (first + second) := by
  rw [pass, pass, pass, Nat.add_assoc]

theorem ahead_pass (h : Handle) (count : Nat) : (h.pass count).ahead = h.ahead.drop count := by
  rw [ahead, ahead, List.drop_drop, pass]

/-- A request that is answered brings octets that follow, no more than are
    wanted, and none only where none follow. -/
theorem request_eq_some (hpart : h.request wanted grant = some part) (hwanted : 0 < wanted) :
    grant.answers = true ∧ part = h.ahead.take part.length ∧ part.length ≤ wanted ∧
      (part = [] → h.ahead = []) := by
  cases grant with
  | interrupted => cases hpart
  | upTo limit =>
      rw [request, Option.some.injEq] at hpart
      subst hpart
      refine ⟨rfl, ?_, ?_, ?_⟩
      · rw [List.length_take, ← List.take_eq_take_min]
      · rw [List.length_take]
        omega
      · intro hnil
        rcases List.take_eq_nil_iff.mp hnil with hzero | hend
        · omega
        · exact hend

/-- However the octets were brought, they are those that follow the position, as
    many as are wanted or as there are, and the position is behind them. -/
theorem fill_eq_some (hfill : h.fill wanted filled grants = some (found, h')) :
    found = filled ++ h.ahead.take (wanted - filled.length) ∧
      h' = h.pass (min (wanted - filled.length) h.ahead.length) := by
  fun_induction fill h wanted filled grants with
  | case1 h filled grants hdone =>
      -- There are enough octets.
      cases hfill
      rw [Nat.sub_eq_zero_of_le hdone, List.take_zero, List.append_nil, Nat.zero_min, pass_zero]
      exact ⟨rfl, rfl⟩
  | case2 h filled hmore => cases hfill
  | case3 h filled hmore grant rest hnone ih => exact ih hfill
  | case4 h filled hmore grant rest hsome =>
      -- The file is at its end.
      cases hfill
      have hend := (request_eq_some hsome (by omega)).2.2.2 rfl
      rw [hend, List.take_nil, List.append_nil, List.length_nil, Nat.min_zero, pass_zero]
      exact ⟨rfl, rfl⟩
  | case5 h filled hmore grant rest part hpart hsome ih =>
      rcases request_eq_some hsome (by omega) with ⟨-, hfront, hfits, -⟩
      rcases ih hfill with ⟨rfl, rfl⟩
      -- What is brought later follows this part.
      have hleft : wanted - (filled ++ part).length = wanted - filled.length - part.length := by
        rw [List.length_append]
        omega
      have hwanted : wanted - filled.length
          = part.length + (wanted - filled.length - part.length) := by omega
      have hlength : part.length ≤ h.ahead.length := by
        have hlength := congrArg List.length hfront
        rw [List.length_take] at hlength
        omega
      refine ⟨?_, ?_⟩
      · rw [List.append_assoc, hleft, ahead_pass, hwanted, List.take_add, ← hfront,
          Nat.add_sub_cancel_left]
      · rw [pass_pass, hleft, ahead_pass, List.length_drop]
        congr 1
        omega

/-- A read comes to an end when more requests are answered than octets are
    wanted. -/
theorem exists_fill (hgrants : wanted - filled.length < grants.countP Grant.answers) :
    ∃ result, h.fill wanted filled grants = some result := by
  fun_induction fill h wanted filled grants with
  | case1 => exact ⟨_, rfl⟩
  | case2 => exact absurd hgrants (Nat.not_lt_zero _)
  | case3 h filled hmore grant rest hnone ih =>
      cases grant with
      | interrupted => exact ih hgrants
      | upTo limit => cases hnone
  | case4 => exact ⟨_, rfl⟩
  | case5 h filled hmore grant rest part hpart hsome ih =>
      have hanswers := (request_eq_some hsome (by omega)).1
      rw [List.countP_cons_of_pos hanswers] at hgrants
      have hpos : 0 < part.length := List.length_pos_iff.mpr hpart
      refine ih ?_
      rw [List.length_append]
      omega

end Handle

namespace CaptureFile

variable {path : String} {found : Except SystemFault Entry} {file f : CaptureFile}

/-! ## A file and its handle -/

/-- What is done with an open capture file. -/
inductive Access
  /-- This many octets are read, and the system does this about it. -/
  | read (count : Nat) (grants : List Grant)
  /-- This many octets are done with. -/
  | consume (count : UInt64)
  deriving DecidableEq, Repr

/-- The system answers enough requests for the access to come to its end. -/
def Access.Served : Access → Prop
  | .read count grants => count < grants.countP Grant.answers
  | .consume _ => True

instance : DecidablePred Access.Served
  | .read count grants => inferInstanceAs (Decidable (count < grants.countP Grant.answers))
  | .consume _ => inferInstanceAs (Decidable True)

/-- How many octets the access says are done with. -/
def Access.amount : Access → Nat
  | .read _ _ => 0
  | .consume count => count.toNat

/-- An access that was made: the file before and after it, and what a read gave. -/
structure Event where
  /-- The file before the access. -/
  before : CaptureFile
  /-- What was done. -/
  access : Access
  /-- What a read gave. -/
  reply : Option (Except CaptureError Bytes)
  /-- The file after the access. -/
  after : CaptureFile

/-- A capture file with the position at which its handle stands. -/
structure Held where
  /-- The file and its offset. -/
  file : CaptureFile
  /-- Where the system takes the next octets from. -/
  position : Nat

namespace Held

/-- Read octets from the offset on: set the position to it, and ask until they
    are there or the file is at its end. -/
def read (s : Held) (count : Nat) (grants : List Grant) :
    Option (Except CaptureError Bytes × Held) :=
  let handle : Handle := { content := s.file.content, position := s.position }
  ((handle.seek s.file.offset).fill count [] grants).map fun (found, handle) =>
    (if found.length < count then .error (.shortRead s.file.offset count found.length)
      else .ok found,
     { s with position := handle.position })

/-- Make one access. -/
def perform (s : Held) : Access → Option (Event × Held)
  | .read count grants =>
    (s.read count grants).map fun (reply, s') =>
      (⟨s.file, .read count grants, some reply, s'.file⟩, s')
  | .consume count =>
    (s.file.consume? count).map fun file =>
      (⟨s.file, .consume count, none, file⟩, { s with file })

/-- Make one access after the other. -/
def run (s : Held) : List Access → Option (List Event × Held)
  | [] => some ([], s)
  | access :: rest =>
    match s.perform access with
    | none => none
    | some (event, s') => (s'.run rest).map fun (events, last) => (event :: events, last)

end Held

/-- The file is this one, and its offset stands in it. -/
structure Within (f file : CaptureFile) : Prop where
  /-- Nothing but the offset may differ. -/
  same : f = { file with offset := f.offset }
  /-- The offset is not behind the end. -/
  offset_le : f.offset ≤ file.size

/-- The offset behind some accesses to a file that was opened: all that was done
    with, up to the end of the file. -/
def offsetBehind (file : CaptureFile) (accesses : List Access) : Nat :=
  min (CaptureHeader.length + (accesses.map Access.amount).sum) file.size

/-- What an access does to a file and what it gives, by the offset before it. -/
structure Event.Accounted (e : Event) (file : CaptureFile) : Prop where
  /-- The offset is in the file before and after. -/
  within : e.before.Within file ∧ e.after.Within file
  /-- The rest is what follows the offset. -/
  remaining : e.before.offset + e.before.remaining = file.size ∧
    e.after.offset + e.after.remaining = file.size
  /-- A read does not move the offset. It is the read of the file, whatever the
      system did: all that was wanted, or how much there would have been. -/
  read : ∀ count grants, e.access = .read count grants →
    e.after = e.before ∧ e.reply = some (e.before.readChunk count) ∧
    (count ≤ e.before.remaining → ∃ part, e.reply = some (.ok part) ∧
      file.content.window? e.before.offset count = some part) ∧
    (e.before.remaining < count →
      e.reply = some (.error (.shortRead e.before.offset count e.before.remaining)))
  /-- The offset is moved to the sum, up to the end, and there is a sum. -/
  consume : ∀ count, e.access = .consume count →
    e.reply = none ∧ e.before.offset + count.toNat < UInt64.size ∧
    e.after.offset = min (e.before.offset + count.toNat) file.size

variable {s s' last : Held} {access : Access} {accesses : List Access} {e : Event}
variable {events : List Event} {count : Nat} {grants : List Grant}
variable {reply : Except CaptureError Bytes}

/-! ## One access -/

/-- The size is that of the file: what is done with it never changes it. -/
theorem Within.size_eq (h : f.Within file) : f.size = file.size := by
  rw [h.same, size, size]

/-- The octets of the file are the same all along. -/
theorem Within.content_eq (h : f.Within file) : f.content = file.content := by
  rw [h.same]

/-- What lies before the offset and what remains make up the file. -/
theorem Within.remaining (h : f.Within file) : f.offset + f.remaining = file.size := by
  have hle := h.offset_le
  rw [CaptureFile.remaining, h.size_eq]
  omega

/-- A read that asks for too much tells how much there is. -/
theorem readChunk_eq_error (h : f.remaining < count) :
    f.readChunk count = .error (.shortRead f.offset count f.remaining) := by
  have hlength : ((f.content.drop f.offset).take count).length = f.remaining := by
    rw [remaining, size] at h ⊢
    rw [List.length_take, List.length_drop]
    omega
  rw [readChunk, hlength, if_pos h]

/-- A read through the handle gives what a read of the file gives, wherever the
    handle stood and however the octets were brought. -/
theorem Held.read_eq_some (hread : s.read count grants = some (reply, s')) :
    reply = s.file.readChunk count ∧ s'.file = s.file ∧
      s'.position = s.file.offset + min count s.file.remaining := by
  rw [read] at hread
  obtain ⟨⟨part, handle⟩, hfill, hresult⟩ := Option.map_eq_some_iff.mp hread
  rcases Handle.fill_eq_some hfill with ⟨rfl, rfl⟩
  cases hresult
  refine ⟨rfl, rfl, ?_⟩
  rw [remaining, size, ← List.length_drop]
  rfl

/-- Moving the offset keeps it in the file. -/
theorem Within.of_consume? {g : CaptureFile} {count : UInt64} (h : f.Within file)
    (hconsume : f.consume? count = some g) : g.Within file where
  same := by
    rw [(consume?_eq_some_iff.mp hconsume).2, h.same]
  offset_le := by
    rw [(consume?_eq_some_iff.mp hconsume).2, h.size_eq]
    exact Nat.min_le_right _ _

/-- An access does what is said of it, if it comes to its end. -/
theorem accounted_perform (h : s.file.Within file)
    (hperform : s.perform access = some (e, s')) :
    e.before = s.file ∧ e.access = access ∧ e.after = s'.file ∧ e.Accounted file := by
  cases access with
  | read count grants =>
      rw [Held.perform] at hperform
      obtain ⟨⟨reply, after⟩, hread, hresult⟩ := Option.map_eq_some_iff.mp hperform
      rcases Held.read_eq_some hread with ⟨rfl, hfile, -⟩
      cases hresult
      refine ⟨rfl, rfl, rfl, ?_⟩
      constructor
      case within => exact ⟨h, by rw [hfile]; exact h⟩
      case remaining => exact ⟨h.remaining, by rw [hfile]; exact h.remaining⟩
      case consume =>
        intro _ hconsume
        cases hconsume
      case read =>
        intro _ _ hsame
        cases hsame
        refine ⟨hfile, rfl, fun (hfits : count ≤ s.file.remaining) => ?_,
          fun hshort => by rw [readChunk_eq_error hshort]⟩
        have hwithin : s.file.offset + count ≤ file.content.length := by
          have hremaining := h.remaining
          rw [size] at hremaining
          omega
        -- The octets that are lent are those of the file as it was opened.
        refine ⟨_, congrArg some (readChunk_eq_ok_iff.mpr ⟨hfits, rfl⟩), ?_⟩
        rw [h.content_eq]
        exact Bytes.window?_eq_some_iff.mpr ⟨hwithin, rfl⟩
  | consume count =>
      rw [Held.perform] at hperform
      obtain ⟨moved, hconsume, hresult⟩ := Option.map_eq_some_iff.mp hperform
      cases hresult
      have hmoved := h.of_consume? hconsume
      rcases consume?_eq_some_iff.mp hconsume with ⟨hfits, rfl⟩
      refine ⟨rfl, rfl, rfl, ?_⟩
      constructor
      case within => exact ⟨h, hmoved⟩
      case remaining => exact ⟨h.remaining, hmoved.remaining⟩
      case read =>
        intro _ _ hread
        cases hread
      case consume =>
        intro _ hsame
        cases hsame
        exact ⟨rfl, hfits, by rw [h.size_eq]⟩

/-- The offset after an access is the sum, or the end of the file. -/
theorem Event.Accounted.offset_after (h : e.Accounted file) :
    e.after.offset = min (e.before.offset + e.access.amount) file.size := by
  cases haccess : e.access with
  | read count grants =>
      have hle := h.within.1.offset_le
      rw [(h.read count grants haccess).1, Access.amount]
      omega
  | consume count => exact (h.consume count haccess).2.2

/-- No access takes the offset back. -/
theorem Event.Accounted.offset_le (h : e.Accounted file) :
    e.before.offset ≤ e.after.offset := by
  have hle := h.within.1.offset_le
  have hafter := h.offset_after
  omega

/-- An access that is served comes to its end, unless it is a count with which
    the offset has no sum. -/
theorem Held.exists_perform_iff (hserved : access.Served) :
    (∃ e s', s.perform access = some (e, s')) ↔
      ∀ count, access = .consume count → s.file.offset + count.toNat < UInt64.size := by
  cases access with
  | read count grants =>
      have hfill : ∃ result, (Handle.seek ⟨s.file.content, s.position⟩ s.file.offset).fill
          count [] grants = some result := Handle.exists_fill hserved
      rcases hfill with ⟨result, hfill⟩
      refine ⟨fun _ _ hconsume => (by cases hconsume), fun _ => ?_⟩
      rw [perform, read, hfill]
      exact ⟨_, _, rfl⟩
  | consume count =>
      constructor
      · rintro ⟨e, s', hperform⟩ _ hsame
        cases hsame
        obtain ⟨moved, hconsume, -⟩ := Option.map_eq_some_iff.mp hperform
        exact (consume?_eq_some_iff.mp hconsume).1
      · intro hfits
        have hconsume := consume?_eq_some_iff.mpr ⟨hfits count rfl, rfl⟩
        rw [perform, hconsume]
        exact ⟨_, _, rfl⟩

/-! ## One access after the other -/

/-- A run is its first access and a run of the others from there. -/
theorem Held.run_cons_eq_some_iff {rest : List Access} :
    s.run (access :: rest) = some (events, last) ↔
      ∃ e s' others, s.perform access = some (e, s') ∧ s'.run rest = some (others, last) ∧
        events = e :: others := by
  rw [run]
  cases s.perform access with
  | none => simp only [reduceCtorEq, false_and, exists_false]
  | some made =>
      simp only [Option.map_eq_some_iff, Option.some.injEq, Prod.exists, Prod.mk.injEq]
      constructor
      · rintro ⟨others, _, hrest, rfl, rfl⟩
        exact ⟨made.1, made.2, others, rfl, hrest, rfl⟩
      · rintro ⟨_, _, others, rfl, hrest, rfl⟩
        exact ⟨others, last, hrest, rfl, rfl⟩

/-- Behind an access the file is still the one that was opened, and its offset has
    gone on by what was done with. -/
theorem within_perform (h : s.file.Within file)
    (hperform : s.perform access = some (e, s')) :
    s'.file.Within file ∧ s'.file.offset = min (s.file.offset + access.amount) file.size := by
  rcases accounted_perform h hperform with ⟨hbefore, rfl, hafter, he⟩
  have hoffset := he.offset_after
  rw [hbefore, hafter] at hoffset
  exact ⟨hafter ▸ he.within.2, hoffset⟩

/-- A sequence that comes to its end is accounted for, access by access. The
    offset is moved by the sum of all that was done with, and never back. -/
theorem accounted_run (h : s.file.Within file)
    (hrun : s.run accesses = some (events, last)) :
    events.map Event.access = accesses ∧
      (∀ e ∈ events, e.Accounted file ∧ s.file.offset ≤ e.before.offset) ∧
      last.file.offset = min (s.file.offset + (accesses.map Access.amount).sum) file.size := by
  -- The file behind an access is as much a part of the one that was opened, so
  -- the rest of the run is accounted for in the same way.
  induction accesses generalizing s events with
  | nil =>
      cases hrun
      have hle := h.offset_le
      refine ⟨rfl, fun e he => (by cases he), ?_⟩
      rw [List.map_nil, List.sum_nil]
      omega
  | cons access rest ih =>
      obtain ⟨e, s', others, hperform, hrest, rfl⟩ := Held.run_cons_eq_some_iff.mp hrun
      rcases accounted_perform h hperform with ⟨hbefore, rfl, hafter, he⟩
      rcases ih (hafter ▸ he.within.2) hrest with ⟨hmap, hothers, hlast⟩
      have hoffset := he.offset_after
      have hforward := he.offset_le
      rw [hbefore, hafter] at hoffset hforward
      refine ⟨by rw [List.map_cons, hmap], ?_, ?_⟩
      · rw [List.forall_mem_cons]
        refine ⟨⟨he, by rw [hbefore]⟩, fun other hother => ?_⟩
        exact ⟨(hothers other hother).1, Nat.le_trans hforward (hothers other hother).2⟩
      · rw [List.map_cons, List.sum_cons]
        omega

/-- The sums of a sequence are the one of its first access, and those of the
    others from behind it. -/
theorem fits_cons_iff {offset size : Nat} {rest : List Access} :
    (∀ front count, (front ++ [Access.consume count]) <+: access :: rest →
        min (offset + (front.map Access.amount).sum) size + count.toNat < UInt64.size) ↔
      (∀ count, access = .consume count → min offset size + count.toNat < UInt64.size) ∧
      ∀ front count, (front ++ [Access.consume count]) <+: rest →
        min (offset + access.amount + (front.map Access.amount).sum) size + count.toNat
          < UInt64.size := by
  constructor
  · intro hall
    refine ⟨fun count hconsume => ?_, fun front count hprefix => ?_⟩
    · have hfits := hall [] count (List.cons_prefix_cons.mpr ⟨hconsume.symm, List.nil_prefix⟩)
      rwa [List.map_nil, List.sum_nil, Nat.add_zero] at hfits
    · have hfits := hall (access :: front) count (List.cons_prefix_cons.mpr ⟨rfl, hprefix⟩)
      rwa [List.map_cons, List.sum_cons, ← Nat.add_assoc] at hfits
  · rintro ⟨hfirst, hrest⟩ front count hprefix
    cases front with
    | nil =>
        rcases List.cons_prefix_cons.mp hprefix with ⟨rfl, -⟩
        rw [List.map_nil, List.sum_nil, Nat.add_zero]
        exact hfirst count rfl
    | cons first front =>
        rcases List.cons_prefix_cons.mp hprefix with ⟨rfl, hbehind⟩
        rw [List.map_cons, List.sum_cons, ← Nat.add_assoc]
        exact hrest front count hbehind

/-- A sequence that is served comes to its end exactly if each of its sums fits:
    what is done with by a count, and the offset behind all accesses in front. -/
theorem exists_run_iff (h : s.file.Within file)
    (hserved : ∀ access ∈ accesses, access.Served) :
    (∃ events last, s.run accesses = some (events, last)) ↔
      ∀ front count, (front ++ [Access.consume count]) <+: accesses →
        min (s.file.offset + (front.map Access.amount).sum) file.size + count.toNat
          < UInt64.size := by
  induction accesses generalizing s with
  | nil =>
      refine ⟨fun _ front count hprefix => ?_, fun _ => ⟨_, _, rfl⟩⟩
      have hnil := List.prefix_nil.mp hprefix
      exact absurd hnil (List.append_ne_nil_of_right_ne_nil _ (List.cons_ne_nil _ _))
  | cons access rest ih =>
      have haccess := Held.exists_perform_iff (s := s) (hserved access List.mem_cons_self)
      have hothers := fun a ha => hserved a (List.mem_cons_of_mem access ha)
      rw [fits_cons_iff, Nat.min_eq_left h.offset_le, ← haccess]
      -- To take the end of the file into account once more changes no sum.
      have hmin : ∀ count, min (min (s.file.offset + access.amount) file.size + count) file.size
          = min (s.file.offset + access.amount + count) file.size := fun count => by omega
      constructor
      · rintro ⟨events, last, hrun⟩
        obtain ⟨e, s', others, hperform, hrest, rfl⟩ := Held.run_cons_eq_some_iff.mp hrun
        rcases within_perform h hperform with ⟨hwithin, hoffset⟩
        have hfits := (ih hwithin hothers).mp ⟨others, last, hrest⟩
        simp only [hoffset, hmin] at hfits
        exact ⟨⟨e, s', hperform⟩, hfits⟩
      · rintro ⟨⟨e, s', hperform⟩, hfits⟩
        rcases within_perform h hperform with ⟨hwithin, hoffset⟩
        have hrest := ih hwithin hothers
        simp only [hoffset, hmin] at hrest
        rcases hrest.mpr hfits with ⟨others, last, hrun⟩
        exact ⟨_, _, Held.run_cons_eq_some_iff.mpr ⟨e, s', others, hperform, hrun, rfl⟩⟩

/-- A file that was opened has its offset within itself. -/
theorem within_of_open? (hopen : open? path found = .ok file) : file.Within file := by
  rcases offset_of_open? hopen with ⟨hoffset, hle⟩
  exact ⟨rfl, by omega⟩

/-- Whatever is done with a file that was opened, wherever its handle stands and
    however the system brings the octets of a read: every read gives what
    follows the offset or tells how much does, and leaves the offset where it
    is. The offset stays behind the header and within the file, it never goes
    back, and in the end it is the sum of all that was done with, up to the end
    of the file. As long as the system brings the octets, all this comes to its
    end exactly if 64 bits can hold each sum along the way. -/
theorem offset_only_goes_on (hopen : open? path found = .ok file) (position : Nat)
    (accesses : List Access) :
    (∀ events last, Held.run ⟨file, position⟩ accesses = some (events, last) →
      events.map Event.access = accesses ∧
      (∀ e ∈ events, e.Accounted file ∧ CaptureHeader.length ≤ e.before.offset ∧
        e.before.offset ≤ e.after.offset) ∧
      last.file.offset = file.offsetBehind accesses) ∧
    ((∀ access ∈ accesses, access.Served) →
      ((∃ events last, Held.run ⟨file, position⟩ accesses = some (events, last)) ↔
        ∀ front count, (front ++ [Access.consume count]) <+: accesses →
          file.offsetBehind front + count.toNat < UInt64.size)) := by
  have hwithin := within_of_open? hopen
  have hoffset := (offset_of_open? hopen).1
  constructor
  · intro events last hrun
    rcases accounted_run hwithin hrun with ⟨hmap, hevents, hlast⟩
    rw [hoffset] at hlast
    refine ⟨hmap, fun e he => ?_, hlast⟩
    rcases hevents e he with ⟨haccounted, hbefore⟩
    rw [hoffset] at hbefore
    exact ⟨haccounted, hbefore, haccounted.offset_le⟩
  · intro hserved
    have hiff := exists_run_iff (s := ⟨file, position⟩) hwithin hserved
    rw [hoffset] at hiff
    exact hiff

/-- A capture of one record with two octets, and of three octets behind it. -/
def shortContent : Bytes :=
  [0xd4, 0xc3, 0xb2, 0xa1, 2, 0, 4, 0, 0, 0, 0, 0, 0, 0, 0, 0, 0xff, 0xff, 0, 0, 1, 0, 0, 0,
    7, 0, 0, 0, 9, 0, 0, 0, 2, 0, 0, 0, 5, 0, 0, 0, 0xaa, 0xbb,
    8, 0, 0]

/-- Two octets are done with; four are read in parts, with an interruption;
    twenty are not to be had; and then the largest count is done with that has
    a sum with the offset. -/
def farAccesses : List Access :=
  [.consume 2, .read 4 [.interrupted, .upTo 3, .upTo 0, .upTo 9, .upTo 9, .upTo 9],
    .read 20 (List.replicate 21 (.upTo 7)), .consume 18446744073709551589]

theorem offset_only_goes_on_farAccesses :
    ∃ file events last, open? "day.pcap" (.ok (.file shortContent)) = .ok file ∧
      (∀ access ∈ farAccesses, access.Served) ∧
      Held.run ⟨file, 3⟩ farAccesses = some (events, last) ∧
      (∀ e ∈ events, e.Accounted file) ∧
      events.map (·.after.offset) = [26, 26, 26, 45] := by
  have hopen : ∃ file, open? "day.pcap" (.ok (.file shortContent)) = .ok file ∧
      (Held.run ⟨file, 3⟩ farAccesses).map (fun made => made.1.map (·.after.offset))
        = some [26, 26, 26, 45] := ⟨_, rfl, rfl⟩
  rcases hopen with ⟨file, hopen, hoffsets⟩
  have hserved : ∀ access ∈ farAccesses, access.Served := by decide
  obtain ⟨⟨events, last⟩, hrun, hevents⟩ := Option.map_eq_some_iff.mp hoffsets
  rcases (offset_only_goes_on hopen 3 farAccesses).1 events last hrun with ⟨-, haccounted, -⟩
  exact ⟨file, events, last, hopen, hserved, hrun, fun e he => (haccounted e he).1, hevents⟩

/-- A count that reaches far behind the end of the file, and with which the
    offset is not put there. -/
theorem far_count_fails :
    ∃ file, open? "day.pcap" (.ok (.file shortContent)) = .ok file ∧
      file.size < file.offset + (18446744073709551615 : UInt64).toNat ∧
      Held.run ⟨file, 24⟩ [.consume 18446744073709551615] = none :=
  ⟨_, rfl, by decide, rfl⟩

end CaptureFile

namespace Producer

variable {p rest : Producer} {batch : Batch} {batches : List Batch} {outcome : CaptureOutcome}

/-- A reading that has a place in its file never fails in itself. It is over with
    its counts, or with a record that is too large. -/
theorem Sound.ne_readingFailed (h : p.Sound) (hpub : Publishes p batches outcome) :
    outcome ≠ .error .readingFailed := by
  rcases Record.exists_splits p.file.header.byteOrder p.ahead with ⟨records, tail, hsplits⟩
  rcases Record.exists_runs p.chunkSize records with ⟨groups, left, hruns⟩
  -- The reading is the one of these runs, and that one ends with its verdict.
  rw [(hpub.unique (publishes_of_runs h hsplits hruns)).2, verdict]
  split <;> simp only [ne_eq, reduceCtorEq, Except.error.injEq, not_false_eq_true]

/-- A read that gives a batch has moved the offset by some count. -/
theorem file_of_publish (hread : p.read false = .publish batch rest) :
    ∃ count, p.file.consume? count = some rest.file := by
  simp only [read, Bool.false_eq_true, if_false] at hread
  split at hread
  · cases hread
  · split at hread
    · cases hread
    · split at hread
      · split at hread <;> cases hread
      · rw [publish] at hread
        dsimp only at hread
        split at hread
        · cases hread
        · next file hconsume =>
            cases hread
            exact ⟨_, hconsume⟩

/-- With every batch the offset goes on, and it stays within the file. -/
theorem Sound.offset_lt_of_publish (h : p.Sound) (hread : p.read false = .publish batch rest) :
    p.file.offset < rest.file.offset ∧ rest.file.offset ≤ p.file.size := by
  rcases h.of_publish hread with ⟨hrest, hless⟩
  rcases file_of_publish hread with ⟨count, hconsume⟩
  have hoffset := hrest.offset
  -- There is less to read of a file that has the same size.
  have hsize : rest.file.size = p.file.size := by
    rw [(CaptureFile.consume?_eq_some_iff.mp hconsume).2]
    rfl
  rw [CaptureFile.remaining, CaptureFile.remaining, hsize] at hless
  omega

end Producer

end MarketFeed
