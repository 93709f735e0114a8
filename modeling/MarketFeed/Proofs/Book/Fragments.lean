import MarketFeed.Proofs.Book.Orders
import MarketFeed.Proofs.Snapshot
import Mathlib.Data.List.Induction

/-!
# Snapshots Start Over

What a book is after a snapshot, and what it still knows of the time before.

A snapshot message takes everything out of the book, unless the one before it
said that more fragments follow. What it leaves behind besides its orders is a
report number and that flag, and it writes both. So a book that waits for no
fragment takes a snapshot like an empty book that waits for one, and nothing
of its history is left: two such books are the same from the snapshot on.

The fragments of one snapshot are loaded one after the other into what the
first of them made of the empty book. Loading an entry decides what rests
under its identifier, whatever rested there, so of several entries under one
identifier the last decides, also across sides, prices and fragments. If its
volume is none to rest with, then nothing rests.

## Main definitions

* `Book.lastSnapshot?`, `Book.Whole`: The last snapshot of a history, and that
  no fragment of it is missing.
* `Book.awaiting`: The empty book that waits for a fragment.
* `Book.lastUnder?`, `Book.leftBy`: The last entry under an identifier, and
  the order that it leaves.

## Theorems

* `inSnapshot_after`: Whether a book waits for a fragment, by its history.
* `applySnapshot_eq_awaiting`: A snapshot starts over.
* `resting_load`: The last entry under an identifier decides.
* `resting_foldl_fragments`: So it does across fragments.
* `snapshots_start_over`: Both, for every history.
-/

namespace MarketFeed

namespace Book

variable {b : Book} {id : Int64} {found : List BookEntry}
variable {fragments : List (Envelope × Snapshot)}

/-- The envelope of the last snapshot in a history, unless the book has been
    cleared since. -/
def lastSnapshot? (history : List Operation) : Option Envelope :=
  history.foldl
    (fun last operation =>
      match operation with
      | .snapshot e _ => some e
      | .clear => none
      | .update _ | .execution _ => last)
    none

/-- The last snapshot in a history, if there is one, was a last fragment. -/
def Whole (history : List Operation) : Prop :=
  (lastSnapshot? history).all Envelope.isLastFragment = true

instance (history : List Operation) : Decidable (Whole history) :=
  inferInstanceAs (Decidable (_ = true))

/-- A book in which nothing rests, in the midst of a snapshot. -/
def awaiting : Book := { inSnapshot := true }

/-- The operation of a fragment with its envelope. -/
def fragment (f : Envelope × Snapshot) : Operation := .snapshot f.1 f.2

/-- The last of the entries under an identifier. -/
def lastUnder? (id : Int64) (found : List BookEntry) : Option BookEntry :=
  found.reverse.find? (·.orderId == id)

/-- The order that entries leave under an identifier: side, price and volume of
    the last of them, if it has a volume to rest with. -/
def leftBy (found : List BookEntry) (id : Int64) : Option RestingOrder :=
  match lastUnder? id found with
  | some entry =>
    if 0 < entry.orderVolume ∧ entry.orderVolume ≠ Price.absent then
      some ⟨entry.side, entry.orderPrice, entry.orderVolume⟩
    else none
  | none => none

/-! ## What is left of a history -/

theorem after_append (front back : List Operation) :
    after (front ++ back) = back.foldl perform (after front) :=
  List.foldl_append

/-- A book waits for a fragment exactly if its last snapshot said so. -/
theorem inSnapshot_after (history : List Operation) :
    (after history).inSnapshot = (lastSnapshot? history).any (!·.isLastFragment) := by
  induction history using List.reverseRecOn with
  | nil => rfl
  | append_singleton history operation ih =>
      rw [after_append, List.foldl_cons, List.foldl_nil]
      unfold lastSnapshot? at ih ⊢
      rw [List.foldl_append, List.foldl_cons, List.foldl_nil]
      cases operation with
      | update u => exact (inSnapshot_applyUpdate _ u).trans ih
      | execution x => exact (inSnapshot_applyExecution _ x).trans ih
      | snapshot e s => rfl
      | clear => rfl

/-- After a whole history the book waits for no fragment. -/
theorem inSnapshot_of_whole {history : List Operation} (h : Whole history) :
    (after history).inSnapshot = false := by
  rw [inSnapshot_after]
  unfold Whole at h
  cases hlast : lastSnapshot? history with
  | none => rfl
  | some e =>
      rw [hlast, Option.all_some] at h
      rw [Option.any_some, h, Bool.not_true]

/-! ## Starting over -/

-- The moves look at the orders and the ladders. What a book has beside them
-- can be written before or after.
theorem add_with (n : UInt32) (flag : Bool) (order : RestingOrder) :
    ({ b with lastRptSeq := n, inSnapshot := flag } : Book).add id order
      = { b.add id order with lastRptSeq := n, inSnapshot := flag } := by
  unfold add
  split
  · dsimp only
    split <;> rfl
  · rfl

theorem remove_with (n : UInt32) (flag : Bool) :
    ({ b with lastRptSeq := n, inSnapshot := flag } : Book).remove id
      = { b.remove id with lastRptSeq := n, inSnapshot := flag } := by
  unfold remove
  dsimp only
  split
  · rfl
  · split <;> rfl

theorem load_with (n : UInt32) (flag : Bool) (found : List BookEntry) :
    ({ b with lastRptSeq := n, inSnapshot := flag } : Book).load found
      = { b.load found with lastRptSeq := n, inSnapshot := flag } := by
  unfold load
  induction found generalizing b with
  | nil => rfl
  | cons entry rest ih =>
      rw [List.foldl_cons, List.foldl_cons, replace, remove_with, add_with, ih, replace]

/-- A book that waits for no fragment takes a snapshot like an empty book that
    waits for one. -/
theorem applySnapshot_eq_awaiting (h : b.inSnapshot = false) (e : Envelope) (s : Snapshot) :
    b.applySnapshot e s = awaiting.applySnapshot e s := by
  have hload : b.clear.load s.entries
      = { awaiting.load s.entries with lastRptSeq := b.lastRptSeq, inSnapshot := false } :=
    load_with (b := awaiting) b.lastRptSeq false s.entries
  simp only [applySnapshot, h, Bool.false_eq_true, if_false, hload, awaiting, if_true]

/-- Of a whole history a snapshot leaves nothing. -/
theorem after_snapshot_of_whole {history : List Operation} (h : Whole history) (e : Envelope)
    (s : Snapshot) (back : List Operation) :
    after (history ++ .snapshot e s :: back)
      = back.foldl perform (awaiting.applySnapshot e s) := by
  rw [after_append, List.foldl_cons, perform,
    applySnapshot_eq_awaiting (inSnapshot_of_whole h)]

/-! ## The last entry decides -/

/-- The last entry under an identifier is the last of the back part, if it has
    one. -/
theorem lastUnder?_append (id : Int64) (front back : List BookEntry) :
    lastUnder? id (front ++ back) = (lastUnder? id back).or (lastUnder? id front) := by
  rw [lastUnder?, List.reverse_append, List.find?_append, ← lastUnder?, ← lastUnder?]

theorem lastUnder?_mem {entry : BookEntry} (h : lastUnder? id found = some entry) :
    entry ∈ found :=
  List.mem_reverse.mp (List.mem_of_find?_eq_some h)

/-- Under an identifier rests what the last entry for it leaves, and what rested
    there if there is none. -/
theorem resting_load (b : Book) (found : List BookEntry) (id : Int64) :
    (b.load found).resting id
      = match lastUnder? id found with
        | some entry => (orderOf entry).filed
        | none => b.resting id := by
  unfold load
  induction found generalizing b with
  | nil => rfl
  | cons entry rest ih =>
      rw [List.foldl_cons, ih, resting_replace, ← List.singleton_append, lastUnder?_append]
      cases lastUnder? id rest with
      | some later => rfl
      | none =>
          -- No later entry has the identifier, so this one decides if it has it.
          by_cases hid : entry.orderId = id
          · have hone : lastUnder? id [entry] = some entry :=
              List.find?_cons_of_pos (beq_iff_eq.mpr hid)
            rw [hone, ← hid, Function.update_self]
            rfl
          · have hnone : lastUnder? id [entry] = none :=
              List.find?_cons_of_neg fun heq => hid (beq_iff_eq.mp heq)
            rw [hnone, Function.update_of_ne (Ne.symm hid)]
            rfl

theorem inSnapshot_applySnapshot (b : Book) (e : Envelope) (s : Snapshot) :
    (b.applySnapshot e s).inSnapshot = !e.isLastFragment := rfl

/-- A book that waits for a fragment keeps what it has. -/
theorem resting_applySnapshot (h : b.inSnapshot = true) (e : Envelope) (s : Snapshot) :
    (b.applySnapshot e s).resting = (b.load s.entries).resting := by
  unfold applySnapshot
  rw [if_pos h]
  rfl

/-- Each fragment but the last leaves the book waiting for the next, which is
    then loaded into what is there. -/
theorem resting_foldl_fragments (h : b.inSnapshot = true)
    (hopen : ∀ f ∈ fragments.dropLast, f.1.isLastFragment = false) (id : Int64) :
    (fragments.foldl (fun b f => b.applySnapshot f.1 f.2) b).resting id
      = match lastUnder? id (fragments.flatMap fun f => f.2.entries) with
        | some entry => (orderOf entry).filed
        | none => b.resting id := by
  induction fragments generalizing b with
  | nil => rfl
  | cons f rest ih =>
      rw [List.foldl_cons, List.flatMap_cons, lastUnder?_append]
      cases rest with
      | nil =>
          rw [List.foldl_nil, resting_applySnapshot h, resting_load, List.flatMap_nil]
          rfl
      | cons next rest =>
          rw [List.dropLast_cons_of_ne_nil (List.cons_ne_nil _ _)] at hopen
          rcases List.forall_mem_cons.mp hopen with ⟨hfirst, hrest⟩
          -- A fragment that is not the last leaves the book waiting for the
          -- next.
          have hwaits : (b.applySnapshot f.1 f.2).inSnapshot = true := by
            rw [inSnapshot_applySnapshot, hfirst, Bool.not_false]
          rw [ih hwaits hrest, resting_applySnapshot h, resting_load]
          cases lastUnder? id ((next :: rest).flatMap fun f => f.2.entries) <;> rfl

/-! ## The entries of a snapshot can rest by their volume -/

/-- Of an entry that was kept only the volume decides whether it rests. -/
theorem filed_orderOf {entry : BookEntry} (h : Snapshot.keeps entry = true) :
    (orderOf entry).filed
      = if 0 < entry.orderVolume ∧ entry.orderVolume ≠ Price.absent then some (orderOf entry)
        else none := by
  have hside := Snapshot.side_of_keeps h
  rw [Snapshot.keeps, Bool.and_eq_true, bne_iff_ne] at h
  have hiff : (orderOf entry).CanRest ↔
      0 < entry.orderVolume ∧ entry.orderVolume ≠ Price.absent :=
    ⟨fun hrests => hrests.2.2, fun hvolume => ⟨hside, h.1, hvolume⟩⟩
  rw [RestingOrder.filed]
  simp only [hiff]

/-- The entries of a sound snapshot have a price and a side. -/
theorem keeps_of_mem_entries {s : Snapshot} (h : s.Sound) {entry : BookEntry}
    (hentry : entry ∈ s.entries) : Snapshot.keeps entry = true := by
  rcases List.mem_append.mp hentry with hbid | hask
  · exact (h.bids.of_mem_values entry hbid).1
  · exact (h.asks.of_mem_values entry hask).1

/-- Fragments that a book takes which waits for none leave what their last
    entries leave. -/
theorem resting_fragments {history : List Operation} (hwhole : Whole history)
    (hne : fragments ≠ []) (hopen : ∀ f ∈ fragments.dropLast, f.1.isLastFragment = false)
    (hsound : ∀ f ∈ fragments, f.2.Sound) (id : Int64) :
    (after (history ++ fragments.map fragment)).resting id
      = leftBy (fragments.flatMap fun f => f.2.entries) id := by
  have hstart : after (history ++ fragments.map fragment)
      = fragments.foldl (fun b f => b.applySnapshot f.1 f.2) awaiting := by
    cases fragments with
    | nil => exact absurd rfl hne
    | cons f rest =>
        rw [List.map_cons, fragment, after_snapshot_of_whole hwhole, List.foldl_map]
        rfl
  rw [hstart, resting_foldl_fragments rfl hopen, leftBy]
  cases hlast : lastUnder? id (fragments.flatMap fun f => f.2.entries) with
  | none => rfl
  | some entry =>
      rcases List.mem_flatMap.mp (lastUnder?_mem hlast) with ⟨f, hf, hentry⟩
      exact filed_orderOf (keeps_of_mem_entries (hsound f hf) hentry)

/-- A snapshot erases the history of a book that waits for no fragment: from
    there on, any two such books are one and the same. The fragments of a
    snapshot accumulate: under each identifier rests what the last entry of all
    of them leaves. Behind a last fragment the next snapshot starts over from
    an empty book. -/
theorem snapshots_start_over :
    (∀ history history' : List Operation, Whole history → Whole history' →
      ∀ e s back, after (history ++ .snapshot e s :: back)
        = after (history' ++ .snapshot e s :: back)) ∧
    ∀ (history : List Operation) (fragments : List (Envelope × Snapshot))
      (last : Envelope × Snapshot), Whole history →
      (∀ f ∈ fragments, f.1.isLastFragment = false) → (∀ f ∈ fragments ++ [last], f.2.Sound) →
        (∀ id, (after (history ++ (fragments ++ [last]).map fragment)).resting id
          = leftBy ((fragments ++ [last]).flatMap fun f => f.2.entries) id) ∧
        (last.1.isLastFragment = true → ∀ e s back,
          after (history ++ (fragments ++ [last]).map fragment ++ .snapshot e s :: back)
            = after (.snapshot e s :: back)) := by
  have hforgets : ∀ history history' : List Operation, Whole history → Whole history' →
      ∀ e s back, after (history ++ .snapshot e s :: back)
        = after (history' ++ .snapshot e s :: back) := by
    intro history history' h h' e s back
    rw [after_snapshot_of_whole h, after_snapshot_of_whole h']
  refine ⟨hforgets, ?_⟩
  intro history fragments last hwhole hopen hsound
  refine ⟨fun id => ?_, fun hlast e s back => ?_⟩
  · refine resting_fragments hwhole (by simp) ?_ hsound id
    rw [List.dropLast_concat]
    exact hopen
  · -- The last of the fragments is the last snapshot of what is then the history.
    have hclosed : Whole (history ++ (fragments ++ [last]).map fragment) := by
      rw [Whole, lastSnapshot?, List.map_append, ← List.append_assoc, List.foldl_append]
      exact hlast
    exact hforgets _ [] hclosed rfl e s back

/-- A book that has seen a whole snapshot and an order since. -/
def dayOld : List Operation :=
  [.snapshot { messageFlags := 1 } (.ofEntries {} [⟨8, 0, 90, 4, 0, 0, 0, .bid⟩]),
    .update ⟨9, 95, 6, 0, 0, 1, 7, .new, .bid⟩]

/-- A snapshot in two fragments. The second moves an order of the first to the
    other side and takes the volume of another. -/
def firstFragment : Envelope × Snapshot :=
  ({}, .ofEntries {} [⟨1, 0, 100, 5, 0, 0, 0, .bid⟩, ⟨2, 0, 101, 3, 0, 0, 0, .offer⟩])

@[inherit_doc firstFragment]
def secondFragment : Envelope × Snapshot :=
  ({ messageFlags := 1 }, .ofEntries {} [⟨1, 0, 105, 7, 0, 0, 0, .offer⟩,
    ⟨2, 0, 102, 0, 0, 0, 0, .offer⟩])

/-- Of the book of the day nothing is left, and of the two orders of the
    fragments the one that still has a volume. -/
theorem snapshots_start_over_dayOld :
    after (dayOld ++ [firstFragment, secondFragment].map fragment)
        = after ([firstFragment, secondFragment].map fragment) ∧
      [1, 2, 8, 9].map (after (dayOld ++ [firstFragment, secondFragment].map fragment)).resting
        = [some ⟨.offer, 105, 7⟩, none, none, none] ∧
      after (dayOld ++ [firstFragment, secondFragment].map fragment ++ [fragment firstFragment])
        = after [fragment firstFragment] := by
  have hsound : ∀ f ∈ [firstFragment] ++ [secondFragment], f.2.Sound := by
    intro f hf
    rcases List.mem_pair.mp hf with rfl | rfl <;> exact Snapshot.sound_ofEntries _ _
  have hrest := snapshots_start_over.2 dayOld [firstFragment] secondFragment (by decide)
    (by decide) hsound
  refine ⟨snapshots_start_over.1 dayOld [] (by decide) (by decide) _ _ _, ?_,
    hrest.2 (by decide) _ _ _⟩
  exact (List.map_congr_left fun id _ => hrest.1 id).trans (by decide)

end Book

end MarketFeed
