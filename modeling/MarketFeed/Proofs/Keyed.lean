import MarketFeed.Keyed

/-!
# Sorted Maps by Their Content

What a map that is kept as a sorted list holds, apart from its order.

A level's total is a sum over the orders at its price, and a sum does not
care where in the list an order stands. So the facts that totals need are
facts up to rearrangement: writing a key puts one entry in the place of
whatever the key had, and forgetting a key takes its one entry out. That
there is no second entry for a key is what `Sorted` gives, since no key comes
before itself.

## Main definitions

* `Keyed.Strict`: An order on keys that is irreflexive, transitive and total.

## Theorems

* `mem_iff_find?`: The entries of a sorted map are what is found in it.
* `perm_insert`: A write, up to rearrangement.
* `perm_erase`: A removal, up to rearrangement.
* `eq_of_find?_eq`: A sorted map is determined by what is found in it.
* `Strict.sorted_insert`: A write keeps the order.
-/

namespace MarketFeed

namespace Keyed

variable {κ β : Type}

/-- The laws of an order on keys under which a sorted list is a map. -/
structure Strict (before : κ → κ → Bool) : Prop where
  /-- No key comes before itself. -/
  irrefl : ∀ a, before a a = false
  /-- What comes before something earlier comes before it. -/
  trans : ∀ a b c, before a b = true → before b c = true → before a c = true
  /-- Of two keys one comes first. -/
  total : ∀ a b, a ≠ b → before a b = false → before b a = true

/-- In a strict order nothing stands twice. -/
theorem Sorted.nodup {before : κ → κ → Bool} {entries : List (κ × β)} (h : Strict before)
    (hs : Sorted before entries) : entries.Nodup :=
  hs.imp fun hb heq => by
    rw [heq, h.irrefl] at hb
    cases hb

variable [DecidableEq κ] {before : κ → κ → Bool} {key : κ} {value : β}
  {entries others : List (κ × β)}

/-- Inserting keeps a strict order. -/
theorem Strict.sorted_insert (h : Strict before) (key : κ) (value : β)
    (hs : Sorted before entries) : Sorted before (insert before key value entries) :=
  Keyed.sorted_insert h.trans h.total key value hs

-- Searching compares keys from the front, so both directions are by
-- induction on the entries.
theorem mem_of_find? (h : find? key entries = some value) : (key, value) ∈ entries := by
  induction entries with
  | nil => cases h
  | cons head rest ih =>
      rcases head with ⟨k, v⟩
      rw [find?] at h
      by_cases hk : k = key
      · rw [if_pos hk, Option.some.injEq] at h
        rw [hk, h]
        exact List.mem_cons_self
      · rw [if_neg hk] at h
        exact List.mem_cons_of_mem _ (ih h)

/-- A key that comes before every entry of a map is not in it. -/
theorem find?_eq_none_of_before (h : Strict before)
    (hkey : ∀ entry ∈ entries, before key entry.1 = true) : find? key entries = none := by
  cases hfind : find? key entries with
  | none => rfl
  | some found =>
      -- If it were found, the key would come before itself.
      have hbefore := hkey _ (mem_of_find? hfind)
      rw [h.irrefl] at hbefore
      cases hbefore

/-- In a strict order everything that is there is found under its key. -/
theorem find?_eq_some_of_mem (h : Strict before) (hs : Sorted before entries)
    (hmem : (key, value) ∈ entries) : find? key entries = some value := by
  induction entries with
  | nil => cases hmem
  | cons head rest ih =>
      rcases head with ⟨k, v⟩
      rw [find?]
      rcases List.mem_cons.mp hmem with heq | hrest
      · cases heq
        rw [if_pos rfl]
      · -- The head comes before the entry, so it has another key.
        have hne : k ≠ key := fun heq => by
          have hb := List.rel_of_pairwise_cons hs hrest
          simp only [heq, h.irrefl] at hb
          cases hb
        rw [if_neg hne]
        exact ih (List.Pairwise.of_cons hs) hrest

/-- The entries of a sorted map are what is found in it. -/
theorem mem_iff_find? (h : Strict before) (hs : Sorted before entries) :
    (key, value) ∈ entries ↔ find? key entries = some value :=
  ⟨find?_eq_some_of_mem h hs, mem_of_find?⟩

/-- Erasing what is not there changes nothing. -/
theorem erase_of_find?_eq_none (h : find? key entries = none) : erase key entries = entries := by
  induction entries with
  | nil => rfl
  | cons head rest ih =>
      rcases head with ⟨k, v⟩
      rw [find?] at h
      by_cases hk : k = key
      · rw [if_pos hk] at h
        cases h
      · rw [if_neg hk] at h
        rw [erase, List.filter_cons_of_pos (by simp only [hk, bne_iff_ne, ne_eq,
          not_false_eq_true]), ← erase, ih h]

/-- A removal takes the one entry of the key out. -/
theorem perm_erase (h : Strict before) (hs : Sorted before entries)
    (hfind : find? key entries = some value) :
    entries.Perm ((key, value) :: erase key entries) := by
  induction entries with
  | nil => cases hfind
  | cons head rest ih =>
      rcases head with ⟨k, v⟩
      have hrest := List.Pairwise.of_cons hs
      rw [find?] at hfind
      by_cases hk : k = key
      · -- The key stands in front, and nothing behind it has it again.
        rw [if_pos hk, Option.some.injEq] at hfind
        subst hk hfind
        have hnone : find? k rest = none :=
          find?_eq_none_of_before h fun entry he => List.rel_of_pairwise_cons hs he
        rw [erase, List.filter_cons_of_neg (by simp only [bne_self_eq_false, Bool.false_eq_true,
          not_false_eq_true]), ← erase, erase_of_find?_eq_none hnone]
      · rw [if_neg hk] at hfind
        rw [erase, List.filter_cons_of_pos (by simp only [hk, bne_iff_ne, ne_eq,
          not_false_eq_true]), ← erase]
        exact (List.Perm.cons _ (ih hrest hfind)).trans (List.Perm.swap _ _ _)

/-- Removing a key does not care where a write has put it: at its old place, in
    front of the first later key, or at the end. -/
theorem erase_insert (before : κ → κ → Bool) (key : κ) (value : β) (entries : List (κ × β)) :
    erase key (insert before key value entries) = erase key entries := by
  unfold erase
  induction entries with
  | nil => simp only [insert, List.filter, bne_self_eq_false]
  | cons head rest ih =>
      rcases head with ⟨k, v⟩
      rw [insert]
      by_cases hk : k = key
      · simp only [hk, if_true, List.filter_cons, bne_self_eq_false, Bool.false_eq_true, if_false]
      · rw [if_neg hk]
        split
        · simp only [List.filter_cons, bne_self_eq_false, Bool.false_eq_true, if_false]
        · rw [List.filter_cons, List.filter_cons, ih]

/-- A write puts one entry in the place of whatever the key had. -/
theorem perm_insert (h : Strict before) (hs : Sorted before entries) (key : κ) (value : β) :
    (insert before key value entries).Perm ((key, value) :: erase key entries) := by
  -- The key is there after the write, so removing it again takes its one entry out.
  have hfind := find?_insert_self before key value entries
  have hperm := perm_erase h (h.sorted_insert key value hs) hfind
  rw [erase_insert] at hperm
  exact hperm

/-- A sorted map is determined by what is found in it. -/
theorem eq_of_find?_eq (h : Strict before) (hs : Sorted before entries)
    (hs' : Sorted before others) (hfind : ∀ key, find? key entries = find? key others) :
    entries = others := by
  have hmem : ∀ entry, entry ∈ entries ↔ entry ∈ others := by
    intro ⟨key, value⟩
    rw [mem_iff_find? h hs, mem_iff_find? h hs', hfind]
  -- The same entries in the same order. Two entries that each come before the
  -- other cannot be.
  have hperm := (List.perm_ext_iff_of_nodup (hs.nodup h) (hs'.nodup h)).mpr hmem
  refine List.Perm.eq_of_pairwise (fun a b _ _ hab hba => ?_) hs hs' hperm
  have hself := h.trans _ _ _ hab hba
  rw [h.irrefl] at hself
  cases hself

end Keyed

end MarketFeed
