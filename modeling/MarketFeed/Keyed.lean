/-!
# Lists Kept in the Order of Their Keys

Finite maps as lists of pairs, strictly ascending in an order on the keys.

A price ladder is read from its best price on, the resting orders are counted
and looked up, and the books are reported by ascending security. A sorted
list serves all three: its order is the order of the report, and two maps
with the same content are equal as lists, so a law about a book can be an
equation.

The order is an argument. The two sides of a book differ in nothing but the
direction in which their prices run.

## Main definitions

* `Keyed.insert`: Set the value of a key.
* `Keyed.find?`: The value of a key.
* `Keyed.erase`: Forget a key.
* `Keyed.Sorted`: The keys ascend strictly.

## Theorems

* `find?_insert_self`, `find?_insert_of_ne`: What is found after a write.
* `find?_erase_self`, `find?_erase_of_ne`: What is found after a removal.
* `sorted_insert`, `sorted_erase`: Both keep the keys in order.
-/

namespace MarketFeed

namespace Keyed

variable {κ β : Type}

/-- The value of a key. -/
def find? [DecidableEq κ] (key : κ) : List (κ × β) → Option β
  | [] => none
  | (k, v) :: rest => if k = key then some v else find? key rest

/-- Set the value of a key: in place if the key is there, before the first
    key that comes after it otherwise. -/
def insert [DecidableEq κ] (before : κ → κ → Bool) (key : κ) (value : β) :
    List (κ × β) → List (κ × β)
  | [] => [(key, value)]
  | (k, v) :: rest =>
    if k = key then (key, value) :: rest
    else if before key k then (key, value) :: (k, v) :: rest
    else (k, v) :: insert before key value rest

/-- Forget a key. -/
def erase [DecidableEq κ] (key : κ) (entries : List (κ × β)) : List (κ × β) :=
  entries.filter fun entry => entry.1 != key

/-- The values in the order of their keys. -/
def values (entries : List (κ × β)) : List β := entries.map Prod.snd

/-- The keys ascend strictly. -/
def Sorted (before : κ → κ → Bool) (entries : List (κ × β)) : Prop :=
  entries.Pairwise fun a b => before a.1 b.1 = true

variable [DecidableEq κ]

@[simp] theorem find?_nil (key : κ) : find? key ([] : List (κ × β)) = none := rfl

/-- What was inserted is found under its key. -/
theorem find?_insert_self (before : κ → κ → Bool) (key : κ) (value : β)
    (entries : List (κ × β)) : find? key (insert before key value entries) = some value := by
  induction entries with
  | nil => simp [insert, find?]
  | cons entry rest ih =>
    obtain ⟨k, v⟩ := entry
    rw [insert]
    split
    · simp [find?]
    · next hk =>
      split
      · simp [find?]
      · simp [find?, hk, ih]

/-- Inserting does not show under any other key. -/
theorem find?_insert_of_ne (before : κ → κ → Bool) {key other : κ} (value : β)
    (hne : key ≠ other) (entries : List (κ × β)) :
    find? other (insert before key value entries) = find? other entries := by
  induction entries with
  | nil => simp [insert, find?, hne]
  | cons entry rest ih =>
    obtain ⟨k, v⟩ := entry
    rw [insert]
    split
    · next hk => simp [find?, hk, hne]
    · split
      · simp [find?, hne]
      · simp [find?, ih]

/-- Nothing is found under a key that was erased. -/
theorem find?_erase_self (key : κ) (entries : List (κ × β)) :
    find? key (erase key entries) = none := by
  unfold erase
  induction entries with
  | nil => rfl
  | cons entry rest ih =>
    obtain ⟨k, v⟩ := entry
    by_cases hk : k = key
    · simpa [List.filter_cons, hk] using ih
    · simpa [List.filter_cons, hk, find?] using ih

/-- Erasing does not show under any other key. -/
theorem find?_erase_of_ne {key other : κ} (hne : key ≠ other) (entries : List (κ × β)) :
    find? other (erase key entries) = find? other entries := by
  unfold erase
  induction entries with
  | nil => rfl
  | cons entry rest ih =>
    obtain ⟨k, v⟩ := entry
    by_cases hk : k = key
    · have hk' : ¬ k = other := fun h => hne (hk.symm.trans h)
      simpa [List.filter_cons, hk, find?, hne] using ih
    · rw [List.filter_cons_of_pos (by simp [hk])]
      simp [find?, ih]

/-- Inserting brings in nothing but the new entry. -/
theorem mem_of_mem_insert {before : κ → κ → Bool} {key : κ} {value : β} {entry : κ × β}
    {entries : List (κ × β)} (h : entry ∈ insert before key value entries) :
    entry = (key, value) ∨ entry ∈ entries := by
  induction entries with
  | nil => exact Or.inl (by simpa [insert] using h)
  | cons head rest ih =>
    obtain ⟨k, v⟩ := head
    rw [insert] at h
    split at h
    · rcases List.mem_cons.mp h with h | h
      · exact Or.inl h
      · exact Or.inr (List.mem_cons_of_mem _ h)
    · split at h
      · rcases List.mem_cons.mp h with h | h
        · exact Or.inl h
        · exact Or.inr h
      · rcases List.mem_cons.mp h with h | h
        · exact Or.inr (h ▸ List.mem_cons_self)
        · exact (ih h).imp id (List.mem_cons_of_mem _)

/-- Insertion keeps the order, given that the order is transitive and that
    two different keys are ordered one way or the other. -/
theorem sorted_insert {before : κ → κ → Bool}
    (trans : ∀ a b c, before a b = true → before b c = true → before a c = true)
    (total : ∀ a b, a ≠ b → before a b = false → before b a = true)
    (key : κ) (value : β) {entries : List (κ × β)} (h : Sorted before entries) :
    Sorted before (insert before key value entries) := by
  induction entries with
  | nil => simp [insert, Sorted]
  | cons head rest ih =>
    obtain ⟨k, v⟩ := head
    have hrest : Sorted before rest := List.Pairwise.of_cons h
    have hhead : ∀ entry ∈ rest, before k entry.1 = true := fun entry he =>
      List.rel_of_pairwise_cons h he
    rw [insert]
    split
    · next hk =>
      subst hk
      exact List.Pairwise.cons hhead hrest
    · next hk =>
      split
      · next hb =>
        refine List.Pairwise.cons (fun entry he => ?_) h
        rcases List.mem_cons.mp he with rfl | he
        · exact hb
        · exact trans _ _ _ hb (hhead entry he)
      · next hb =>
        have hkk : before k key = true :=
          total key k (fun e => hk e.symm) (by simpa using hb)
        -- The key goes further back, so the head is still in front of all that
        -- is there.
        refine List.Pairwise.cons (fun entry he => ?_) (ih hrest)
        rcases mem_of_mem_insert he with rfl | he
        · exact hkk
        · exact hhead entry he

/-- Erasing keeps the order of what stays. -/
theorem sorted_erase {before : κ → κ → Bool} (key : κ) {entries : List (κ × β)}
    (h : Sorted before entries) : Sorted before (erase key entries) :=
  List.Pairwise.filter _ h

end Keyed

end MarketFeed
