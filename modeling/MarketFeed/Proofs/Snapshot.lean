import MarketFeed.Proofs.Book.Sound

/-!
# Snapshots by Their Entries

A snapshot is no more than its entries in order.

Whatever was put into a snapshot, each side holds entries of that side alone,
every one under its own price, and the prices are in order. So the entries
that a side is read out as come back in the order in which they would have to
be put in, each behind all that are there already, and putting them in one
after the other only appends. The two lists of entries are therefore enough
to build the snapshot again.

## Main definitions

* `Snapshot.Ranked`: One side of a snapshot as it can be.
* `Snapshot.Sound`: Both sides are.

## Theorems

* `sound_ofEntries`: Every snapshot that is built from entries is sound.
* `size_ofEntries_le`: It holds no more entries than were put in.
* `ofEntries_entries`: A sound snapshot is built again from its entries.
-/

namespace MarketFeed

namespace Keyed

variable {κ β : Type} [DecidableEq κ] {before : κ → κ → Bool} {key : κ} {value : β}
  {entries : List (κ × β)}

/-- A key behind all others is written at the end. -/
theorem insert_of_last (h : Strict before)
    (hlast : ∀ entry ∈ entries, before entry.1 key = true) :
    insert before key value entries = entries ++ [(key, value)] := by
  induction entries with
  | nil => rfl
  | cons head rest ih =>
      obtain ⟨k, v⟩ := head
      have hhead : before k key = true := hlast (k, v) List.mem_cons_self
      have hne : k ≠ key := fun heq => by
        rw [heq, h.irrefl] at hhead
        cases hhead
      have hback : ¬ before key k = true := fun hb => by
        have hself := h.trans k key k hhead hb
        rw [h.irrefl] at hself
        cases hself
      rw [insert, if_neg hne, if_neg hback, List.cons_append,
        ih fun entry he => hlast entry (List.mem_cons_of_mem _ he)]

theorem length_insert_le (before : κ → κ → Bool) (key : κ) (value : β) (entries : List (κ × β)) :
    (insert before key value entries).length ≤ entries.length + 1 := by
  induction entries with
  | nil => exact Nat.le_refl 1
  | cons head rest ih =>
      obtain ⟨k, v⟩ := head
      rw [insert]
      by_cases hk : k = key
      · simp only [if_pos hk, List.length_cons]
        omega
      · by_cases hb : before key k = true
        · simp only [if_neg hk, if_pos hb, List.length_cons]
          omega
        · simp only [if_neg hk, if_neg hb, List.length_cons]
          omega

end Keyed

namespace Snapshot

variable {before : Int64 → Int64 → Bool} {side : Side} {entry : BookEntry} {s : Snapshot}
  {entries done : List (Int64 × BookEntry)}

/-- Entries that are kept, of one side, each under its own price, and in the
    order of the prices. -/
structure Ranked (before : Int64 → Int64 → Bool) (side : Side)
    (entries : List (Int64 × BookEntry)) : Prop where
  sorted : Keyed.Sorted before entries
  kept : ∀ entry ∈ entries, keeps entry.2 = true
  side : ∀ entry ∈ entries, entry.2.side = side
  price : ∀ entry ∈ entries, entry.2.orderPrice = entry.1

/-- Both sides of the snapshot are in order. -/
structure Sound (s : Snapshot) : Prop where
  bids : Ranked bidOrder .bid s.bids
  asks : Ranked askOrder .offer s.asks

/-! ## Putting entries in -/

theorem ranked_nil : Ranked before side [] :=
  ⟨List.Pairwise.nil, fun _ h => (List.not_mem_nil h).elim, fun _ h => (List.not_mem_nil h).elim,
    fun _ h => (List.not_mem_nil h).elim⟩

/-- An entry of the right side takes its place among the ranks. -/
theorem Ranked.insert (h : Ranked before side entries) (hstrict : Keyed.Strict before)
    (hkeeps : keeps entry = true) (hside : entry.side = side) :
    Ranked before side (Keyed.insert before entry.orderPrice entry entries) := by
  have hmem : ∀ other ∈ Keyed.insert before entry.orderPrice entry entries,
      other = (entry.orderPrice, entry) ∨ other ∈ entries :=
    fun other => Keyed.mem_of_mem_insert
  refine ⟨hstrict.sorted_insert _ _ h.sorted, ?_, ?_, ?_⟩
  · intro other hother
    rcases hmem other hother with rfl | hold
    · exact hkeeps
    · exact h.kept other hold
  · intro other hother
    rcases hmem other hother with rfl | hold
    · exact hside
    · exact h.side other hold
  · intro other hother
    rcases hmem other hother with rfl | hold
    · rfl
    · exact h.price other hold

/-- An entry that is kept has a price. -/
theorem price_of_keeps (h : keeps entry = true) : entry.orderPrice ≠ Price.absent := by
  rw [keeps, Bool.and_eq_true, bne_iff_ne] at h
  exact h.1

/-- A bid goes to the bids. -/
theorem insert_bid (hkeeps : keeps entry = true) (hside : entry.side = .bid) (s : Snapshot) :
    s.insert entry = { s with bids := Keyed.insert bidOrder entry.orderPrice entry s.bids } := by
  rw [insert, put, if_neg (price_of_keeps hkeeps), hside]

theorem insert_offer (hkeeps : keeps entry = true) (hside : entry.side = .offer) (s : Snapshot) :
    s.insert entry = { s with asks := Keyed.insert askOrder entry.orderPrice entry s.asks } := by
  rw [insert, put, if_neg (price_of_keeps hkeeps), hside]

/-- An entry that is kept has a side. -/
theorem side_of_keeps (h : keeps entry = true) : entry.side = .bid ∨ entry.side = .offer := by
  rw [keeps, Bool.and_eq_true, Bool.or_eq_true, beq_iff_eq, beq_iff_eq] at h
  exact h.2

/-- One more entry, kept or not, leaves a snapshot sound. -/
theorem Sound.insert (h : s.Sound) (entry : BookEntry) : (s.insert entry).Sound := by
  by_cases hkeeps : keeps entry = true
  · rcases side_of_keeps hkeeps with hside | hside
    · rw [insert_bid hkeeps hside]
      exact ⟨h.bids.insert strict_bidOrder hkeeps hside, h.asks⟩
    · rw [insert_offer hkeeps hside]
      exact ⟨h.bids, h.asks.insert strict_askOrder hkeeps hside⟩
  · rw [insert_of_not_keeps s (Bool.not_eq_true _ ▸ hkeeps)]
    exact h

theorem size_insert_le (s : Snapshot) (entry : BookEntry) : (s.insert entry).size ≤ s.size + 1 := by
  by_cases hkeeps : keeps entry = true
  · rcases side_of_keeps hkeeps with hside | hside
    · have hlength := Keyed.length_insert_le bidOrder entry.orderPrice entry s.bids
      rw [insert_bid hkeeps hside, size, size]
      simp only
      omega
    · have hlength := Keyed.length_insert_le askOrder entry.orderPrice entry s.asks
      rw [insert_offer hkeeps hside, size, size]
      simp only
      omega
  · rw [insert_of_not_keeps s (Bool.not_eq_true _ ▸ hkeeps)]
    exact Nat.le_succ _

/-- Whatever the entries are, the snapshot of them is sound. -/
theorem sound_ofEntries (header : SnapshotHeader) (found : List BookEntry) :
    (ofEntries header found).Sound := by
  have hall : ∀ s : Snapshot, s.Sound → (found.foldl insert s).Sound := by
    induction found with
    | nil => exact fun s h => h
    | cons entry rest ih => exact fun s h => ih _ (h.insert entry)
  exact hall _ ⟨ranked_nil, ranked_nil⟩

/-- A snapshot has no more entries than it was built from. -/
theorem size_ofEntries_le (header : SnapshotHeader) (found : List BookEntry) :
    (ofEntries header found).size ≤ found.length := by
  have hall : ∀ s : Snapshot, (found.foldl insert s).size ≤ s.size + found.length := by
    induction found with
    | nil => exact fun s => Nat.le_refl _
    | cons entry rest ih =>
        intro s
        have hone := size_insert_le s entry
        have hrest := ih (s.insert entry)
        rw [List.foldl_cons, List.length_cons]
        omega
  have hnone : ({ header } : Snapshot).size = 0 := rfl
  have hempty := hall { header }
  rw [hnone, Nat.zero_add] at hempty
  exact hempty

/-! ## Building a snapshot again -/

/-- Put an entry on its side, under its own price. -/
def place (before : Int64 → Int64 → Bool) (entries : List (Int64 × BookEntry))
    (entry : BookEntry) : List (Int64 × BookEntry) :=
  Keyed.insert before entry.orderPrice entry entries

-- The entries that are already there are in front of those still to come, so
-- the induction carries both.
theorem Ranked.foldl_place (hstrict : Keyed.Strict before)
    (h : Ranked before side (done ++ entries)) :
    (Keyed.values entries).foldl (place before) done = done ++ entries := by
  induction entries generalizing done with
  | nil =>
      rw [List.append_nil]
      rfl
  | cons head rest ih =>
      obtain ⟨price, entry⟩ := head
      have hprice : entry.orderPrice = price :=
        h.price (price, entry) (List.mem_append_right _ List.mem_cons_self)
      have hlast : place before done entry = done ++ [(price, entry)] := by
        rw [place, hprice]
        refine Keyed.insert_of_last hstrict fun other hother => ?_
        exact (List.pairwise_append.mp h.sorted).2.2 other hother (price, entry) List.mem_cons_self
      have hjoin : done ++ (price, entry) :: rest = (done ++ [(price, entry)]) ++ rest := by
        rw [List.append_assoc, List.singleton_append]
      rw [hjoin] at h ⊢
      rw [Keyed.values, List.map_cons, List.foldl_cons, ← Keyed.values, hlast, ih h]

/-- Bids are placed among the bids, one after the other. -/
theorem foldl_insert_bids {found : List BookEntry}
    (h : ∀ entry ∈ found, keeps entry = true ∧ entry.side = .bid) (s : Snapshot) :
    found.foldl insert s = { s with bids := found.foldl (place bidOrder) s.bids } := by
  induction found generalizing s with
  | nil => rfl
  | cons entry rest ih =>
      rcases List.forall_mem_cons.mp h with ⟨⟨hkeeps, hside⟩, hrest⟩
      rw [List.foldl_cons, insert_bid hkeeps hside, ih hrest]
      rfl

theorem foldl_insert_offers {found : List BookEntry}
    (h : ∀ entry ∈ found, keeps entry = true ∧ entry.side = .offer) (s : Snapshot) :
    found.foldl insert s = { s with asks := found.foldl (place askOrder) s.asks } := by
  induction found generalizing s with
  | nil => rfl
  | cons entry rest ih =>
      rcases List.forall_mem_cons.mp h with ⟨⟨hkeeps, hside⟩, hrest⟩
      rw [List.foldl_cons, insert_offer hkeeps hside, ih hrest]
      rfl

/-- What is ranked on a side is kept, and is of that side. -/
theorem Ranked.of_mem_values (h : Ranked before side entries) :
    ∀ entry ∈ Keyed.values entries, keeps entry = true ∧ entry.side = side := by
  intro entry hentry
  rcases List.mem_map.mp hentry with ⟨pair, hpair, rfl⟩
  exact ⟨h.kept pair hpair, h.side pair hpair⟩

/-- A sound snapshot is built again from its entries. -/
theorem ofEntries_entries (h : s.Sound) : ofEntries s.header s.entries = s := by
  have hbids : (Keyed.values s.bids).foldl (place bidOrder) [] = [] ++ s.bids :=
    Ranked.foldl_place strict_bidOrder h.bids
  have hasks : (Keyed.values s.asks).foldl (place askOrder) [] = [] ++ s.asks :=
    Ranked.foldl_place strict_askOrder h.asks
  rw [List.nil_append] at hbids hasks
  rw [ofEntries, entries, List.foldl_append, bidEntries, askEntries,
    foldl_insert_bids h.bids.of_mem_values, foldl_insert_offers h.asks.of_mem_values, hbids, hasks]

end Snapshot

end MarketFeed
