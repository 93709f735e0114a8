import MarketFeed.Proofs.Snapshot
import Mathlib.Data.List.Dedup
import Mathlib.Data.List.Induction

/-!
# The Last Entry of Each Price

What a snapshot holds, in terms of the entries that were put into it.

Where an entry goes is decided by its side and its price, its spot. An entry
that is kept takes its spot, and whatever had the spot before is gone. So of
all entries that were put in, those are left that were kept and that no later
one has taken the spot of. One step of this is a write into one of the two
ladders, where an entry of the other side has another spot; the rest is the
history of the entries, the last one looked at first.

Everything else follows from what is left and from the order of the ladders:
each spot is there once, the best entry of a side is the one in front, and the
entries read out in order build the same snapshot again.

## Main definitions

* `Snapshot.spot`: The side and the price of an entry.
* `Snapshot.LastKept`: The entry was kept, and none has come after it there.
* `Snapshot.HoldsLast`: A snapshot is what it should be of these entries.

## Theorems

* `lastKept_concat`, `mem_entries_insert`: One entry more, in the history and
  in the snapshot.
* `mem_entries_ofEntries`: What is left of the entries.
* `length_dedup_spots`: Each spot is there once.
* `last_entries_remain`: All of it, for every list of entries.
-/

namespace MarketFeed

namespace Snapshot

/-- Where an entry belongs: its side and its price. -/
def spot (entry : BookEntry) : Side × Int64 := (entry.side, entry.orderPrice)

/-- The entry is kept, and no later one has its spot. -/
def LastKept (found : List BookEntry) (entry : BookEntry) : Prop :=
  ∃ front back, found = front ++ entry :: back ∧ keeps entry = true ∧
    ∀ later ∈ back, spot later ≠ spot entry

/-- A snapshot with this header holds the last of these entries at each spot,
    and nothing else. -/
structure HoldsLast (header : SnapshotHeader) (found : List BookEntry) (s : Snapshot) : Prop where
  /-- The header is the one it was begun with. -/
  header : s.header = header
  /-- The bids are listed from the highest price down. -/
  bids_ordered : s.bidEntries.Pairwise fun x y => y.orderPrice < x.orderPrice
  /-- The offers are listed from the lowest price up. -/
  asks_ordered : s.askEntries.Pairwise fun x y => x.orderPrice < y.orderPrice
  /-- A listed bid is the last that was kept at its price. -/
  mem_bids : ∀ entry, entry ∈ s.bidEntries ↔ LastKept found entry ∧ entry.side = .bid
  /-- A listed offer is the last that was kept at its price. -/
  mem_asks : ∀ entry, entry ∈ s.askEntries ↔ LastKept found entry ∧ entry.side = .offer
  /-- There is a bid at each price at which one was kept. -/
  bid_at : ∀ price, (∃ entry ∈ s.bidEntries, entry.orderPrice = price) ↔
    ∃ entry ∈ found, keeps entry = true ∧ entry.side = .bid ∧ entry.orderPrice = price
  /-- There is an offer at each price at which one was kept. -/
  ask_at : ∀ price, (∃ entry ∈ s.askEntries, entry.orderPrice = price) ↔
    ∃ entry ∈ found, keeps entry = true ∧ entry.side = .offer ∧ entry.orderPrice = price
  /-- Whatever is listed has a price. -/
  priced : ∀ entry ∈ s.bidEntries ++ s.askEntries, entry.orderPrice ≠ Price.absent
  /-- There are as many entries as spots at which one was kept. -/
  size : s.size = ((found.filter keeps).map spot).dedup.length
  /-- The best bid has the highest price of all bids that were kept. -/
  bestBid : ∀ entry, s.bestBid = some entry ↔ entry ∈ s.bidEntries ∧
    ∀ other ∈ found, keeps other = true → other.side = .bid →
      other.orderPrice ≤ entry.orderPrice
  /-- The best offer has the lowest price of all offers that were kept. -/
  bestAsk : ∀ entry, s.bestAsk = some entry ↔ entry ∈ s.askEntries ∧
    ∀ other ∈ found, keeps other = true → other.side = .offer →
      entry.orderPrice ≤ other.orderPrice
  /-- Bids and offers, put in again in order, give the same snapshot. -/
  again : ofEntries s.header (s.bidEntries ++ s.askEntries) = s

variable {before : Int64 → Int64 → Bool} {side : Side} {entry last other : BookEntry}
  {found : List BookEntry} {entries : List (Int64 × BookEntry)} {s : Snapshot}

/-! ## Spots -/

/-- Kept is what has a price and one of the two sides. -/
theorem keeps_iff : keeps entry = true ↔
    entry.orderPrice ≠ Price.absent ∧ (entry.side = .bid ∨ entry.side = .offer) := by
  rw [keeps, Bool.and_eq_true, Bool.or_eq_true, beq_iff_eq, beq_iff_eq, bne_iff_ne]

/-- The spot alone decides whether an entry is kept. -/
theorem keeps_congr (h : spot other = spot entry) : keeps other = keeps entry := by
  rw [spot, spot, Prod.mk.injEq] at h
  rw [keeps, keeps, h.1, h.2]

theorem LastKept.keeps (h : LastKept found entry) : keeps entry = true := by
  obtain ⟨_, _, _, hkeeps, -⟩ := h
  exact hkeeps

theorem LastKept.mem (h : LastKept found entry) : entry ∈ found := by
  obtain ⟨front, back, rfl, -⟩ := h
  exact List.mem_append_right front List.mem_cons_self

/-- One entry more takes its spot, if it is kept, and leaves the others. -/
theorem lastKept_concat : LastKept (found ++ [last]) entry ↔
    Snapshot.keeps last = true ∧ entry = last ∨ LastKept found entry ∧ spot last ≠ spot entry := by
  constructor
  · rintro ⟨front, back, heq, hkeeps, hlater⟩
    -- The entry is the last of all, or the last comes after it.
    rcases List.eq_nil_or_concat' back with rfl | ⟨init, latest, rfl⟩
    · obtain ⟨rfl, hlast⟩ := List.append_inj' heq rfl
      cases hlast
      exact Or.inl ⟨hkeeps, rfl⟩
    · rw [← List.cons_append, ← List.append_assoc] at heq
      obtain ⟨rfl, hlast⟩ := List.append_inj' heq rfl
      cases hlast
      refine Or.inr ⟨⟨front, init, rfl, hkeeps, fun later hmem => ?_⟩, ?_⟩
      · exact hlater later (List.mem_append_left _ hmem)
      · exact hlater last (List.mem_append_right _ List.mem_cons_self)
  · rintro (⟨hkeeps, rfl⟩ | ⟨⟨front, back, rfl, hkeeps, hlater⟩, hspot⟩)
    · exact ⟨found, [], rfl, hkeeps, fun _ hmem => (List.not_mem_nil hmem).elim⟩
    · refine ⟨front, back ++ [last], by rw [List.append_assoc, List.cons_append], hkeeps, ?_⟩
      intro later hmem
      rcases List.mem_append.mp hmem with hmem | hmem
      · exact hlater later hmem
      · rw [List.mem_singleton.mp hmem]
        exact hspot

/-- Where an entry was kept, one is the last. -/
theorem exists_lastKept (hmem : other ∈ found) (hkeeps : Snapshot.keeps other = true) :
    ∃ entry, LastKept found entry ∧ spot entry = spot other := by
  induction found using List.reverseRecOn with
  | nil => exact (List.not_mem_nil hmem).elim
  | append_singleton found last ih =>
      by_cases hlast : spot last = spot other
      · exact ⟨last, lastKept_concat.mpr (Or.inl ⟨keeps_congr hlast ▸ hkeeps, rfl⟩), hlast⟩
      · rcases List.mem_append.mp hmem with hmem | hmem
        · obtain ⟨entry, hentry, hspot⟩ := ih hmem
          exact ⟨entry, lastKept_concat.mpr (Or.inr ⟨hentry, hspot ▸ hlast⟩), hspot⟩
        · rw [List.mem_singleton.mp hmem] at hlast
          exact absurd rfl hlast

/-! ## One ladder -/

/-- Of two entries on a side, the one in front has the better price. -/
theorem Ranked.pairwise_values (h : Ranked before side entries) :
    (Keyed.values entries).Pairwise fun x y => before x.orderPrice y.orderPrice = true := by
  rw [Keyed.values, List.pairwise_map]
  refine h.sorted.imp_of_mem fun hx hy hbefore => ?_
  rwa [h.price _ hx, h.price _ hy]

/-- Inserting puts the new entry in and takes out what had its price. -/
theorem Ranked.mem_values_insert (h : Ranked before side entries)
    (hstrict : Keyed.Strict before) :
    entry ∈ Keyed.values (Keyed.insert before last.orderPrice last entries) ↔
      entry = last ∨ entry ∈ Keyed.values entries ∧ last.orderPrice ≠ entry.orderPrice := by
  have hperm := (Keyed.perm_insert hstrict h.sorted last.orderPrice last).map Prod.snd
  rw [Keyed.values, hperm.mem_iff, List.map_cons, List.mem_cons]
  refine or_congr Iff.rfl ?_
  simp only [Keyed.values, Keyed.erase, List.mem_map, List.mem_filter, bne_iff_ne]
  constructor
  · rintro ⟨pair, ⟨hmem, hne⟩, rfl⟩
    exact ⟨⟨pair, hmem, rfl⟩, fun heq => hne (by rw [heq, h.price pair hmem])⟩
  · rintro ⟨⟨pair, hmem, rfl⟩, hne⟩
    exact ⟨pair, ⟨hmem, fun heq => hne (by rw [← heq, h.price pair hmem])⟩, rfl⟩

/-- The entry in front comes before every other. -/
theorem Ranked.head?_eq_some_iff (h : Ranked before side entries) (hstrict : Keyed.Strict before) :
    (Keyed.values entries).head? = some entry ↔ entry ∈ Keyed.values entries ∧
      ∀ other ∈ Keyed.values entries, before other.orderPrice entry.orderPrice = false := by
  have hsorted := h.pairwise_values
  generalize Keyed.values entries = listed at hsorted
  cases listed with
  | nil => simp only [List.head?_nil, reduceCtorEq, List.not_mem_nil, false_and]
  | cons first rest =>
      rw [List.head?_cons, Option.some.injEq]
      constructor
      · rintro rfl
        refine ⟨List.mem_cons_self, fun other hother => ?_⟩
        rcases List.mem_cons.mp hother with rfl | hrest
        · exact hstrict.irrefl _
        · -- If it came before the front as well, it would come before itself.
          by_contra hbefore
          have hself := hstrict.trans _ _ _ (Bool.not_eq_false _ ▸ hbefore)
            (List.rel_of_pairwise_cons hsorted hrest)
          rw [hstrict.irrefl] at hself
          cases hself
      · rintro ⟨hmem, hfirst⟩
        rcases List.mem_cons.mp hmem with rfl | hrest
        · rfl
        · have hbefore := List.rel_of_pairwise_cons hsorted hrest
          rw [hfirst first List.mem_cons_self] at hbefore
          cases hbefore

/-! ## Both sides -/

/-- Among the bids there are only bids. -/
theorem Sound.side_of_mem_bids (h : s.Sound) (hmem : entry ∈ s.bidEntries) : entry.side = .bid :=
  (h.bids.of_mem_values entry hmem).2

theorem Sound.side_of_mem_asks (h : s.Sound) (hmem : entry ∈ s.askEntries) : entry.side = .offer :=
  (h.asks.of_mem_values entry hmem).2

/-- All entries of a sound snapshot are such as are kept. -/
theorem Sound.keeps_of_mem (h : s.Sound) (hmem : entry ∈ s.entries) : keeps entry = true := by
  rcases List.mem_append.mp hmem with hmem | hmem
  · exact (h.bids.of_mem_values entry hmem).1
  · exact (h.asks.of_mem_values entry hmem).1

/-- One entry more takes its spot, if it is kept, and leaves the others. -/
theorem mem_entries_insert (h : s.Sound) : entry ∈ (s.insert last).entries ↔
    keeps last = true ∧ entry = last ∨ entry ∈ s.entries ∧ spot last ≠ spot entry := by
  by_cases hkeeps : keeps last = true
  · rw [and_iff_right hkeeps, spot, spot, ne_eq, Prod.mk.injEq]
    rcases side_of_keeps hkeeps with hside | hside
    · rw [insert_bid hkeeps hside, entries, entries, List.mem_append, List.mem_append]
      simp only [bidEntries, askEntries, h.bids.mem_values_insert strict_bidOrder]
      have hasks : entry ∈ Keyed.values s.asks → last.side ≠ entry.side := fun hmem => by
        rw [hside, h.side_of_mem_asks hmem]
        decide
      have hbids : entry ∈ Keyed.values s.bids → last.side = entry.side := fun hmem => by
        rw [hside, h.side_of_mem_bids hmem]
      tauto
    · rw [insert_offer hkeeps hside, entries, entries, List.mem_append, List.mem_append]
      simp only [bidEntries, askEntries, h.asks.mem_values_insert strict_askOrder]
      have hasks : entry ∈ Keyed.values s.asks → last.side = entry.side := fun hmem => by
        rw [hside, h.side_of_mem_asks hmem]
      have hbids : entry ∈ Keyed.values s.bids → last.side ≠ entry.side := fun hmem => by
        rw [hside, h.side_of_mem_bids hmem]
        decide
      tauto
  · rw [insert_of_not_keeps s (Bool.not_eq_true _ ▸ hkeeps)]
    -- It has the spot of no entry that is there, since that entry is kept.
    have hspot : entry ∈ s.entries → spot last ≠ spot entry := fun hmem hsame =>
      hkeeps (keeps_congr hsame ▸ h.keeps_of_mem hmem)
    tauto

/-! ## What is left of the entries -/

variable {header : SnapshotHeader} {listed : List BookEntry}

theorem ofEntries_concat (header : SnapshotHeader) (found : List BookEntry) (last : BookEntry) :
    ofEntries header (found ++ [last]) = (ofEntries header found).insert last :=
  List.foldl_append

/-- Entries leave the header as it was. -/
theorem header_ofEntries (header : SnapshotHeader) (found : List BookEntry) :
    (ofEntries header found).header = header := by
  induction found using List.reverseRecOn with
  | nil => rfl
  | append_singleton found last ih => rw [ofEntries_concat, header_insert, ih]

/-- In the snapshot is, of each side and price, the last entry that was given
    for them, and nothing else. -/
theorem mem_entries_ofEntries :
    entry ∈ (ofEntries header found).entries ↔ LastKept found entry := by
  induction found using List.reverseRecOn with
  | nil => exact ⟨fun h => (List.not_mem_nil h).elim, fun h => (List.not_mem_nil h.mem).elim⟩
  | append_singleton found last ih =>
      rw [ofEntries_concat, mem_entries_insert (sound_ofEntries header found), ih, lastKept_concat]

/-- The bids are the last entries that are bids. -/
theorem mem_bidEntries_ofEntries :
    entry ∈ (ofEntries header found).bidEntries ↔ LastKept found entry ∧ entry.side = .bid := by
  have hsound := sound_ofEntries header found
  rw [← mem_entries_ofEntries, entries, List.mem_append]
  constructor
  · exact fun h => ⟨Or.inl h, hsound.side_of_mem_bids h⟩
  · rintro ⟨h | h, hside⟩
    · exact h
    · rw [hsound.side_of_mem_asks h] at hside
      cases hside

theorem mem_askEntries_ofEntries :
    entry ∈ (ofEntries header found).askEntries ↔ LastKept found entry ∧ entry.side = .offer := by
  have hsound := sound_ofEntries header found
  rw [← mem_entries_ofEntries, entries, List.mem_append]
  constructor
  · exact fun h => ⟨Or.inr h, hsound.side_of_mem_asks h⟩
  · rintro ⟨h | h, hside⟩
    · rw [hsound.side_of_mem_bids h] at hside
      cases hside
    · exact h

/-! ## Spots that were taken -/

theorem Ranked.nodup_spots (h : Ranked before side entries) (hstrict : Keyed.Strict before) :
    ((Keyed.values entries).map spot).Nodup := by
  refine List.pairwise_map.mpr (h.pairwise_values.imp fun hbefore hsame => ?_)
  rw [(Prod.mk.inj hsame).2, hstrict.irrefl] at hbefore
  cases hbefore

/-- No side and price has two entries. -/
theorem Sound.nodup_spots (h : s.Sound) : (s.entries.map spot).Nodup := by
  rw [entries, List.map_append]
  refine (h.bids.nodup_spots strict_bidOrder).append (h.asks.nodup_spots strict_askOrder) ?_
  intro taken hbid hask
  obtain ⟨x, hx, rfl⟩ := List.mem_map.mp hbid
  obtain ⟨y, hy, hsame⟩ := List.mem_map.mp hask
  have hside := (Prod.mk.inj hsame).1
  rw [h.side_of_mem_bids hx, h.side_of_mem_asks hy] at hside
  cases hside

/-- Each spot at which an entry was kept is there once. -/
theorem length_dedup_spots (header : SnapshotHeader) (found : List BookEntry) :
    (ofEntries header found).size = ((found.filter keeps).map spot).dedup.length := by
  have hlength : (ofEntries header found).size
      = ((ofEntries header found).entries.map spot).length := by
    simp only [size, entries, bidEntries, askEntries, Keyed.values, List.length_map,
      List.length_append]
  rw [hlength]
  refine List.Perm.length_eq ((List.perm_ext_iff_of_nodup
    (sound_ofEntries header found).nodup_spots (List.nodup_dedup _)).mpr fun taken => ?_)
  simp only [List.mem_dedup, List.mem_map, List.mem_filter, mem_entries_ofEntries]
  constructor
  · rintro ⟨entry, hentry, rfl⟩
    exact ⟨entry, ⟨hentry.mem, hentry.keeps⟩, rfl⟩
  · rintro ⟨other, ⟨hmem, hkeeps⟩, rfl⟩
    exact exists_lastKept hmem hkeeps

/-- A price is listed exactly if some entry was kept for it. -/
theorem exists_at_iff (hlisted : ∀ entry, entry ∈ listed ↔ LastKept found entry ∧ entry.side = side)
    (price : Int64) : (∃ entry ∈ listed, entry.orderPrice = price) ↔
      ∃ entry ∈ found, keeps entry = true ∧ entry.side = side ∧ entry.orderPrice = price := by
  constructor
  · rintro ⟨entry, hmem, hprice⟩
    obtain ⟨hentry, hside⟩ := (hlisted entry).mp hmem
    exact ⟨entry, hentry.mem, hentry.keeps, hside, hprice⟩
  · rintro ⟨other, hmem, hkeeps, rfl, rfl⟩
    obtain ⟨entry, hentry, hspot⟩ := exists_lastKept hmem hkeeps
    obtain ⟨hside, hprice⟩ := Prod.mk.inj hspot
    exact ⟨entry, (hlisted entry).mpr ⟨hentry, hside⟩, hprice⟩

/-- The entry in front of a side is the best of all that were kept there. -/
theorem Ranked.head?_eq_some_iff_best (h : Ranked before side entries)
    (hstrict : Keyed.Strict before)
    (hlisted : ∀ entry, entry ∈ Keyed.values entries ↔ LastKept found entry ∧ entry.side = side) :
    (Keyed.values entries).head? = some entry ↔ entry ∈ Keyed.values entries ∧
      ∀ other ∈ found, keeps other = true → other.side = side →
        before other.orderPrice entry.orderPrice = false := by
  rw [h.head?_eq_some_iff hstrict]
  refine and_congr_right fun _ => ⟨fun hbest other hmem hkeeps hside => ?_,
    fun hbest other hmem => ?_⟩
  · -- Some entry is listed at its price.
    obtain ⟨there, hthere, hprice⟩ :=
      (exists_at_iff hlisted other.orderPrice).mpr ⟨other, hmem, hkeeps, hside, rfl⟩
    rw [← hprice]
    exact hbest there hthere
  · obtain ⟨hother, hside⟩ := (hlisted other).mp hmem
    exact hbest other hother.mem hother.keeps hside

/-! ## All of it -/

/-- A snapshot holds what was last given of each side and price. -/
theorem holdsLast_ofEntries (header : SnapshotHeader) (found : List BookEntry) :
    HoldsLast header found (ofEntries header found) := by
  have hsound := sound_ofEntries header found
  -- The two sides are alike up to the order of their prices.
  have hbids : ∀ entry, entry ∈ (ofEntries header found).bidEntries ↔
      LastKept found entry ∧ entry.side = .bid := fun _ => mem_bidEntries_ofEntries
  have hasks : ∀ entry, entry ∈ (ofEntries header found).askEntries ↔
      LastKept found entry ∧ entry.side = .offer := fun _ => mem_askEntries_ofEntries
  refine ⟨header_ofEntries header found, ?_, ?_, hbids, hasks, exists_at_iff hbids,
    exists_at_iff hasks, ?_, length_dedup_spots header found, fun entry => ?_, fun entry => ?_,
    ofEntries_entries hsound⟩
  · exact hsound.bids.pairwise_values.imp of_decide_eq_true
  · exact hsound.asks.pairwise_values.imp of_decide_eq_true
  · exact fun entry hmem => (keeps_iff.mp (hsound.keeps_of_mem hmem)).1
  · have hbest : (ofEntries header found).bestBid = some entry ↔ _ :=
      hsound.bids.head?_eq_some_iff_best strict_bidOrder hbids
    simp only [bidOrder, decide_eq_false_iff_not, Int64.not_lt] at hbest
    exact hbest
  · have hbest : (ofEntries header found).bestAsk = some entry ↔ _ :=
      hsound.asks.head?_eq_some_iff_best strict_askOrder hasks
    simp only [askOrder, decide_eq_false_iff_not, Int64.not_lt] at hbest
    exact hbest

/-- Whatever a snapshot holds, it tells that an entry is kept exactly if the entry
    has a price and is on one of the two sides. What it keeps is there afterwards,
    and what it does not keep leaves it as it was. A snapshot that was built from
    entries holds the last of them at each price of each side, in order, and can be
    built again from what it holds. -/
theorem last_entries_remain :
    (∀ (s : Snapshot) (entry : BookEntry),
      ((s.put entry).2 = true ↔
        entry.orderPrice ≠ Price.absent ∧ (entry.side = .bid ∨ entry.side = .offer)) ∧
      ((s.put entry).2 = true → entry ∈ (s.put entry).1.entries) ∧
      ((s.put entry).2 = false → (s.put entry).1 = s)) ∧
    ∀ (header : SnapshotHeader) (found : List BookEntry),
      HoldsLast header found (ofEntries header found) := by
  refine ⟨fun s entry => ?_, holdsLast_ofEntries⟩
  rw [put_eq]
  refine ⟨keeps_iff, fun hkeeps => ?_, s.insert_of_not_keeps⟩
  dsimp only
  rcases side_of_keeps hkeeps with hside | hside
  · rw [insert_bid hkeeps hside]
    exact List.mem_append_left _ (List.mem_map_of_mem
      (Keyed.mem_of_find? (Keyed.find?_insert_self bidOrder entry.orderPrice entry s.bids)))
  · rw [insert_offer hkeeps hside]
    exact List.mem_append_right _ (List.mem_map_of_mem
      (Keyed.mem_of_find? (Keyed.find?_insert_self askOrder entry.orderPrice entry s.asks)))

end Snapshot

end MarketFeed
