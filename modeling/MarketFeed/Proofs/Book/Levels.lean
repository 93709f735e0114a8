import MarketFeed.Proofs.Book.Sound
import Mathlib.Algebra.BigOperators.Group.List.Lemmas
import Mathlib.Algebra.Order.BigOperators.Group.List
import Mathlib.Algebra.Order.Group.Int
import Mathlib.Algebra.Ring.Nat

/-!
# What a Reader of a Book Sees

The levels of a book as an account of its resting orders.

A reader is shown levels and never an order, so what the levels say has to be
right in every state a book can get into. Here it is said in terms of the
orders alone: where there is a level and what it holds, which levels a list of
the best has and in which order, what the best of them is, and that no order is
counted on no level or on two.

A list of the best levels is a front of the ladder. The ladder is sorted, so
what such a front leaves out comes behind all that it has, and it leaves
nothing out unless it is full. That says all there is to say of it.

All but the last come from `Sound` at one price at a time. The last is about
all prices at once. The prices of a ladder are the prices of its side's
orders, each of them once, so the counts of the levels are the counts of how
often each price occurs, and those add up to the number of orders. No level is
without an order, so there are no more levels than orders, and a list with room
for as many levels has them all.

## Main definitions

* `Book.ladder`: The levels of one side.
* `Book.RestsAt`: An order rests at a price of a side.
* `Book.Listed`: The best levels of a side, by its orders.
* `Book.LevelsAccount`: Everything a reader is shown is right.

## Theorems

* `listed_take`: A front of a ladder has the best levels.
* `sum_orders_top`: A list with room for all levels counts every order.
* `levels_account_for_orders`: It is right after every history.
-/

namespace MarketFeed

namespace Book

/-- The levels of one side. Only buyers and sellers have any. -/
def ladder (b : Book) : Side → Ladder
  | .bid => b.bids
  | .offer => b.asks
  | _ => []

/-- An order rests at this price of this side. -/
def RestsAt (b : Book) (side : Side) (price : Int64) : Prop :=
  ∃ id order, Keyed.find? id b.orders = some order ∧ order.side = side ∧ order.price = price

/-- The best levels of a side, as far as there is room for them. Where a price
    stands in the list is up to `better`, and all else is up to the orders. -/
structure Listed (b : Book) (side : Side) (better : Int64 → Int64 → Prop) (room : Nat)
    (shown : List Level) : Prop where
  /-- It is the front of the ladder. -/
  front : shown = (b.ladder side).levels.take room
  /-- There are no more levels than there is room for. -/
  length : shown.length ≤ room
  /-- Better prices come first, and none comes twice. -/
  ordered : shown.Pairwise fun x y => better x.price y.price
  /-- A level is what the orders at its price come to, and there are some. -/
  level : ∀ level ∈ shown, b.RestsAt side level.price ∧
    level.volume = ((ordersAt side level.price b.orders).map fun order => order.volume.toInt).sum ∧
    level.orders = (ordersAt side level.price b.orders).length ∧
    0 < level.volume ∧ 0 < level.orders
  /-- A price at which an order rests is left out only of a full list, all of
      which is better. -/
  complete : ∀ price, b.RestsAt side price →
    (∃ level ∈ shown, level.price = price) ∨
      shown.length = room ∧ ∀ level ∈ shown, better level.price price

/-- What a reader is shown of a book is what its orders come to. -/
structure LevelsAccount (b : Book) : Prop where
  /-- Whatever rests has a side, a price and a positive volume. -/
  orders : ∀ id order, Keyed.find? id b.orders = some order →
    (order.side = .bid ∨ order.side = .offer) ∧ order.price ≠ Price.absent ∧
      0 < order.volume ∧ order.volume ≠ Price.absent
  /-- There is a level where an order rests, and nowhere else. -/
  level_iff : ∀ side price,
    (∃ pool, Keyed.find? price (b.ladder side) = some pool) ↔ b.RestsAt side price
  /-- A level's volume is the sum of its orders' volumes. -/
  volume : ∀ side price pool, Keyed.find? price (b.ladder side) = some pool →
    pool.volume = ((ordersAt side price b.orders).map fun order => order.volume.toInt).sum
  /-- A level's count is the number of its orders. -/
  count : ∀ side price pool, Keyed.find? price (b.ladder side) = some pool →
    pool.orders = (ordersAt side price b.orders).length
  /-- The best bids are listed from the highest price down. -/
  top_bids : ∀ depth, b.Listed .bid (fun x y => y < x) depth (b.top depth).1
  /-- The best offers are listed from the lowest price up. -/
  top_asks : ∀ depth, b.Listed .offer (fun x y => x < y) depth (b.top depth).2
  /-- The best bid has the highest price at which a buyer's order rests. -/
  bestBid : ∀ level, b.bestBid = some level →
    b.RestsAt .bid level.price ∧ ∀ price, b.RestsAt .bid price → price ≤ level.price
  /-- There is a best bid if a buyer's order rests. -/
  bestBid_eq_none : b.bestBid = none ↔ ∀ price, ¬ b.RestsAt .bid price
  /-- The best offer has the lowest price at which a seller's order rests. -/
  bestAsk : ∀ level, b.bestAsk = some level →
    b.RestsAt .offer level.price ∧ ∀ price, b.RestsAt .offer price → level.price ≤ price
  /-- There is a best offer if a seller's order rests. -/
  bestAsk_eq_none : b.bestAsk = none ↔ ∀ price, ¬ b.RestsAt .offer price
  /-- Where no level is left out, every order is counted on one level. -/
  top_total : ∀ depth, b.bids.length ≤ depth → b.asks.length ≤ depth →
    (((b.top depth).1 ++ (b.top depth).2).map Level.orders).sum = b.orderCount
  /-- There are no more levels than orders, so there is a depth at which no level
      is left out. -/
  levels_le : b.bids.length ≤ b.orderCount ∧ b.asks.length ≤ b.orderCount

end Book

/-! ## One ladder -/

namespace Ladder

open Book

variable {before : Int64 → Int64 → Bool} {side : Side} {price : Int64}
  {orders : List (Int64 × RestingOrder)} {ladder : Ladder} {pool : Pool} {level : Level}

/-- A level is listed exactly if its pool is found under its price. -/
theorem mem_levels_iff (hstrict : Keyed.Strict before) (h : Keyed.Sorted before ladder) :
    level ∈ ladder.levels ↔ Keyed.find? level.price ladder = some ⟨level.volume, level.orders⟩ := by
  rw [← Keyed.mem_iff_find? hstrict h, levels, List.mem_map]
  constructor
  · rintro ⟨⟨p, pool⟩, hmem, rfl⟩
    exact hmem
  · exact fun hmem => ⟨_, hmem, rfl⟩

/-- Of two levels, the one in front has the better price. -/
theorem pairwise_levels (h : Keyed.Sorted before ladder) :
    ladder.levels.Pairwise fun x y => before x.price y.price = true :=
  List.pairwise_map.mpr h

/-- The level in front is there, and comes before every other. -/
theorem head_levels (hstrict : Keyed.Strict before) (h : Keyed.Sorted before ladder)
    (hhead : ladder.levels.head? = some level) :
    Keyed.find? level.price ladder = some ⟨level.volume, level.orders⟩ ∧
      ∀ price pool, Keyed.find? price ladder = some pool →
        level.price = price ∨ before level.price price = true := by
  have hmem : level ∈ ladder.levels := List.mem_of_mem_head? hhead
  refine ⟨(mem_levels_iff hstrict h).mp hmem, fun price pool hfind => ?_⟩
  have hother : (⟨price, pool.volume, pool.orders⟩ : Level) ∈ ladder.levels :=
    (mem_levels_iff hstrict h).mpr hfind
  have hsorted := pairwise_levels h
  -- Whatever is not in front stands behind the front of a sorted list.
  cases hlevels : ladder.levels with
  | nil => rw [hlevels] at hhead; cases hhead
  | cons first rest =>
      rw [hlevels] at hhead hother hsorted
      cases hhead
      rcases List.mem_cons.mp hother with heq | hrest
      · exact Or.inl (congrArg Level.price heq).symm
      · exact Or.inr (List.rel_of_pairwise_cons hsorted hrest)

/-- What a level holds, read off its orders. -/
theorem Aggregates.find?_eq_some_iff (h : ladder.Aggregates before side orders) :
    Keyed.find? price ladder = some pool ↔ ordersAt side price orders ≠ [] ∧
      pool.volume = ((ordersAt side price orders).map fun order => order.volume.toInt).sum ∧
      pool.orders = (ordersAt side price orders).length := by
  rw [h.pools]
  by_cases hnil : ordersAt side price orders = []
  · simp only [hnil, poolOf, reduceCtorEq, ne_eq, not_true_eq_false, false_and]
  · rw [poolOf_of_ne_nil hnil, Option.some.injEq]
    constructor
    · rintro rfl
      exact ⟨hnil, rfl, rfl⟩
    · rintro ⟨-, hvolume, horders⟩
      cases pool
      simp only at hvolume horders
      rw [hvolume, horders]

/-- How many of a side's orders have a price is how many rest at it. -/
theorem count_prices (side : Side) (price : Int64) (orders : List (Int64 × RestingOrder)) :
    (((Keyed.values orders).filter (·.side == side)).map (·.price)).count price
      = (ordersAt side price orders).length := by
  rw [List.count_eq_countP, List.countP_map, List.countP_filter, ordersAt,
    ← List.countP_eq_length_filter]
  congr 1
  funext order
  simp only [Function.comp_apply, isAt, Bool.and_comm]

theorem mem_prices_iff : price ∈ ((Keyed.values orders).filter (·.side == side)).map (·.price) ↔
    ordersAt side price orders ≠ [] := by
  rw [← List.count_pos_iff, count_prices, List.length_pos_iff]

/-- The counts of a ladder add up to the orders of its side. -/
theorem Aggregates.sum_orders (hstrict : Keyed.Strict before)
    (h : ladder.Aggregates before side orders) :
    (ladder.levels.map Level.orders).sum
      = ((Keyed.values orders).filter (·.side == side)).length := by
  -- The ladder has the prices of the orders, and by its order it has each of
  -- them once. So the two lists of prices are the same up to rearrangement.
  have hprices : ∀ price, price ∈ ladder.map Prod.fst ↔
      price ∈ (((Keyed.values orders).filter (·.side == side)).map (·.price)).dedup := by
    intro price
    rw [List.mem_dedup, mem_prices_iff, List.mem_map]
    constructor
    · rintro ⟨⟨p, pool⟩, hmem, rfl⟩
      exact (h.find?_eq_some_iff.mp (Keyed.find?_eq_some_of_mem hstrict h.sorted hmem)).1
    · intro hne
      have hpool := h.pools price
      rw [poolOf_of_ne_nil hne] at hpool
      exact ⟨(price, _), Keyed.mem_of_find? hpool, rfl⟩
  have hnodup : (ladder.map Prod.fst).Nodup := by
    refine List.pairwise_map.mpr (h.sorted.imp fun {x y} hxy heq => ?_)
    rw [heq, hstrict.irrefl] at hxy
    cases hxy
  have hperm := (List.perm_ext_iff_of_nodup hnodup (List.nodup_dedup _)).mpr hprices
  -- Each level's count is how often its price occurs among the orders.
  have hcounts : ladder.levels.map Level.orders = (ladder.map Prod.fst).map
      (((Keyed.values orders).filter (·.side == side)).map (·.price)).count := by
    rw [levels, List.map_map, List.map_map]
    refine List.map_congr_left fun entry hmem => ?_
    have hentry : (entry.1, entry.2) ∈ ladder := hmem
    have hfind := Keyed.find?_eq_some_of_mem hstrict h.sorted hentry
    simp only [Function.comp_apply, count_prices, (h.find?_eq_some_iff.mp hfind).2.2]
  rw [hcounts, (hperm.map _).sum_eq, List.sum_map_count_dedup_eq_length, List.length_map]

end Ladder

/-! ## The whole book -/

namespace Book

open Ladder

variable {b : Book} {side : Side} {price : Int64}

/-- The orders at a level are those that have its side and its price. -/
theorem mem_ordersAt {orders : List (Int64 × RestingOrder)} {order : RestingOrder} :
    order ∈ ordersAt side price orders ↔
      (∃ id, (id, order) ∈ orders) ∧ order.side = side ∧ order.price = price := by
  unfold ordersAt Keyed.values
  rw [List.mem_filter, isAt_iff, List.mem_map]
  simp only [Prod.exists, exists_eq_right]

/-- A level has orders exactly if one rests there. -/
theorem ordersAt_ne_nil_iff (h : Sound b) :
    ordersAt side price b.orders ≠ [] ↔ b.RestsAt side price := by
  constructor
  · intro hne
    rcases List.exists_mem_of_ne_nil _ hne with ⟨order, hmem⟩
    rcases mem_ordersAt.mp hmem with ⟨⟨id, hid⟩, hat⟩
    exact ⟨id, order, Keyed.find?_eq_some_of_mem strict_idOrder h.sorted hid, hat⟩
  · rintro ⟨id, order, hfind, hat⟩
    exact List.ne_nil_of_mem (mem_ordersAt.mpr ⟨⟨id, Keyed.mem_of_find? hfind⟩, hat⟩)

/-- A level of either side, read off the orders. The other sides have no
    levels because nothing rests on them. -/
theorem find?_ladder_iff (h : Sound b) (side : Side) (price : Int64) (pool : Pool) :
    Keyed.find? price (b.ladder side) = some pool ↔ b.RestsAt side price ∧
      pool.volume = ((ordersAt side price b.orders).map fun order => order.volume.toInt).sum ∧
      pool.orders = (ordersAt side price b.orders).length := by
  rw [← ordersAt_ne_nil_iff h]
  -- Whatever rests in a sound book is a bid or an offer.
  have hempty : side ≠ .bid → side ≠ .offer → ordersAt side price b.orders = [] := by
    intro hbid hoffer
    by_contra hne
    rcases (ordersAt_ne_nil_iff h).mp hne with ⟨id, order, hfind, hside, -⟩
    rcases (rests_iff.mp (h.rests id order hfind)).2.2.2 with hs | hs
    · exact hbid (hside.symm.trans hs)
    · exact hoffer (hside.symm.trans hs)
  cases side with
  | bid => exact h.bids.find?_eq_some_iff
  | offer => exact h.asks.find?_eq_some_iff
  | emptyBook => simp only [ladder, Keyed.find?_nil, hempty (by decide) (by decide),
      reduceCtorEq, ne_eq, not_true_eq_false, false_and]
  | unknown code => simp only [ladder, Keyed.find?_nil, hempty Side.noConfusion Side.noConfusion,
      reduceCtorEq, ne_eq, not_true_eq_false, false_and]

/-- Where an order rests, the ladder has the sum and the number of all that rest
    there. -/
theorem find?_ladder_of_restsAt (h : Sound b) (hrests : b.RestsAt side price) :
    Keyed.find? price (b.ladder side)
      = some ⟨((ordersAt side price b.orders).map fun order => order.volume.toInt).sum,
          (ordersAt side price b.orders).length⟩ :=
  (find?_ladder_iff h side price _).mpr ⟨hrests, rfl, rfl⟩

/-- Whatever rests has a positive volume. -/
theorem volumes_pos (h : Sound b) (side : Side) (price : Int64) :
    ∀ volume ∈ (ordersAt side price b.orders).map fun order => order.volume.toInt, 0 < volume := by
  intro volume hmem
  rcases List.mem_map.mp hmem with ⟨order, horder, rfl⟩
  rcases (mem_ordersAt.mp horder).1 with ⟨id, hid⟩
  have hpos := (rests_iff.mp (h.rests id order
    (Keyed.find?_eq_some_of_mem strict_idOrder h.sorted hid))).2.2.1
  exact Int64.lt_iff_toInt_lt.mp hpos

/-- A level is never empty, and its volume is positive with its orders'. -/
theorem pool_pos (h : Sound b) (side : Side) {pool : Pool}
    (hfind : Keyed.find? price (b.ladder side) = some pool) :
    0 < pool.volume ∧ 0 < pool.orders := by
  rcases (find?_ladder_iff h side price pool).mp hfind with ⟨hrests, hvolume, horders⟩
  have hne := (ordersAt_ne_nil_iff h).mpr hrests
  constructor
  · rw [hvolume]
    exact List.sum_pos _ (volumes_pos h side price) (by simpa only [ne_eq, List.map_eq_nil_iff])
  · rw [horders]
    exact List.length_pos_of_ne_nil hne

/-- A front of a ladder has the best levels of its side. -/
theorem listed_take {before : Int64 → Int64 → Bool} {better : Int64 → Int64 → Prop} (h : Sound b)
    (side : Side) (hstrict : Keyed.Strict before) (hsorted : Keyed.Sorted before (b.ladder side))
    (hbetter : ∀ x y, before x y = true → better x y) (room : Nat) :
    b.Listed side better room ((b.ladder side).levels.take room) := by
  have hordered : (b.ladder side).levels.Pairwise fun x y => better x.price y.price :=
    (pairwise_levels hsorted).imp (hbetter _ _)
  constructor
  case front => rfl
  case length => exact List.length_take_le _ _
  case ordered => exact hordered.take
  case level =>
    intro level hmem
    have hfind := (mem_levels_iff hstrict hsorted).mp (List.mem_of_mem_take hmem)
    rcases (find?_ladder_iff h side _ _).mp hfind with ⟨hrests, hvolume, horders⟩
    exact ⟨hrests, hvolume, horders, pool_pos h side hfind⟩
  case complete =>
    intro price hrests
    obtain ⟨pool, hfind⟩ : ∃ pool, Keyed.find? price (b.ladder side) = some pool :=
      ⟨_, find?_ladder_of_restsAt h hrests⟩
    have hmem : ⟨price, pool.volume, pool.orders⟩ ∈ (b.ladder side).levels :=
      (mem_levels_iff hstrict hsorted).mpr hfind
    -- The level is in the front or behind it. Behind a front there is something
    -- only if the front is full.
    rw [← List.take_append_drop room (b.ladder side).levels] at hmem hordered
    rcases List.mem_append.mp hmem with hfront | hbehind
    · exact Or.inl ⟨_, hfront, rfl⟩
    · refine Or.inr ⟨?_, fun level hlevel => ?_⟩
      · have hlength := List.length_pos_of_mem hbehind
        rw [List.length_drop] at hlength
        rw [List.length_take]
        omega
      · exact (List.pairwise_append.mp hordered).2.2 level hlevel _ hbehind

/-- No order is on two sides, and none is on no side. -/
theorem length_sides (h : Sound b) :
    ((Keyed.values b.orders).filter (·.side == .bid)).length
      + ((Keyed.values b.orders).filter (·.side == .offer)).length = b.orderCount := by
  -- An order that is no bid is an offer, since it rests.
  have hoffer : (Keyed.values b.orders).filter (·.side == .offer)
      = (Keyed.values b.orders).filter (fun order => !(order.side == .bid)) := by
    refine List.filter_congr fun order hmem => ?_
    rcases List.mem_map.mp hmem with ⟨⟨id, found⟩, hid, rfl⟩
    rcases (rests_iff.mp (h.rests id found
      (Keyed.find?_eq_some_of_mem strict_idOrder h.sorted hid))).2.2.2 with hs | hs <;>
      simp only [hs] <;> decide
  rw [hoffer, ← List.length_eq_length_filter_add, Keyed.values, List.length_map, orderCount]

/-- The best bid is the highest price at which a bid rests. -/
theorem bestBid_spec (h : Sound b) {level : Level} (hbest : b.bestBid = some level) :
    b.RestsAt .bid level.price ∧ ∀ price, b.RestsAt .bid price → price ≤ level.price := by
  -- The first bid comes before every other, and before means higher.
  rcases head_levels strict_bidOrder h.bids.sorted hbest with ⟨hfind, hfirst⟩
  refine ⟨((find?_ladder_iff h .bid _ _).mp hfind).1, fun price hrests => ?_⟩
  rcases hfirst price _ (find?_ladder_of_restsAt h hrests) with heq | hbefore
  · exact heq ▸ Int64.le_refl _
  · exact Int64.le_of_lt (of_decide_eq_true hbefore)

/-- The best offer is the lowest price at which an offer rests. -/
theorem bestAsk_spec (h : Sound b) {level : Level} (hbest : b.bestAsk = some level) :
    b.RestsAt .offer level.price ∧ ∀ price, b.RestsAt .offer price → level.price ≤ price := by
  -- The first offer comes before every other, and before means lower.
  rcases head_levels strict_askOrder h.asks.sorted hbest with ⟨hfind, hfirst⟩
  refine ⟨((find?_ladder_iff h .offer _ _).mp hfind).1, fun price hrests => ?_⟩
  rcases hfirst price _ (find?_ladder_of_restsAt h hrests) with heq | hbefore
  · exact heq ▸ Int64.le_refl _
  · exact Int64.le_of_lt (of_decide_eq_true hbefore)

/-- A side without a best level is one on which nothing rests. -/
theorem head_ladder_eq_none_iff (h : Sound b) (side : Side) :
    (b.ladder side).levels.head? = none ↔ ∀ price, ¬ b.RestsAt side price := by
  rw [List.head?_eq_none_iff, levels, List.map_eq_nil_iff]
  constructor
  · intro hnil price hrests
    have hlevel := find?_ladder_of_restsAt h hrests
    rw [hnil] at hlevel
    cases hlevel
  · intro hnone
    cases hladder : b.ladder side with
    | nil => rfl
    | cons first rest =>
        have hfind : Keyed.find? first.1 (b.ladder side) = some first.2 := by
          rw [hladder, Keyed.find?, if_pos rfl]
        exact absurd ((find?_ladder_iff h side _ _).mp hfind).1 (hnone first.1)

/-- Each order is counted on one level of the two ladders. -/
theorem sum_orders_levels (h : Sound b) :
    ((b.bids.levels ++ b.asks.levels).map Level.orders).sum = b.orderCount := by
  rw [List.map_append, List.sum_append, h.bids.sum_orders strict_bidOrder,
    h.asks.sum_orders strict_askOrder, length_sides h]

/-- A list with room for all levels counts every order. -/
theorem sum_orders_top (h : Sound b) {depth : Nat} (hbids : b.bids.length ≤ depth)
    (hasks : b.asks.length ≤ depth) :
    (((b.top depth).1 ++ (b.top depth).2).map Level.orders).sum = b.orderCount := by
  have htop : b.top depth = (b.bids.levels, b.asks.levels) := by
    rw [top, List.take_of_length_le, List.take_of_length_le] <;>
      rwa [levels, List.length_map]
  rw [htop]
  exact sum_orders_levels h

/-- There are no more levels than orders, because no level is without one. -/
theorem length_ladders_le (h : Sound b) : b.bids.length + b.asks.length ≤ b.orderCount := by
  have hpos : ∀ count ∈ (b.bids.levels ++ b.asks.levels).map Level.orders, 1 ≤ count := by
    intro count hmem
    rcases List.mem_map.mp hmem with ⟨level, hlevel, rfl⟩
    rcases List.mem_append.mp hlevel with hbid | hask
    · exact (pool_pos h .bid ((mem_levels_iff strict_bidOrder h.bids.sorted).mp hbid)).2
    · exact (pool_pos h .offer ((mem_levels_iff strict_askOrder h.asks.sorted).mp hask)).2
  have hlength := List.length_le_sum_of_one_le _ hpos
  rw [sum_orders_levels h, List.length_map, List.length_append, levels, levels, List.length_map,
    List.length_map] at hlength
  exact hlength

/-- What a reader is shown is right after every history. -/
theorem levels_account_for_orders (history : List Operation) : LevelsAccount (after history) := by
  have h := sound_after history
  have hlevels := length_ladders_le h
  -- The invariant says what rests at each level, and the ladders are read off
  -- it.
  refine
    { orders := fun id order hfind => ?_
      level_iff := fun side price => ?_
      volume := fun side price pool hfind => ((find?_ladder_iff h side price pool).mp hfind).2.1
      count := fun side price pool hfind => ((find?_ladder_iff h side price pool).mp hfind).2.2
      top_bids := fun depth => ?_
      top_asks := fun depth => ?_
      bestBid := fun level => bestBid_spec h
      bestBid_eq_none := head_ladder_eq_none_iff h .bid
      bestAsk := fun level => bestAsk_spec h
      bestAsk_eq_none := head_ladder_eq_none_iff h .offer
      top_total := fun depth => sum_orders_top h
      levels_le := by omega }
  · rcases rests_iff.mp (h.rests id order hfind) with ⟨hprice, habsent, hpos, hside⟩
    exact ⟨hside, hprice, hpos, habsent⟩
  · constructor
    · rintro ⟨pool, hfind⟩
      exact ((find?_ladder_iff h side price pool).mp hfind).1
    · exact fun hrests => ⟨_, find?_ladder_of_restsAt h hrests⟩
  · exact listed_take h .bid strict_bidOrder h.bids.sorted (fun _ _ => of_decide_eq_true) depth
  · exact listed_take h .offer strict_askOrder h.asks.sorted (fun _ _ => of_decide_eq_true) depth

end Book

end MarketFeed
