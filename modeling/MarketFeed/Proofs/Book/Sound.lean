import MarketFeed.Book.Basic
import MarketFeed.Proofs.Keyed
import Mathlib.Algebra.BigOperators.Group.List.Basic
import Mathlib.Algebra.Ring.Int.Defs

/-!
# Sound Books

The invariant that ties the levels of a book to its orders.

A book keeps its orders and its levels apart, and every message changes both.
What must not happen is that a level keeps a share of an order that is gone,
or lacks the share of one that has come. `Sound` rules this out: what either
ladder has at a price is computed from the orders at that price, so the
levels carry no information of their own. Both moves keep it. An order that
comes adds its share to a level that was the total of the others; an order
that leaves takes its share out of a total that had it.

The two sides differ in nothing but the order of their prices, so the moves
are looked at once, for a ladder and the side it stands for. An order of the
other side is one that the ladder does not see.

Every state a book can get into is `Book.after` some history, and what holds
of every history is shown by induction on it.

## Main definitions

* `Book.Operation`, `Book.after`: What can happen to a book, and the book
  that a history leaves.
* `Book.ordersAt`: The orders at a price of one side.
* `Book.poolOf`: What orders come to together.
* `Ladder.Aggregates`: A ladder is the total of the orders of its side.
* `Book.Sound`: Both ladders are, and all orders can rest.

## Theorems

* `Ladder.Aggregates.deposit`, `Ladder.Aggregates.withdraw`: An order comes
  and leaves, as its ladder sees it.
* `sound_add`, `sound_remove`: Both moves keep a book sound.
* `sound_after`: The book of every history is sound.
-/

namespace MarketFeed

theorem strict_idOrder : Keyed.Strict idOrder where
  irrefl a := by simp only [idOrder, decide_eq_false_iff_not, Int64.lt_irrefl, not_false_eq_true]
  trans a b c := by
    simp only [idOrder, decide_eq_true_eq]
    exact Int64.lt_trans
  total a b := by
    simp only [idOrder, decide_eq_true_eq, decide_eq_false_iff_not]
    grind

theorem strict_askOrder : Keyed.Strict askOrder := strict_idOrder

theorem strict_bidOrder : Keyed.Strict bidOrder where
  irrefl a := by simp only [bidOrder, decide_eq_false_iff_not, Int64.lt_irrefl, not_false_eq_true]
  trans a b c := by
    simp only [bidOrder, decide_eq_true_eq]
    exact fun hba hcb => Int64.lt_trans hcb hba
  total a b := by
    simp only [bidOrder, decide_eq_true_eq, decide_eq_false_iff_not]
    grind

namespace Book

/-- What can happen to a book. -/
inductive Operation
  /-- A change to an order. -/
  | update (update : OrderUpdate)
  /-- A trade against an order. -/
  | execution (execution : OrderExecution)
  /-- A snapshot, with the envelope it came in. -/
  | snapshot (envelope : Envelope) (snapshot : Snapshot)
  /-- Every order is taken out. -/
  | clear

/-- The book after one operation. -/
def perform (b : Book) : Operation → Book
  | .update u => (b.applyUpdate u).1
  | .execution x => (b.applyExecution x).1
  | .snapshot e s => b.applySnapshot e s
  | .clear => b.clear

/-- The book that a history leaves, beginning with a book in which nothing
    rests. -/
def after (history : List Operation) : Book := history.foldl perform empty

/-- Whether an order rests at this price of this side. -/
def isAt (side : Side) (price : Int64) (order : RestingOrder) : Bool :=
  order.side == side && order.price == price

/-- The orders at a price of one side. -/
def ordersAt (side : Side) (price : Int64) (orders : List (Int64 × RestingOrder)) :
    List RestingOrder :=
  (Keyed.values orders).filter (isAt side price)

/-- What orders come to together; nothing, if there are none. -/
def poolOf : List RestingOrder → Option Pool
  | [] => none
  | orders => some ⟨(orders.map fun order => order.volume.toInt).sum, orders.length⟩

end Book

namespace Ladder

open Book

/-- A ladder has at each price what the orders at that price of its side come
    to. -/
structure Aggregates (before : Int64 → Int64 → Bool) (side : Side)
    (orders : List (Int64 × RestingOrder)) (ladder : Ladder) : Prop where
  /-- The levels stand in the order of their prices. -/
  sorted : Keyed.Sorted before ladder
  /-- Each level is the total of its orders. -/
  pools : ∀ price, Keyed.find? price ladder = poolOf (ordersAt side price orders)

end Ladder

/-- The ladders of a book are the totals of its orders, and all of them can
    rest. -/
structure Book.Sound (b : Book) : Prop where
  /-- The orders stand in the order of their identifiers. -/
  sorted : Keyed.Sorted idOrder b.orders
  /-- Every order has a side, a price and a volume to rest with. -/
  rests : ∀ id order, Keyed.find? id b.orders = some order →
    Book.rests order.side order.price order.volume = true
  /-- The bids are the totals of the buyers' orders. -/
  bids : b.bids.Aggregates bidOrder .bid b.orders
  /-- The offers are the totals of the sellers' orders. -/
  asks : b.asks.Aggregates askOrder .offer b.orders

/-! ## Orders at a price -/

namespace Book

variable {side : Side} {price id : Int64} {order : RestingOrder}
  {orders others : List (Int64 × RestingOrder)}

theorem isAt_iff : isAt side price order = true ↔ order.side = side ∧ order.price = price := by
  simp only [isAt, Bool.and_eq_true, beq_iff_eq]

theorem ordersAt_cons_self (h : order.side = side) :
    ordersAt side order.price ((id, order) :: orders)
      = order :: ordersAt side order.price orders := by
  unfold ordersAt Keyed.values
  rw [List.map_cons, List.filter_cons_of_pos (isAt_iff.mpr ⟨h, rfl⟩)]

/-- An order in front is at no other level. -/
theorem ordersAt_cons_of_ne (h : ¬ (order.side = side ∧ order.price = price)) :
    ordersAt side price ((id, order) :: orders) = ordersAt side price orders := by
  unfold ordersAt Keyed.values
  rw [List.map_cons, List.filter_cons_of_neg (fun hat => h (isAt_iff.mp hat))]

/-- The order of the identifiers does not matter to a level. -/
theorem ordersAt_perm (h : orders.Perm others) :
    (ordersAt side price orders).Perm (ordersAt side price others) :=
  (h.map _).filter _

/-- Orders that there are have their sum and their number. -/
theorem poolOf_of_ne_nil {found : List RestingOrder} (h : found ≠ []) :
    poolOf found
      = some ⟨(found.map fun order => order.volume.toInt).sum, found.length⟩ := by
  cases found with
  | nil => exact absurd rfl h
  | cons _ _ => rfl

/-- A pool does not tell in which order its orders came. -/
theorem poolOf_perm {found others : List RestingOrder} (h : found.Perm others) :
    poolOf found = poolOf others := by
  -- A sum and a length survive a rearrangement. Being empty is told apart
  -- first, since there is no pool of nothing.
  by_cases hnil : found = []
  · rw [hnil] at h ⊢
    rw [List.nil_perm.mp h]
  · have hother : others ≠ [] := fun heq => hnil (List.perm_nil.mp (heq ▸ h))
    rw [poolOf_of_ne_nil hnil, poolOf_of_ne_nil hother, h.length_eq, (h.map _).sum_eq]

theorem rests_iff {volume : Int64} :
    rests side price volume = true ↔ price ≠ Price.absent ∧ volume ≠ Price.absent ∧
      0 < volume ∧ (side = .bid ∨ side = .offer) := by
  simp only [rests, Bool.and_eq_true, Bool.or_eq_true, bne_iff_ne, beq_iff_eq,
    decide_eq_true_eq, and_assoc]

end Book

/-! ## The moves as a ladder sees them -/

namespace Ladder

open Book

variable {before : Int64 → Int64 → Bool} {side : Side} {id : Int64} {order : RestingOrder}
  {orders others : List (Int64 × RestingOrder)} {ladder : Ladder}

/-- A deposit adds to what was at the price, which is why the lookup appears on
    the right. -/
theorem find?_deposit (price other : Int64) (volume : Int) :
    Keyed.find? other (ladder.deposit before price volume)
      = if price = other then
          some ⟨((Keyed.find? price ladder).getD {}).volume + volume,
            ((Keyed.find? price ladder).getD {}).orders + 1⟩
        else Keyed.find? other ladder := by
  unfold deposit
  by_cases h : price = other
  · rw [if_pos h, ← h, Keyed.find?_insert_self]
  · rw [if_neg h, Keyed.find?_insert_of_ne _ _ h]

/-- An order comes to rest: its share is added to what the others at its
    price come to. -/
theorem Aggregates.deposit (hstrict : Keyed.Strict before)
    (h : ladder.Aggregates before side orders) (hside : order.side = side)
    (hperm : others.Perm ((id, order) :: orders)) :
    (ladder.deposit before order.price order.volume.toInt).Aggregates before side others := by
  refine ⟨hstrict.sorted_insert _ _ h.sorted, fun price => ?_⟩
  rw [find?_deposit, poolOf_perm (ordersAt_perm hperm)]
  by_cases hprice : order.price = price
  · subst hprice
    rw [if_pos rfl, ordersAt_cons_self hside, poolOf_of_ne_nil (List.cons_ne_nil _ _),
      h.pools, List.map_cons, List.sum_cons, List.length_cons]
    -- The level may be new, and then the sum of the others is empty.
    cases hat : ordersAt side order.price orders with
    | nil => simp only [poolOf, Option.getD_none, List.map_nil, List.sum_nil, List.length_nil,
        Int.add_comm]
    | cons first rest => simp only [poolOf, Option.getD_some, Int.add_comm]
  · rw [if_neg hprice, ordersAt_cons_of_ne (fun hat => hprice hat.2), h.pools]

/-- An order leaves: its share is taken out of a total that has it, and the
    level goes with its last order. -/
theorem Aggregates.withdraw (hstrict : Keyed.Strict before)
    (h : ladder.Aggregates before side orders) (hside : order.side = side)
    (hperm : orders.Perm ((id, order) :: others)) :
    (ladder.withdraw before order.price order.volume.toInt).Aggregates before side others := by
  have hpools : ∀ price, Keyed.find? price ladder
      = poolOf (ordersAt side price ((id, order) :: others)) := fun price => by
    rw [h.pools, poolOf_perm (ordersAt_perm hperm)]
  -- At the order's own price the total is its share on top of the others'.
  have hself := hpools order.price
  rw [ordersAt_cons_self hside, poolOf_of_ne_nil (List.cons_ne_nil _ _)] at hself
  -- At any other price the total is already what it has to be.
  have hother : ∀ price, order.price ≠ price →
      Keyed.find? price ladder = poolOf (ordersAt side price others) := fun price hne => by
    rw [hpools, ordersAt_cons_of_ne (fun hat => hne hat.2)]
  simp only [Ladder.withdraw, hself, List.length_cons, Nat.add_sub_cancel, List.map_cons,
    List.sum_cons, add_sub_cancel_left]
  split
  · next hlast =>
    -- The order was the last of its level.
    refine ⟨Keyed.sorted_erase _ h.sorted, fun price => ?_⟩
    by_cases hprice : order.price = price
    · rw [← hprice, Keyed.find?_erase_self, List.length_eq_zero_iff.mp hlast, poolOf]
    · rw [Keyed.find?_erase_of_ne hprice, hother price hprice]
  · next hmore =>
    refine ⟨hstrict.sorted_insert _ _ h.sorted, fun price => ?_⟩
    by_cases hprice : order.price = price
    · rw [← hprice, Keyed.find?_insert_self, poolOf_of_ne_nil
        (fun hnil => hmore (List.length_eq_zero_iff.mpr hnil))]
    · rw [Keyed.find?_insert_of_ne _ _ hprice, hother price hprice]

/-- What comes to rest on the other side is not seen. -/
theorem Aggregates.cons_of_ne (h : ladder.Aggregates before side orders)
    (hside : order.side ≠ side) (hperm : others.Perm ((id, order) :: orders)) :
    ladder.Aggregates before side others := by
  refine ⟨h.sorted, fun price => ?_⟩
  rw [h.pools, poolOf_perm (ordersAt_perm hperm), ordersAt_cons_of_ne (fun hat => hside hat.1)]

/-- What leaves the other side was not seen. -/
theorem Aggregates.of_cons_of_ne (h : ladder.Aggregates before side orders)
    (hside : order.side ≠ side) (hperm : orders.Perm ((id, order) :: others)) :
    ladder.Aggregates before side others := by
  refine ⟨h.sorted, fun price => ?_⟩
  rw [h.pools, poolOf_perm (ordersAt_perm hperm), ordersAt_cons_of_ne (fun hat => hside hat.1)]

end Ladder

/-! ## The moves keep a book sound -/

namespace Book

theorem sound_empty : Sound empty where
  sorted := List.Pairwise.nil
  rests _ _ h := by cases h
  bids := ⟨List.Pairwise.nil, fun _ => rfl⟩
  asks := ⟨List.Pairwise.nil, fun _ => rfl⟩

/-- The report number and the pending snapshot have no part in soundness. -/
theorem Sound.congr {b b' : Book} (h : Sound b) (horders : b'.orders = b.orders)
    (hbids : b'.bids = b.bids) (hasks : b'.asks = b.asks) : Sound b' where
  sorted := horders ▸ h.sorted
  rests := horders ▸ h.rests
  bids := by
    rw [horders, hbids]
    exact h.bids
  asks := by
    rw [horders, hasks]
    exact h.asks

/-- An identifier that was taken out is free. -/
theorem find?_orders_remove (b : Book) (id : Int64) :
    Keyed.find? id (b.remove id).orders = none := by
  unfold remove
  split
  · next h => exact h
  · dsimp only
    split <;> exact Keyed.find?_erase_self _ _

theorem sound_clear (b : Book) : Sound b.clear := sound_empty.congr rfl rfl rfl

/-- An order comes to rest under an identifier that is free. -/
theorem sound_add {b : Book} (h : Sound b) {id : Int64}
    (hfree : Keyed.find? id b.orders = none) (order : RestingOrder) : Sound (b.add id order) := by
  by_cases hrests : rests order.side order.price order.volume = true
  -- An order that cannot rest does not come.
  swap
  · rw [add_of_not_rests b id (Bool.not_eq_true _ ▸ hrests)]
    exact h
  have hsorted := strict_idOrder.sorted_insert id order h.sorted
  have hperm := Keyed.perm_insert strict_idOrder h.sorted id order
  -- The identifier is free, so the order takes nobody's place.
  rw [Keyed.erase_of_find?_eq_none hfree] at hperm
  have hall : ∀ other found, Keyed.find? other (Keyed.insert idOrder id order b.orders)
      = some found → rests found.side found.price found.volume = true := by
    intro other found hfound
    by_cases hid : id = other
    · rw [← hid, Keyed.find?_insert_self, Option.some.injEq] at hfound
      rw [← hfound]
      exact hrests
    · rw [Keyed.find?_insert_of_ne _ _ hid] at hfound
      exact h.rests other found hfound
  -- One ladder takes the order, and the other does not see it.
  unfold add
  rw [if_pos hrests]
  rcases (rests_iff.mp hrests).2.2.2 with hside | hside
  · simp only [hside]
    exact ⟨hsorted, hall, h.bids.deposit strict_bidOrder hside hperm,
      h.asks.cons_of_ne (by rw [hside]; exact Side.noConfusion) hperm⟩
  · simp only [hside]
    exact ⟨hsorted, hall, h.bids.cons_of_ne (by rw [hside]; exact Side.noConfusion) hperm,
      h.asks.deposit strict_askOrder hside hperm⟩

/-- An order leaves, if there is one with the identifier. -/
theorem sound_remove {b : Book} (h : Sound b) (id : Int64) : Sound (b.remove id) := by
  unfold remove
  cases hfind : Keyed.find? id b.orders with
  | none => exact h
  | some order =>
      have hsorted := Keyed.sorted_erase id h.sorted
      have hperm := Keyed.perm_erase strict_idOrder h.sorted hfind
      -- What is found without the order was found with it.
      have hall : ∀ other found, Keyed.find? other (Keyed.erase id b.orders) = some found →
          rests found.side found.price found.volume = true := by
        intro other found hfound
        by_cases hid : id = other
        · rw [← hid, Keyed.find?_erase_self] at hfound
          cases hfound
        · rw [Keyed.find?_erase_of_ne hid] at hfound
          exact h.rests other found hfound
      rcases (rests_iff.mp (h.rests id order hfind)).2.2.2 with hside | hside
      · simp only [hside]
        exact ⟨hsorted, hall, h.bids.withdraw strict_bidOrder hside hperm,
          h.asks.of_cons_of_ne (by rw [hside]; exact Side.noConfusion) hperm⟩
      · simp only [hside]
        exact ⟨hsorted, hall, h.bids.of_cons_of_ne (by rw [hside]; exact Side.noConfusion) hperm,
          h.asks.withdraw strict_askOrder hside hperm⟩

/-- Replacing an order keeps a book sound. Taking the identifier out first is
    what makes it free. -/
theorem sound_replace {b : Book} (h : Sound b) (id : Int64) (order : RestingOrder) :
    Sound (b.replace id order) :=
  sound_add (sound_remove h id) (find?_orders_remove b id) order

theorem sound_load {b : Book} (h : Sound b) (found : List BookEntry) : Sound (b.load found) := by
  unfold load
  -- The entries are put in one after the other, each into some sound book.
  induction found generalizing b with
  | nil => exact h
  | cons entry rest ih => exact ih (sound_replace h entry.orderId (orderOf entry))

/-! ## Every history -/

theorem sound_applyUpdate {b : Book} (h : Sound b) (u : OrderUpdate) :
    Sound (b.applyUpdate u).1 := by
  have h' : Sound { b with lastRptSeq := u.rptSeq } := h.congr rfl rfl rfl
  unfold applyUpdate
  cases u.action with
  | new => exact sound_replace h' _ _
  | update => exact sound_replace h' _ _
  | delete => exact sound_remove h' _
  | unknown code => exact h'

theorem sound_applyExecution {b : Book} (h : Sound b) (x : OrderExecution) :
    Sound (b.applyExecution x).1 := by
  have h' : Sound { b with lastRptSeq := x.rptSeq } := h.congr rfl rfl rfl
  -- Nothing changes, or the order leaves, or what remains of it takes its place.
  unfold applyExecution
  dsimp only
  split
  · exact h'
  · split
    · exact sound_remove h' _
    · exact sound_replace h' _ _

theorem sound_applySnapshot {b : Book} (h : Sound b) (e : Envelope) (s : Snapshot) :
    Sound (b.applySnapshot e s) := by
  -- The first snapshot of a series starts from an empty book, the others go on.
  have hstart : Sound (if b.inSnapshot then b else b.clear) := by
    split
    · exact h
    · exact sound_clear b
  exact (sound_load hstart s.entries).congr rfl rfl rfl

/-- Every operation keeps a book sound. -/
theorem sound_perform {b : Book} (h : Sound b) (operation : Operation) :
    Sound (b.perform operation) := by
  cases operation with
  | update u => exact sound_applyUpdate h u
  | execution x => exact sound_applyExecution h x
  | snapshot e s => exact sound_applySnapshot h e s
  | clear => exact sound_clear b

/-- The book of every history is sound. -/
theorem sound_after (history : List Operation) : Sound (after history) := by
  unfold after
  -- The invariant is what each operation keeps, from any sound book on.
  have hrun : ∀ b, Sound b → Sound (history.foldl perform b) := by
    intro b h
    induction history generalizing b with
    | nil => exact h
    | cons operation rest ih => exact ih _ (sound_perform h operation)
  exact hrun empty sound_empty

end Book

end MarketFeed
