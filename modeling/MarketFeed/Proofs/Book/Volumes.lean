import MarketFeed.Proofs.Book.Fragments
import MarketFeed.Proofs.Book.Levels

/-!
# Sums That Cannot Go Wrong

The arithmetic of the levels, one addition and one subtraction at a time.

A level's volume is a sum that is never computed as one. Each order adds its
volume when it comes and takes it off when it goes, and between the two any
number of other orders may have come and gone. Whether the sum stays within a
word of 128 bits, whether there is a level to take a volume off, and whether
what is taken off was there, are questions about every single step, and a
history of any length has any number of steps.

All of them are answered by what the level is at that moment. A book is sound
between any two moves, so a level is the sum of the orders at its price. There
is one order for an identifier at most, and an identifier has 64 bits; a
volume is less than 2 ^ 63. However long the history, the sum is less than
2 ^ 127. An order that goes is one of those that the level is the sum of, so
the level is there, and what remains is the sum of the others, which is zero
only if there are none, since every volume is positive.

An operation is taken apart into its moves here. Between the two moves of one
replacement the book lacks an order, but it is sound there too.

## Main definitions

* `Book.Move`, `Book.moves`: The moves that an operation makes, in order.
* `Book.base`: The book on which it makes the first of them.
* `Book.Enters`, `Book.Leaves`: The arithmetic of a move goes well.
* `Book.Bears`, `Book.BearsAll`: So it does for a move and for moves in turn.

## Theorems

* `stock_perform`: An operation is its moves.
* `length_orders_le`, `pool_lt`: How many orders there are, and what they come
  to.
* `enters_of_sound`, `leaves_of_sound`: Single moves.
* `levels_bear_every_move`: Every move of every history.
-/

namespace MarketFeed

namespace Book

/-- One of the two moves. -/
inductive Move
  | leave (id : Int64)
  | enter (id : Int64) (order : RestingOrder)

/-- The book after a move. -/
def move (b : Book) : Move → Book
  | .leave id => b.remove id
  | .enter id order => b.add id order

/-- The moves by which an order takes the place of another. -/
def Move.replacing (id : Int64) (order : RestingOrder) : List Move := [.leave id, .enter id order]

/-- The moves of an operation, in order. -/
def moves (b : Book) : Operation → List Move
  | .update u =>
    match u.action with
    | .new | .update => Move.replacing u.orderId ⟨u.side, u.orderPrice, u.orderVolume⟩
    | .delete => [.leave u.orderId]
    | .unknown _ => []
  | .execution x =>
    match b.resting x.orderId with
    | none => []
    | some order =>
      if fills x then [.leave x.orderId]
      else Move.replacing x.orderId { order with volume := x.remainingQuantity }
  | .snapshot _ s => s.entries.flatMap fun entry => Move.replacing entry.orderId (orderOf entry)
  | .clear => []

/-- The book on which an operation makes its first move. A clearing, and the
    first fragment of a snapshot, throw all orders and levels away at once. -/
def base (b : Book) : Operation → Book
  | .update _ | .execution _ => b
  | .snapshot _ _ => if b.inSnapshot then b else b.clear
  | .clear => b.clear

/-- The orders and the levels. -/
def stock (b : Book) : List (Int64 × RestingOrder) × Ladder × Ladder := (b.orders, b.bids, b.asks)

/-- An order comes to a level, which may be new. -/
structure Enters (b : Book) (id : Int64) (order : RestingOrder) (pool : Pool) : Prop where
  before : pool = (Keyed.find? order.price (b.ladder order.side)).getD {}
  after : Keyed.find? order.price ((b.add id order).ladder order.side)
    = some ⟨pool.volume + order.volume.toInt, pool.orders + 1⟩
  nonneg : 0 ≤ pool.volume
  volume_lt : pool.volume + order.volume.toInt < 2 ^ 127
  orders_le : pool.orders + 1 ≤ (b.add id order).orders.length
  resting_le : (b.add id order).orders.length ≤ 2 ^ 64

/-- An order goes from a level, which goes with its last order. -/
structure Leaves (b : Book) (id : Int64) (order : RestingOrder) (pool : Pool) : Prop where
  before : Keyed.find? order.price (b.ladder order.side) = some pool
  after : Keyed.find? order.price ((b.remove id).ladder order.side)
    = if pool.orders - 1 = 0 then none
      else some ⟨pool.volume - order.volume.toInt, pool.orders - 1⟩
  volume_le : order.volume.toInt ≤ pool.volume
  orders_pos : 0 < pool.orders
  empty_iff : pool.volume - order.volume.toInt = 0 ↔ pool.orders - 1 = 0

/-- The levels bear a move. An order that cannot rest comes to no level, and
    none goes where none is. -/
def Bears (b : Book) : Move → Prop
  | .enter id order => order.CanRest → ∃ pool, b.Enters id order pool
  | .leave id => ∀ order, b.resting id = some order → ∃ pool, b.Leaves id order pool

/-- The levels bear moves one after the other. -/
def BearsAll (b : Book) : List Move → Prop
  | [] => True
  | m :: rest => b.Bears m ∧ (b.move m).BearsAll rest

variable {b b' : Book} {id : Int64} {order : RestingOrder}

/-! ## An operation is its moves -/

/-- The moves look at the stock alone. Two books with the same stock differ in
    what the moves carry along. -/
theorem stock_move (h : b.stock = b'.stock) (m : Move) : (b.move m).stock = (b'.move m).stock := by
  have hsame : b' = { b with lastRptSeq := b'.lastRptSeq, inSnapshot := b'.inSnapshot } := by
    cases b
    cases b'
    simp only [stock, Prod.mk.injEq] at h
    rw [h.1, h.2.1, h.2.2]
  symm
  rw [hsame]
  cases m with
  | leave id =>
      rw [move, remove_with]
      rfl
  | enter id order =>
      rw [move, add_with]
      rfl

theorem stock_foldl_move (h : b.stock = b'.stock) (ms : List Move) :
    (ms.foldl move b).stock = (ms.foldl move b').stock := by
  induction ms generalizing b b' with
  | nil => exact h
  | cons m rest ih => exact ih (stock_move h m)

/-- Loading entries is letting orders go and come, one by one. -/
theorem load_eq_moves (b : Book) (found : List BookEntry) :
    b.load found
      = (found.flatMap fun entry => Move.replacing entry.orderId (orderOf entry)).foldl move b := by
  induction found generalizing b with
  | nil => rfl
  | cons entry rest ih =>
      rw [List.flatMap_cons, List.foldl_append, ← ih]
      rfl

/-- An operation is its moves, the report number and the pending snapshot
    aside. -/
theorem stock_perform (b : Book) (operation : Operation) :
    (b.perform operation).stock = ((b.moves operation).foldl move (b.base operation)).stock := by
  -- The report number is no part of the stock, so what is left of each
  -- operation is its moves.
  cases operation with
  | update u =>
      have hbase : ({ b with lastRptSeq := u.rptSeq } : Book).stock = b.stock := rfl
      rw [perform, applyUpdate, moves, base]
      cases u.action with
      | new => exact stock_foldl_move hbase (Move.replacing _ _)
      | update => exact stock_foldl_move hbase (Move.replacing _ _)
      | delete => exact stock_foldl_move hbase [.leave _]
      | unknown code => exact hbase
  | execution x =>
      have hbase : ({ b with lastRptSeq := x.rptSeq } : Book).stock = b.stock := rfl
      rw [perform, applyExecution, moves, base, resting]
      cases Keyed.find? x.orderId b.orders with
      | none => exact hbase
      | some order =>
          by_cases hfills : fills x = true
          · simp only [hfills, if_true]
            exact stock_foldl_move hbase [.leave _]
          · simp only [hfills, Bool.false_eq_true, if_false]
            exact stock_foldl_move hbase (Move.replacing _ _)
  | snapshot e s =>
      rw [perform, applySnapshot, moves, base, ← load_eq_moves]
      rfl
  | clear => rfl

/-! ## How much there can be -/

/-- Identifiers ascend strictly, so each of them is larger than the one before
    by at least one, and the last is less than 2 ^ 63. -/
theorem length_add_lt {rest : List (Int64 × RestingOrder)}
    (h : Keyed.Sorted idOrder ((id, order) :: rest)) : rest.length + id.toInt < 2 ^ 63 := by
  induction rest generalizing id order with
  | nil =>
      have hlt := id.toInt_lt
      rw [List.length_nil]
      omega
  | cons next rest ih =>
      have hnext := ih (List.Pairwise.of_cons h)
      have hless : id < next.1 :=
        of_decide_eq_true (List.rel_of_pairwise_cons h List.mem_cons_self)
      have hint := Int64.lt_iff_toInt_lt.mp hless
      rw [List.length_cons]
      omega

/-- There are no more orders than identifiers. -/
theorem length_orders_le (h : Sound b) : b.orders.length ≤ 2 ^ 64 := by
  have hsorted := h.sorted
  cases horders : b.orders with
  | nil => exact Nat.zero_le _
  | cons first rest =>
      rw [horders] at hsorted
      have hlt := length_add_lt hsorted
      have hle := first.1.le_toInt
      rw [List.length_cons]
      omega

/-- What rests at a price stays below 2 ^ 127. -/
theorem pool_lt (h : Sound b) {side : Side} {price : Int64} {pool : Pool}
    (hfind : Keyed.find? price (b.ladder side) = some pool) :
    pool.volume < 2 ^ 127 ∧ pool.orders ≤ b.orders.length := by
  rcases (find?_ladder_iff h side price pool).mp hfind with ⟨-, hvolume, horders⟩
  have hcount : pool.orders ≤ b.orders.length := by
    rw [horders, ordersAt, Keyed.values]
    exact (List.length_filter_le _ _).trans_eq (List.length_map _)
  have hmax : ∀ volume ∈ (ordersAt side price b.orders).map fun order => order.volume.toInt,
      volume ≤ 2 ^ 63 - 1 := by
    intro volume hmem
    rcases List.mem_map.mp hmem with ⟨order, -, rfl⟩
    have hlt := order.volume.toInt_lt
    omega
  have hsum := List.sum_le_card_nsmul _ _ hmax
  rw [← hvolume, List.length_map, ← horders, nsmul_eq_mul] at hsum
  have hlength := length_orders_le h
  exact ⟨by omega, hcount⟩

/-! ## Single moves -/

/-- A level of either side, computed from its orders. -/
theorem find?_ladder_eq_poolOf (h : Sound b) {side : Side} (hside : side = .bid ∨ side = .offer)
    (price : Int64) :
    Keyed.find? price (b.ladder side) = poolOf (ordersAt side price b.orders) := by
  rcases hside with rfl | rfl
  · exact h.bids.pools price
  · exact h.asks.pools price

/-- An order that comes to rest adds its volume and itself to the pool at its
    price. -/
theorem find?_ladder_add (b : Book) (id : Int64) (hrests : order.CanRest) :
    Keyed.find? order.price ((b.add id order).ladder order.side)
      = some ⟨((Keyed.find? order.price (b.ladder order.side)).getD {}).volume
            + order.volume.toInt,
          ((Keyed.find? order.price (b.ladder order.side)).getD {}).orders + 1⟩ := by
  unfold add
  rw [if_pos (rests_iff_canRest.mpr hrests)]
  rcases hrests.1 with hside | hside
  · simp only [hside, ladder]
    exact (Ladder.find?_deposit _ _ _).trans (if_pos rfl)
  · simp only [hside, ladder]
    exact (Ladder.find?_deposit _ _ _).trans (if_pos rfl)

/-- In a sound book an order that comes to rest does not run over the sums. -/
theorem enters_of_sound (h : Sound b) (hfree : b.resting id = none) (hrests : order.CanRest) :
    ∃ pool, b.Enters id order pool := by
  have hafter := find?_ladder_add b id hrests
  -- The sum is what the level holds afterwards, in a book that is sound again.
  have hsound := sound_add h hfree order
  rcases pool_lt hsound hafter with ⟨hvolume, horders⟩
  refine ⟨_, rfl, hafter, ?_, hvolume, horders, length_orders_le hsound⟩
  cases hfind : Keyed.find? order.price (b.ladder order.side) with
  | none => exact Int.le_refl 0
  | some pool => exact Int.le_of_lt (pool_pos h order.side hfind).1

/-- Taking an order out erases its identifier. -/
theorem orders_remove (hfind : b.resting id = some order) :
    (b.remove id).orders = Keyed.erase id b.orders := by
  unfold remove
  rw [show Keyed.find? id b.orders = some order from hfind]
  dsimp only
  split <;> rfl

/-- The orders at the price of one that goes are this one and those that stay. -/
theorem perm_ordersAt_remove (h : Sound b) (hfind : b.resting id = some order) :
    (ordersAt order.side order.price b.orders).Perm
      (order :: ordersAt order.side order.price (b.remove id).orders) := by
  rw [orders_remove hfind, ← ordersAt_cons_self rfl]
  exact ordersAt_perm (Keyed.perm_erase strict_idOrder h.sorted hfind)

/-- In a sound book an order that goes is in the pool that it is taken from. -/
theorem leaves_of_sound (h : Sound b) (hfind : b.resting id = some order) :
    ∃ pool, b.Leaves id order pool := by
  have hside := (rests_iff.mp (h.rests id order hfind)).2.2.2
  have hsound := sound_remove h id
  have hbefore := find?_ladder_eq_poolOf h hside order.price
  have hafter := find?_ladder_eq_poolOf hsound hside order.price
  rw [poolOf_perm (perm_ordersAt_remove h hfind), poolOf_of_ne_nil (List.cons_ne_nil _ _),
    List.map_cons, List.sum_cons, List.length_cons] at hbefore
  have hvolumes := volumes_pos hsound order.side order.price
  have hnonneg := List.sum_nonneg fun volume hmem => Int.le_of_lt (hvolumes volume hmem)
  -- Taking the order's own volume and itself off leaves what the others come to.
  refine ⟨_, hbefore, ?_, ?_, Nat.succ_pos _, ?_⟩
  · simp only [Nat.add_sub_cancel, add_sub_cancel_left]
    rw [hafter]
    by_cases hnil : ordersAt order.side order.price (b.remove id).orders = []
    · rw [hnil, poolOf, if_pos List.length_nil]
    · rw [poolOf_of_ne_nil hnil, if_neg fun hzero => hnil (List.length_eq_zero_iff.mp hzero)]
  · simp only
    omega
  · simp only [Nat.add_sub_cancel, add_sub_cancel_left, List.length_eq_zero_iff]
    constructor
    · intro hzero
      by_contra hne
      have hpos := List.sum_pos _ hvolumes (by simpa only [ne_eq, List.map_eq_nil_iff] using hne)
      omega
    · intro hnil
      rw [hnil, List.map_nil, List.sum_nil]

/-! ## Moves in turn -/

/-- An order comes only where the one before it with its identifier has just
    gone, which is what keeps the book sound and the identifier free. -/
theorem bearsAll_replacing (h : Sound b) (id : Int64) (order : RestingOrder) {rest : List Move}
    (hrest : ((b.remove id).add id order).BearsAll rest) :
    b.BearsAll (Move.replacing id order ++ rest) := by
  have hfree : (b.remove id).resting id = none := find?_orders_remove b id
  exact ⟨fun _ hfind => leaves_of_sound h hfind,
    fun hrests => enters_of_sound (sound_remove h id) hfree hrests, hrest⟩

theorem bearsAll_leave (h : Sound b) (id : Int64) : b.BearsAll [.leave id] :=
  ⟨fun _ hfind => leaves_of_sound h hfind, trivial⟩

/-- A sound book bears all entries of a snapshot. -/
theorem bearsAll_load (h : Sound b) (found : List BookEntry) :
    b.BearsAll (found.flatMap fun entry => Move.replacing entry.orderId (orderOf entry)) := by
  induction found generalizing b with
  | nil => exact trivial
  | cons entry rest ih =>
      rw [List.flatMap_cons]
      exact bearsAll_replacing h _ _ (ih (sound_replace h _ _))

/-- A sound book bears every move of an operation. -/
theorem bearsAll_moves (h : Sound b) (operation : Operation) :
    (b.base operation).BearsAll (b.moves operation) := by
  cases operation with
  | update u =>
      rw [base, moves]
      cases u.action with
      | new => exact bearsAll_replacing h _ _ trivial
      | update => exact bearsAll_replacing h _ _ trivial
      | delete => exact bearsAll_leave h _
      | unknown code => exact trivial
  | execution x =>
      rw [base, moves]
      cases b.resting x.orderId with
      | none => exact trivial
      | some order =>
          dsimp only
          split
          · exact bearsAll_leave h _
          · exact bearsAll_replacing h _ _ trivial
  | snapshot e s =>
      rw [base, moves]
      -- The first fragment of a snapshot clears the book, and the others build
      -- on it.
      refine bearsAll_load ?_ s.entries
      split
      · exact h
      · exact sound_clear b
  | clear => exact trivial

/-- After every history, every operation is the moves it is made of, and the
    levels bear each of them: a sum stays below 2 ^ 127, the level of an order
    that goes is there and holds at least what the order takes, and no volume
    is left exactly when no order is. -/
theorem levels_bear_every_move (history : List Operation) (operation : Operation) :
    ((after history).perform operation).stock
      = (((after history).moves operation).foldl move ((after history).base operation)).stock ∧
    ((after history).base operation).BearsAll ((after history).moves operation) :=
  ⟨stock_perform _ operation, bearsAll_moves (sound_after history) operation⟩

/-- Two orders of the largest volume at one price. -/
example :
    (after [.update ⟨1, 100, Int64.maxValue - 1, 0, 0, 1, 0, .new, .bid⟩,
        .update ⟨2, 100, Int64.maxValue - 1, 0, 0, 1, 0, .new, .bid⟩]).bids
      = [(100, ⟨2 * (2 ^ 63 - 2), 2⟩)] := by decide

end Book

end MarketFeed
