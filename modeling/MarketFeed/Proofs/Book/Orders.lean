import MarketFeed.Proofs.Book.Sound
import Mathlib.Logic.Function.Basic

/-!
# Orders One by One

A book as its readers of messages think of it: under each identifier an order
or none.

A message about an order names one identifier, and all it does is to decide
what rests there afterwards. What that is depends on the message and on what
rested there before, and on nothing else. The book gets there by two moves
over three lists, one of which may refuse; here the two moves are looked at
as writes to one place of a map from identifiers to orders.

The one place where the book could lose an order is a trade that leaves a
part of it. The order leaves first and then comes back with the rest of its
volume, and coming back could be refused. It is not, because an order that
rests in a sound book has a side and a price, and the rest is a volume.

## Main definitions

* `RestingOrder.CanRest`, `RestingOrder.filed`: What is left of an order that
  is to come to rest.
* `OrderUpdate.outcome`, `OrderExecution.outcome`: What a message makes of the
  order it names.
* `Registry`: The orders by identifier, and nothing beside them.
* `Book.Settles`: A change to what rests under one identifier.

## Theorems

* `resting_add`, `resting_remove`, `resting_replace`: The moves are writes.
* `resting_applyUpdate`, `resting_applyExecution`: So are the messages.
* `registry_perform`, `registry_after`: The orders of a book are those of its
  history, one identifier at a time.
* `orders_settle_apart`: What every message does to every book.
-/

namespace MarketFeed

/-- An order has what it takes to rest. -/
def RestingOrder.CanRest (order : RestingOrder) : Prop :=
  (order.side = .bid ∨ order.side = .offer) ∧ order.price ≠ Price.absent ∧ 0 < order.volume ∧
    order.volume ≠ Price.absent

instance : DecidablePred RestingOrder.CanRest := fun order =>
  inferInstanceAs (Decidable ((order.side = .bid ∨ order.side = .offer) ∧
    order.price ≠ Price.absent ∧ 0 < order.volume ∧ order.volume ≠ Price.absent))

/-- What rests once the order has been let in: the order, if it can rest. -/
def RestingOrder.filed (order : RestingOrder) : Option RestingOrder :=
  if order.CanRest then some order else none

/-- What rests under the identifier of a change, given what rested there. -/
def OrderUpdate.outcome (u : OrderUpdate) (resting : Option RestingOrder) : Option RestingOrder :=
  match u.action with
  | .new | .update => RestingOrder.filed ⟨u.side, u.orderPrice, u.orderVolume⟩
  | .delete => none
  | .unknown _ => resting

/-- What rests under the identifier of a trade, given what rested there. -/
def OrderExecution.outcome (x : OrderExecution) : Option RestingOrder → Option RestingOrder
  | none => none
  | some order =>
    if x.action = .delete ∨ x.remainingQuantity ≤ 0 ∨ x.remainingQuantity = Price.absent then none
    else some { order with volume := x.remainingQuantity }

/-- The orders by identifier, and whether more fragments of a snapshot are to
    come. -/
structure Registry where
  resting : Int64 → Option RestingOrder := fun _ => none
  inSnapshot : Bool := false

namespace Registry

/-- Decide anew what rests under an identifier. -/
def settle (r : Registry) (id : Int64) (outcome : Option RestingOrder → Option RestingOrder) :
    Registry :=
  { r with resting := Function.update r.resting id (outcome (r.resting id)) }

/-- Let the orders of a snapshot come to rest, one after the other. -/
def load (r : Registry) (found : List BookEntry) : Registry :=
  found.foldl (fun r entry => r.settle entry.orderId fun _ => (Book.orderOf entry).filed) r

/-- The orders after one operation. -/
def perform (r : Registry) : Book.Operation → Registry
  | .update u => r.settle u.orderId u.outcome
  | .execution x => r.settle x.orderId x.outcome
  | .snapshot e s =>
    { (if r.inSnapshot then r else {}).load s.entries with inSnapshot := !e.isLastFragment }
  | .clear => {}

end Registry

namespace Book

variable {b : Book} {id other : Int64} {order : RestingOrder}

/-- Which order rests under each identifier. -/
def resting (b : Book) (id : Int64) : Option RestingOrder := Keyed.find? id b.orders

/-- The orders of a book without its levels. -/
def registry (b : Book) : Registry := ⟨b.resting, b.inSnapshot⟩

/-- One identifier is decided anew. The other orders stay, and so does the
    pending snapshot; the report number is the message's. -/
structure Settles (b : Book) (id : Int64) (outcome : Option RestingOrder → Option RestingOrder)
    (rptSeq : UInt32) (b' : Book) : Prop where
  own : b'.resting id = outcome (b.resting id)
  others : ∀ other, other ≠ id → b'.resting other = b.resting other
  rptSeq : b'.lastRptSeq = rptSeq
  inSnapshot : b'.inSnapshot = b.inSnapshot

/-! ## The moves are writes -/

/-- What the book checks is that an order has what it takes. -/
theorem rests_iff_canRest :
    rests order.side order.price order.volume = true ↔ order.CanRest := by
  rw [rests_iff, RestingOrder.CanRest]
  constructor
  · intro ⟨hprice, hvolume, hpos, hside⟩
    exact ⟨hside, hprice, hpos, hvolume⟩
  · intro ⟨hside, hprice, hpos, hvolume⟩
    exact ⟨hprice, hvolume, hpos, hside⟩

theorem isSome_filed (order : RestingOrder) :
    order.filed.isSome = rests order.side order.price order.volume := by
  rw [RestingOrder.filed]
  by_cases h : order.CanRest
  · rw [if_pos h, Option.isSome_some, rests_iff_canRest.mpr h]
  · rw [if_neg h, Option.isSome_none]
    exact (Bool.eq_false_iff.mpr fun hrests => h (rests_iff_canRest.mp hrests)).symm

theorem resting_insert (b : Book) (id : Int64) (order : RestingOrder) :
    (fun other => Keyed.find? other (Keyed.insert idOrder id order b.orders))
      = Function.update b.resting id (some order) := by
  funext other
  by_cases hid : id = other
  · rw [← hid, Keyed.find?_insert_self, Function.update_self]
  · rw [Keyed.find?_insert_of_ne _ _ hid, Function.update_of_ne (Ne.symm hid), resting]

theorem resting_erase (b : Book) (id : Int64) :
    (fun other => Keyed.find? other (Keyed.erase id b.orders))
      = Function.update b.resting id none := by
  funext other
  by_cases hid : id = other
  · rw [← hid, Keyed.find?_erase_self, Function.update_self]
  · rw [Keyed.find?_erase_of_ne hid, Function.update_of_ne (Ne.symm hid), resting]

/-- An order that comes to rest does so under its own identifier. -/
theorem resting_add (b : Book) (id : Int64) (order : RestingOrder) :
    (b.add id order).resting =
      if order.CanRest then Function.update b.resting id (some order) else b.resting := by
  by_cases hrests : order.CanRest
  · rw [if_pos hrests, ← resting_insert]
    unfold add
    rw [if_pos (rests_iff_canRest.mpr hrests)]
    -- The ladders are no part of what rests.
    dsimp only
    split <;> rfl
  · rw [if_neg hrests, add_of_not_rests]
    exact Bool.eq_false_iff.mpr fun h => hrests (rests_iff_canRest.mp h)

/-- Nothing rests under an identifier that was taken out. -/
theorem resting_remove (b : Book) (id : Int64) :
    (b.remove id).resting = Function.update b.resting id none := by
  unfold remove
  cases hfind : Keyed.find? id b.orders with
  | none =>
      have hself := Function.update_eq_self id b.resting
      rw [show b.resting id = none from hfind] at hself
      exact hself.symm
  | some order =>
      rw [← resting_erase]
      dsimp only
      split <;> rfl

/-- In place of what rested under an identifier comes the order, if it can
    rest. -/
theorem resting_replace (b : Book) (id : Int64) (order : RestingOrder) :
    (b.replace id order).resting = Function.update b.resting id order.filed := by
  rw [replace, resting_add, resting_remove, RestingOrder.filed]
  by_cases hrests : order.CanRest
  · rw [if_pos hrests, if_pos hrests, Function.update_idem]
  · rw [if_neg hrests, if_neg hrests]

@[simp] theorem inSnapshot_add (b : Book) (id : Int64) (order : RestingOrder) :
    (b.add id order).inSnapshot = b.inSnapshot := by
  unfold add
  split
  · dsimp only
    split <;> rfl
  · rfl

@[simp] theorem inSnapshot_remove (b : Book) (id : Int64) :
    (b.remove id).inSnapshot = b.inSnapshot := by
  unfold remove
  split
  · rfl
  · dsimp only
    split <;> rfl

/-! ## What a message makes of its order -/

/-- A change touches its own identifier, and what rests there is its outcome. -/
theorem resting_applyUpdate (b : Book) (u : OrderUpdate) :
    (b.applyUpdate u).1.resting
      = Function.update b.resting u.orderId (u.outcome (b.resting u.orderId)) := by
  unfold applyUpdate OrderUpdate.outcome
  dsimp only
  cases u.action with
  | new => exact resting_replace _ _ _
  | update => exact resting_replace _ _ _
  | delete => exact resting_remove _ _
  | unknown code => exact (Function.update_eq_self _ _).symm

theorem inSnapshot_applyUpdate (b : Book) (u : OrderUpdate) :
    (b.applyUpdate u).1.inSnapshot = b.inSnapshot := by
  unfold applyUpdate
  dsimp only
  split <;> simp only [replace, inSnapshot_add, inSnapshot_remove]

/-- A change is reported to have changed something if an order was or is under
    its identifier, unless its action is unknown. -/
theorem applyUpdate_changed_iff (b : Book) (u : OrderUpdate) :
    (b.applyUpdate u).2 = true ↔ (∀ code, u.action ≠ .unknown code) ∧
      ((b.resting u.orderId).isSome = true ∨
        ((b.applyUpdate u).1.resting u.orderId).isSome = true) := by
  rw [resting_applyUpdate, Function.update_self]
  unfold applyUpdate OrderUpdate.outcome
  dsimp only
  cases u.action with
  | new => simp [isSome_filed, holds, resting]
  | update => simp [isSome_filed, holds, resting]
  | delete => simp [holds, resting]
  | unknown code => simp

/-- An execution takes its order out if it says so, or if nothing or no number
    of it is left. -/
theorem fills_iff {x : OrderExecution} : fills x = true ↔
    x.action = .delete ∨ x.remainingQuantity ≤ 0 ∨ x.remainingQuantity = Price.absent := by
  simp only [fills, Bool.or_eq_true, beq_iff_eq, decide_eq_true_eq, or_assoc]

/-- What a trade leaves of an order in a sound book can rest. -/
theorem Sound.canRest_left (h : Sound b) (hfind : b.resting id = some order)
    {x : OrderExecution} (hleft : fills x ≠ true) :
    { order with volume := x.remainingQuantity : RestingOrder }.CanRest := by
  rcases rests_iff.mp (h.rests id order hfind) with ⟨hprice, -, -, hside⟩
  rw [ne_eq, fills_iff, not_or, not_or] at hleft
  exact ⟨hside, hprice, Int64.not_le.mp hleft.2.1, hleft.2.2⟩

/-- A trade touches its own identifier, and what rests there is its outcome. -/
theorem resting_applyExecution (h : Sound b) (x : OrderExecution) :
    (b.applyExecution x).1.resting
      = Function.update b.resting x.orderId (x.outcome (b.resting x.orderId)) := by
  unfold applyExecution
  dsimp only
  cases hfind : Keyed.find? x.orderId b.orders with
  | none =>
      have hnone : b.resting x.orderId = none := hfind
      rw [OrderExecution.outcome.eq_def, hnone]
      dsimp only
      rw [← hnone, Function.update_eq_self]
      rfl
  | some order =>
      have hsome : b.resting x.orderId = some order := hfind
      rw [hsome, OrderExecution.outcome]
      -- What fills the order takes it away, and what does not leaves the rest
      -- of it in its place.
      by_cases hfills : fills x = true
      · rw [if_pos (fills_iff.mp hfills)]
        dsimp only
        rw [if_pos hfills, resting_remove]
        rfl
      · rw [if_neg fun hall => hfills (fills_iff.mpr hall)]
        dsimp only
        rw [if_neg hfills, resting_replace, RestingOrder.filed,
          if_pos (h.canRest_left hsome hfills)]
        rfl

theorem inSnapshot_applyExecution (b : Book) (x : OrderExecution) :
    (b.applyExecution x).1.inSnapshot = b.inSnapshot := by
  unfold applyExecution
  dsimp only
  split
  · rfl
  · split <;> simp only [replace, inSnapshot_add, inSnapshot_remove]

/-- A trade is reported to have changed something if there was its order. -/
theorem applyExecution_changed (h : Sound b) (x : OrderExecution) :
    (b.applyExecution x).2 = (b.resting x.orderId).isSome := by
  unfold applyExecution resting
  dsimp only
  cases hfind : Keyed.find? x.orderId b.orders with
  | none => rfl
  | some order =>
      dsimp only
      by_cases hfills : fills x = true
      · rw [if_pos hfills]
        rfl
      · rw [if_neg hfills]
        exact rests_iff_canRest.mpr (h.canRest_left hfind hfills)

/-! ## Every history -/

theorem registry_load (b : Book) (found : List BookEntry) :
    (b.load found).registry = b.registry.load found := by
  unfold load Registry.load
  induction found generalizing b with
  | nil => rfl
  | cons entry rest ih =>
      have hone : (b.replace entry.orderId (orderOf entry)).registry
          = b.registry.settle entry.orderId fun _ => (orderOf entry).filed := by
        unfold registry Registry.settle
        rw [resting_replace, replace, inSnapshot_add, inSnapshot_remove]
      rw [List.foldl_cons, List.foldl_cons, ih, hone]

/-- One operation on a book is the same operation on its registry. -/
theorem registry_perform (h : Sound b) (operation : Operation) :
    (b.perform operation).registry = b.registry.perform operation := by
  cases operation with
  | update u =>
      unfold perform registry Registry.perform Registry.settle
      rw [resting_applyUpdate, inSnapshot_applyUpdate]
  | execution x =>
      unfold perform registry Registry.perform Registry.settle
      rw [resting_applyExecution h, inSnapshot_applyExecution]
  | snapshot e s =>
      -- Loading goes on from the orders that are there, or from none.
      have hload := registry_load (if b.inSnapshot then b else b.clear) s.entries
      have hstart : (if b.inSnapshot then b else b.clear).registry
          = if b.registry.inSnapshot then b.registry else {} := by
        unfold registry
        dsimp only
        split <;> rfl
      rw [hstart] at hload
      unfold perform Registry.perform
      dsimp only
      rw [← hload]
      rfl
  | clear => rfl

/-- The registry of a book is that of its history. -/
theorem registry_after (history : List Operation) :
    (after history).registry = history.foldl Registry.perform {} := by
  -- Every book along the way is sound, which the trades need.
  have hrun : ∀ b : Book, Sound b →
      (history.foldl perform b).registry = history.foldl Registry.perform b.registry := by
    intro b h
    induction history generalizing b with
    | nil => rfl
    | cons operation rest ih =>
        rw [List.foldl_cons, List.foldl_cons, ih _ (sound_perform h operation),
          registry_perform h]
  exact hrun empty sound_empty

/-- A book has settled a message if it differs under one identifier alone. -/
theorem settles_of_resting {b' : Book} {outcome : Option RestingOrder → Option RestingOrder}
    {rptSeq : UInt32}
    (hresting : b'.resting = Function.update b.resting id (outcome (b.resting id)))
    (hrptSeq : b'.lastRptSeq = rptSeq) (hsnapshot : b'.inSnapshot = b.inSnapshot) :
    Settles b id outcome rptSeq b' where
  own := by rw [hresting, Function.update_self]
  others other hne := by rw [hresting, Function.update_of_ne hne]
  rptSeq := hrptSeq
  inSnapshot := hsnapshot

/-- The orders of every book are those that its history leaves when each
    identifier is followed by itself. A change or a trade decides what rests
    under its own identifier and touches no other, and it reports whether an
    order came, stayed or went there. -/
theorem orders_settle_apart (history : List Operation) :
    (after history).registry = history.foldl Registry.perform {} ∧
    (∀ u, Settles (after history) u.orderId u.outcome u.rptSeq ((after history).applyUpdate u).1 ∧
      (((after history).applyUpdate u).2 = true ↔ (∀ code, u.action ≠ .unknown code) ∧
        (((after history).resting u.orderId).isSome = true ∨
          (((after history).applyUpdate u).1.resting u.orderId).isSome = true))) ∧
    ∀ x, Settles (after history) x.orderId x.outcome x.rptSeq
        ((after history).applyExecution x).1 ∧
      (((after history).applyExecution x).2 = true ↔
        ((after history).resting x.orderId).isSome = true) := by
  have h := sound_after history
  refine ⟨registry_after history, fun u => ⟨?_, applyUpdate_changed_iff _ u⟩, fun x => ⟨?_, ?_⟩⟩
  · exact settles_of_resting (resting_applyUpdate _ u) (rptSeq_applyUpdate _ u)
      (inSnapshot_applyUpdate _ u)
  · exact settles_of_resting (resting_applyExecution h x) (rptSeq_applyExecution _ x)
      (inSnapshot_applyExecution _ x)
  · rw [applyExecution_changed h]

end Book

end MarketFeed
