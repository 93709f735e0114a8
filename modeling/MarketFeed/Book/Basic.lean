import MarketFeed.Snapshot

/-!
# The Book of One Security

Resting orders, and their totals at each price.

A book keeps every resting order under its identifier and, beside that, the
total volume and the number of orders at each price of either side. The
totals are what a reader of the book sees; the orders are what a message
refers to. Every change is made of two moves: an order leaves, taking its
share out of its level, and an order comes to rest, adding its share. A level
whose last order leaves is dropped.

What cannot rest is refused where it would be added: an order without a
price, without a volume, with a volume that is not positive, or on neither
side of the book. A refused order is simply absent.

Volumes are added as integers of any size. A level may hold as many orders as
there are identifiers, and their volumes together exceed 64 bits.

## Main definitions

* `RestingOrder`, `Pool`, `Level`: An order, the totals at a price, and the
  totals with their price.
* `Book`: The orders and both ladders of one security.
* `Book.add`, `Book.remove`: The two moves.
* `Book.applyUpdate`, `Book.applyExecution`, `Book.applySnapshot`: The effect
  of the three kinds of message.
* `Book.top`: The best levels of either side.

## Theorems

* `add_of_not_rests`: What cannot rest changes nothing.
* `rptSeq_applyUpdate`, `rptSeq_applyExecution`: Every message about an order
  leaves its report number behind.
-/

namespace MarketFeed

/-- An order in the book. -/
structure RestingOrder where
  /-- The side it rests on. -/
  side : Side
  /-- Its price in raw units. -/
  price : Int64
  /-- The volume left in it. -/
  volume : Int64
  deriving DecidableEq, Repr

/-- What rests at one price of one side. -/
structure Pool where
  /-- The sum of the volumes. -/
  volume : Int := 0
  /-- How many orders there are. -/
  orders : Nat := 0
  deriving DecidableEq, Repr

/-- A price of one side with what rests there. -/
structure Level where
  /-- The price in raw units. -/
  price : Int64
  /-- The sum of the volumes. -/
  volume : Int
  /-- How many orders there are. -/
  orders : Nat
  deriving DecidableEq, Repr

/-- One side of a book: what rests at each price, the best price first. -/
abbrev Ladder := List (Int64 × Pool)

namespace Ladder

/-- Add an order's share to the level at a price, which comes into being if
    it is not there. -/
def deposit (before : Int64 → Int64 → Bool) (price : Int64) (volume : Int) (ladder : Ladder) :
    Ladder :=
  let pool := (Keyed.find? price ladder).getD {}
  Keyed.insert before price ⟨pool.volume + volume, pool.orders + 1⟩ ladder

/-- Take an order's share out of the level at a price, and drop the level
    with its last order. -/
def withdraw (before : Int64 → Int64 → Bool) (price : Int64) (volume : Int) (ladder : Ladder) :
    Ladder :=
  match Keyed.find? price ladder with
  | none => ladder
  | some pool =>
    if pool.orders - 1 = 0 then Keyed.erase price ladder
    else Keyed.insert before price ⟨pool.volume - volume, pool.orders - 1⟩ ladder

/-- The levels of the ladder, the best first. -/
def levels (ladder : Ladder) : List Level :=
  ladder.map fun (price, pool) => ⟨price, pool.volume, pool.orders⟩

end Ladder

/-- The order of identifiers, which is the order of the signed numbers. -/
def idOrder (a b : Int64) : Bool := a < b

/-- The live book of one security. -/
structure Book where
  /-- The resting orders by their identifiers. -/
  orders : List (Int64 × RestingOrder) := []
  /-- The bids by price, the highest first. -/
  bids : Ladder := []
  /-- The offers by price, the lowest first. -/
  asks : Ladder := []
  /-- The number of the last report that was applied. -/
  lastRptSeq : UInt32 := 0
  /-- The last snapshot applied was not its last fragment. -/
  inSnapshot : Bool := false
  deriving DecidableEq, Repr

namespace Book

/-- A book in which nothing rests. -/
def empty : Book := {}

/-- How many orders rest. -/
def orderCount (b : Book) : Nat := b.orders.length

/-- The highest bid with what rests there. -/
def bestBid (b : Book) : Option Level := b.bids.levels.head?

/-- The lowest offer with what rests there. -/
def bestAsk (b : Book) : Option Level := b.asks.levels.head?

/-- The best levels of either side, at most `depth` of each. -/
def top (b : Book) (depth : Nat) : List Level × List Level :=
  (b.bids.levels.take depth, b.asks.levels.take depth)

/-- Take every order out. The number of the last report stays. -/
def clear (b : Book) : Book :=
  { b with orders := [], bids := [], asks := [], inSnapshot := false }

/-- Whether an order with this side, price and volume can rest. -/
def rests (side : Side) (price volume : Int64) : Bool :=
  price != Price.absent && volume != Price.absent && 0 < volume &&
    (side == .bid || side == .offer)

/-- Let an order come to rest, if it can. -/
def add (b : Book) (id : Int64) (order : RestingOrder) : Book :=
  if rests order.side order.price order.volume then
    let b := { b with orders := Keyed.insert idOrder id order b.orders }
    match order.side with
    | .bid => { b with bids := b.bids.deposit bidOrder order.price order.volume.toInt }
    | _ => { b with asks := b.asks.deposit askOrder order.price order.volume.toInt }
  else b

/-- Let the order with this identifier leave, if there is one. -/
def remove (b : Book) (id : Int64) : Book :=
  match Keyed.find? id b.orders with
  | none => b
  | some order =>
    let b := { b with orders := Keyed.erase id b.orders }
    match order.side with
    | .bid => { b with bids := b.bids.withdraw bidOrder order.price order.volume.toInt }
    | .offer => { b with asks := b.asks.withdraw askOrder order.price order.volume.toInt }
    | _ => b

/-- Let an order come to rest in place of any order with its identifier. -/
def replace (b : Book) (id : Int64) (order : RestingOrder) : Book :=
  (b.remove id).add id order

/-- Whether an order with this identifier rests. -/
def holds (b : Book) (id : Int64) : Bool := (Keyed.find? id b.orders).isSome

/-- Apply a change to an order. The flag says whether an order came or went.

    New and changed orders are treated alike: whatever rests under the
    identifier leaves, and the order comes to rest as the message has it. -/
def applyUpdate (b : Book) (u : OrderUpdate) : Book × Bool :=
  let b := { b with lastRptSeq := u.rptSeq }
  match u.action with
  | .new | .update =>
    let order : RestingOrder := ⟨u.side, u.orderPrice, u.orderVolume⟩
    (b.replace u.orderId order,
      b.holds u.orderId || rests order.side order.price order.volume)
  | .delete => (b.remove u.orderId, b.holds u.orderId)
  | .unknown _ => (b, false)

/-- Whether an execution takes its order out of the book. -/
def fills (x : OrderExecution) : Bool :=
  x.action == .delete || x.remainingQuantity ≤ 0 || x.remainingQuantity == Price.absent

/-- Apply a trade to its order, which shrinks to what is left of it or leaves
    the book. Side and price stay those of the resting order. The flag says
    whether there was one. -/
def applyExecution (b : Book) (x : OrderExecution) : Book × Bool :=
  let b := { b with lastRptSeq := x.rptSeq }
  match Keyed.find? x.orderId b.orders with
  | none => (b, false)
  | some order =>
    if fills x then (b.remove x.orderId, true)
    else
      (b.replace x.orderId { order with volume := x.remainingQuantity },
        rests order.side order.price x.remainingQuantity)

/-- The order that a snapshot's entry stands for. -/
def orderOf (entry : BookEntry) : RestingOrder :=
  ⟨entry.side, entry.orderPrice, entry.orderVolume⟩

/-- Let the orders of a snapshot's entries come to rest, one after the
    other. -/
def load (b : Book) (found : List BookEntry) : Book :=
  found.foldl (fun b entry => b.replace entry.orderId (orderOf entry)) b

/-- Apply one snapshot message. The book starts over from nothing, unless the
    snapshot before it said that more fragments follow. -/
def applySnapshot (b : Book) (e : Envelope) (s : Snapshot) : Book :=
  let b := if b.inSnapshot then b else b.clear
  { b.load s.entries with
    lastRptSeq := s.header.rptSeq
    inSnapshot := !e.isLastFragment }

/-! ## Report numbers and refusals -/

/-- An order that cannot rest leaves no trace. -/
theorem add_of_not_rests (b : Book) (id : Int64) {order : RestingOrder}
    (h : rests order.side order.price order.volume = false) : b.add id order = b := by
  simp [add, h]

@[simp] theorem rptSeq_add (b : Book) (id : Int64) (order : RestingOrder) :
    (b.add id order).lastRptSeq = b.lastRptSeq := by
  unfold add
  split
  · dsimp only
    split <;> rfl
  · rfl

@[simp] theorem rptSeq_remove (b : Book) (id : Int64) :
    (b.remove id).lastRptSeq = b.lastRptSeq := by
  unfold remove
  split
  · rfl
  · dsimp only
    split <;> rfl

/-- A change counts as reported whatever comes of it. -/
theorem rptSeq_applyUpdate (b : Book) (u : OrderUpdate) :
    (b.applyUpdate u).1.lastRptSeq = u.rptSeq := by
  unfold applyUpdate
  dsimp only
  split <;> simp [replace]

/-- A trade counts as reported, also one against an order that does not rest. -/
theorem rptSeq_applyExecution (b : Book) (x : OrderExecution) :
    (b.applyExecution x).1.lastRptSeq = x.rptSeq := by
  unfold applyExecution
  dsimp only
  split
  · rfl
  · split <;> simp [replace]

end Book

end MarketFeed
