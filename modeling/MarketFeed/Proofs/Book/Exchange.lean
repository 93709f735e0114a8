import MarketFeed.Proofs.Book.Orders

/-!
# Messages in Another Order

What becomes of a book when messages change places, and when one comes twice.

A message about an order decides anew what rests under its identifier. As
writes to a map from identifiers to orders, two such decisions about different
identifiers can be taken in either order, and a decision that is taken twice
is taken once, because a message leaves alone what it has left itself.

The levels are where this could fail. Both messages may be about one price:
the first takes the last order from the level, which goes, and the second
brings the level back; the other way around the level never goes. That the
outcome is the same needs no case for it. A sound book has no freedom in its
levels, which are what its orders come to, listed by price. So a sound book is
determined by its orders, and what holds of the map holds of the book.

What the two orders of messages do leave different is the number of the last
report, which is that of the later message.

## Main definitions

* `OrderMessage`: A change to an order or a trade.
* `Book.reply`: What is reported of an operation.

## Theorems

* `Sound.eq_of_registry`: A sound book is determined by its orders.
* `Registry.settle_comm`, `Registry.settle_settle`: The laws of the map.
* `perform_comm`, `perform_perform`: The laws of the book.
* `reply_congr`: A reply depends on the order that the message names.
* `messages_commute_and_repeat`: What this says of every book.
-/

namespace MarketFeed

/-- A message about one order. -/
inductive OrderMessage
  | update (update : OrderUpdate)
  | execution (execution : OrderExecution)

namespace OrderMessage

/-- The identifier of the order. -/
def orderId : OrderMessage → Int64
  | .update u => u.orderId
  | .execution x => x.orderId

/-- The number of the report. -/
def rptSeq : OrderMessage → UInt32
  | .update u => u.rptSeq
  | .execution x => x.rptSeq

/-- What the message does to a book. -/
def operation : OrderMessage → Book.Operation
  | .update u => .update u
  | .execution x => .execution x

/-- What rests under the identifier, given what rested there. -/
def outcome : OrderMessage → Option RestingOrder → Option RestingOrder
  | .update u => u.outcome
  | .execution x => x.outcome

end OrderMessage

/-- The book with another number for its last report. -/
def Book.reported (b : Book) (rptSeq : UInt32) : Book := { b with lastRptSeq := rptSeq }

/-- What is reported of an operation. Of a message about an order it is
    whether one came, stayed or went; of the others it is nothing. -/
def Book.reply (b : Book) : Book.Operation → Option Bool
  | .update u => some (b.applyUpdate u).2
  | .execution x => some (b.applyExecution x).2
  | .snapshot _ _ | .clear => none

/-! ## A sound book is its orders -/

/-- Orders have one ladder on a side. -/
theorem Ladder.Aggregates.unique {before : Int64 → Int64 → Bool} {side : Side}
    {orders : List (Int64 × RestingOrder)} {ladder other : Ladder}
    (hstrict : Keyed.Strict before) (h : ladder.Aggregates before side orders)
    (h' : other.Aggregates before side orders) : ladder = other := by
  refine Keyed.eq_of_find?_eq hstrict h.sorted h'.sorted fun price => ?_
  rw [h.pools, h'.pools]

/-- Two sound books with the same orders and the same report number are one and
    the same, down to their ladders. -/
theorem Book.Sound.eq_of_registry {b b' : Book} (h : b.Sound) (h' : b'.Sound)
    (hregistry : b.registry = b'.registry) (hrptSeq : b.lastRptSeq = b'.lastRptSeq) : b = b' := by
  have hresting : b.resting = b'.resting := congrArg Registry.resting hregistry
  have horders : b.orders = b'.orders :=
    Keyed.eq_of_find?_eq strict_idOrder h.sorted h'.sorted (congrFun hresting)
  -- Both pairs of ladders are totals of the same orders.
  have hbids' := h'.bids
  have hasks' := h'.asks
  rw [← horders] at hbids' hasks'
  have hbids : b.bids = b'.bids := h.bids.unique strict_bidOrder hbids'
  have hasks : b.asks = b'.asks := h.asks.unique strict_askOrder hasks'
  have hsnapshot : b.inSnapshot = b'.inSnapshot := congrArg Registry.inSnapshot hregistry
  cases b
  cases b'
  simp only at horders hbids hasks hrptSeq hsnapshot
  rw [horders, hbids, hasks, hrptSeq, hsnapshot]

/-! ## Writes to a map -/

namespace Registry

variable {outcome outcome' : Option RestingOrder → Option RestingOrder}

/-- Messages for different identifiers settle in either order. -/
theorem settle_comm (r : Registry) {id id' : Int64} (hne : id ≠ id') :
    (r.settle id outcome).settle id' outcome' = (r.settle id' outcome').settle id outcome := by
  -- Neither decision sees what the other has written.
  simp only [settle, Function.update_of_ne hne, Function.update_of_ne hne.symm]
  rw [Function.update_comm hne]

/-- A message that settles nothing further the second time can be repeated. -/
theorem settle_settle (r : Registry) (id : Int64)
    (houtcome : ∀ resting, outcome (outcome resting) = outcome resting) :
    (r.settle id outcome).settle id outcome = r.settle id outcome := by
  simp only [settle, Function.update_self, houtcome, Function.update_idem]

end Registry

/-- The outcome of a change is not changed by it again. -/
theorem OrderUpdate.outcome_outcome (u : OrderUpdate) (resting : Option RestingOrder) :
    u.outcome (u.outcome resting) = u.outcome resting := by
  unfold OrderUpdate.outcome
  cases u.action <;> rfl

theorem OrderExecution.outcome_outcome (x : OrderExecution) (resting : Option RestingOrder) :
    x.outcome (x.outcome resting) = x.outcome resting := by
  cases resting with
  | none => rfl
  | some order =>
      rw [OrderExecution.outcome]
      split
      · rfl
      -- Whether a trade fills its order is a matter of the trade alone.
      · next hleft => rw [OrderExecution.outcome, if_neg hleft]

theorem OrderMessage.outcome_outcome (m : OrderMessage) (resting : Option RestingOrder) :
    m.outcome (m.outcome resting) = m.outcome resting := by
  cases m with
  | update u => exact u.outcome_outcome resting
  | execution x => exact x.outcome_outcome resting

/-! ## Messages to a book -/

namespace Book

variable {b b' : Book} {m m' : OrderMessage}

theorem registry_reported (b : Book) (rptSeq : UInt32) :
    (b.reported rptSeq).registry = b.registry := rfl

/-- A message settles its identifier in the registry. -/
theorem registry_message (h : Sound b) (m : OrderMessage) :
    (b.perform m.operation).registry = b.registry.settle m.orderId m.outcome := by
  cases m with
  | update u => exact registry_perform h _
  | execution x => exact registry_perform h _

theorem rptSeq_message (b : Book) (m : OrderMessage) :
    (b.perform m.operation).lastRptSeq = m.rptSeq := by
  cases m with
  | update u => exact rptSeq_applyUpdate b u
  | execution x => exact rptSeq_applyExecution b x

/-- A message leaves the other identifiers alone. -/
theorem resting_message_of_ne (h : Sound b) (m : OrderMessage) {id : Int64} (hne : id ≠ m.orderId) :
    (b.perform m.operation).resting id = b.resting id := by
  have hregistry := congrArg Registry.resting (registry_message h m)
  exact (congrFun hregistry id).trans (Function.update_of_ne hne _ _)

/-- A reply depends on the order that the message names. -/
theorem reply_congr (h : Sound b) (h' : Sound b')
    (hresting : b.resting m.orderId = b'.resting m.orderId) :
    b.reply m.operation = b'.reply m.operation := by
  cases m with
  | update u =>
      have hchanged : (b.applyUpdate u).2 = (b'.applyUpdate u).2 := by
        rw [Bool.eq_iff_iff, applyUpdate_changed_iff, applyUpdate_changed_iff,
          resting_applyUpdate, resting_applyUpdate, Function.update_self, Function.update_self]
        simp only [show b.resting u.orderId = b'.resting u.orderId from hresting]
      exact congrArg some hchanged
  | execution x =>
      have hchanged : (b.applyExecution x).2 = (b'.applyExecution x).2 := by
        rw [applyExecution_changed h, applyExecution_changed h']
        exact congrArg Option.isSome hresting
      exact congrArg some hchanged

/-- A reply does not change with a message for another identifier. -/
theorem reply_of_ne (h : Sound b) (hne : m.orderId ≠ m'.orderId) :
    (b.perform m'.operation).reply m.operation = b.reply m.operation :=
  reply_congr (sound_perform h _) h (resting_message_of_ne h m' hne)

/-- Two messages for different identifiers lead to the same book in either
    order, but for the report number. -/
theorem perform_comm (h : Sound b) (hne : m.orderId ≠ m'.orderId) :
    (b.perform m.operation).perform m'.operation
      = ((b.perform m'.operation).perform m.operation).reported m'.rptSeq := by
  have hfirst := sound_perform h m.operation
  have hfirst' := sound_perform h m'.operation
  have hboth' := sound_perform hfirst' m.operation
  refine (sound_perform hfirst _).eq_of_registry (hboth'.congr rfl rfl rfl) ?_ ?_
  · rw [registry_reported, registry_message hfirst, registry_message h,
      registry_message hfirst', registry_message h, Registry.settle_comm _ hne]
  · exact rptSeq_message _ _

/-- A message that is repeated changes nothing. -/
theorem perform_perform (h : Sound b) (m : OrderMessage) :
    (b.perform m.operation).perform m.operation = b.perform m.operation := by
  have hfirst := sound_perform h m.operation
  refine (sound_perform hfirst _).eq_of_registry hfirst ?_ ?_
  · rw [registry_message hfirst, registry_message h,
      Registry.settle_settle _ _ m.outcome_outcome]
  · rw [rptSeq_message, rptSeq_message]

/-- Two messages about different orders leave the same book in either order,
    apart from the report number, and each gets the reply that it gets when it
    comes first. A message that comes twice leaves the book that it left when
    it came once. -/
theorem messages_commute_and_repeat (history : List Operation) :
    (∀ m m' : OrderMessage, m.orderId ≠ m'.orderId →
      ((after history).perform m.operation).perform m'.operation
          = (((after history).perform m'.operation).perform m.operation).reported m'.rptSeq ∧
        ((after history).perform m'.operation).reply m.operation
          = (after history).reply m.operation ∧
        ((after history).perform m.operation).reply m'.operation
          = (after history).reply m'.operation) ∧
    ∀ m : OrderMessage, ((after history).perform m.operation).perform m.operation
      = (after history).perform m.operation := by
  have h := sound_after history
  refine ⟨?_, perform_perform h⟩
  intro m m' hne
  exact ⟨perform_comm h hne, reply_of_ne h hne, reply_of_ne h hne.symm⟩

/-- The bid that is alone at its price, another that comes to this price, and
    the trade that fills the first. -/
def loneBid : OrderUpdate := ⟨1, 100, 5, 0, 0, 1, 7, .new, .bid⟩

@[inherit_doc loneBid]
def joiningBid : OrderMessage := .update ⟨2, 100, 3, 0, 0, 2, 7, .new, .bid⟩

@[inherit_doc loneBid]
def lastTrade : OrderMessage :=
  .execution ⟨1, 100, 0, 100, 5, 0, 0, 0, 7, 3, .delete, .bid⟩

/-- The level goes and comes back, or it stays. -/
theorem messages_commute_and_repeat_loneBid :
    lastTrade.orderId ≠ joiningBid.orderId ∧
      ((after [.update loneBid]).perform lastTrade.operation).bids = [] ∧
      ((after [.update loneBid]).perform joiningBid.operation).bids = [(100, ⟨8, 2⟩)] ∧
      (((after [.update loneBid]).perform lastTrade.operation).perform joiningBid.operation).bids
        = [(100, ⟨3, 1⟩)] ∧
      ((after [.update loneBid]).perform lastTrade.operation).perform joiningBid.operation
        = (((after [.update loneBid]).perform joiningBid.operation).perform
            lastTrade.operation).reported joiningBid.rptSeq := by
  have hne : lastTrade.orderId ≠ joiningBid.orderId := by decide
  have hboth := (messages_commute_and_repeat [.update loneBid]).1 _ _ hne
  exact ⟨hne, by decide, by decide, by decide, hboth.1⟩

end Book

end MarketFeed
