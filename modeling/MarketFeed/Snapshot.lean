import MarketFeed.Keyed
import MarketFeed.Message.Basic
import MarketFeed.Price

/-!
# Snapshots of a Book

The entries of one snapshot message, sorted into two sides.

A snapshot holds one entry for each price of each side, the highest bid and
the lowest offer first. An entry without a price, or on neither side, is not
kept; an entry at a price that is already there takes its place, so of two
entries at one price the later stands.

A snapshot is never merged with an earlier one. What spans several datagrams
is put together by the book it is applied to.

## Main definitions

* `Snapshot`: A header and the two sides.
* `Snapshot.keeps`: Whether an entry belongs in a snapshot.
* `Snapshot.put`, `Snapshot.insert`: Put an entry in its place.
* `Snapshot.entries`: Bids and then offers, each from the best price on.

## Theorems

* `put_eq`: The entries that are kept are those that belong.
* `insert_of_not_keeps`: An entry that is not kept changes nothing.
-/

namespace MarketFeed

/-- The order of bids: the higher price comes first. -/
def bidOrder (a b : Int64) : Bool := b < a

/-- The order of offers: the lower price comes first. -/
def askOrder (a b : Int64) : Bool := a < b

/-- One snapshot message: its header, and on either side one entry for each
    price. -/
structure Snapshot where
  /-- What the message says about the whole book. -/
  header : SnapshotHeader
  /-- The bids by price, the highest first. -/
  bids : List (Int64 × BookEntry) := []
  /-- The offers by price, the lowest first. -/
  asks : List (Int64 × BookEntry) := []
  deriving DecidableEq, Repr

namespace Snapshot

/-- Whether an entry belongs in a snapshot: it has a price and a side. -/
def keeps (entry : BookEntry) : Bool :=
  entry.orderPrice != Price.absent && (entry.side == .bid || entry.side == .offer)

/-- Put an entry on its side, in place of any entry at the same price, and tell
    whether it was kept. An entry without a price or a side is passed over. -/
def put (s : Snapshot) (entry : BookEntry) : Snapshot × Bool :=
  if entry.orderPrice = Price.absent then (s, false)
  else
    match entry.side with
    | .bid => ({ s with bids := Keyed.insert bidOrder entry.orderPrice entry s.bids }, true)
    | .offer => ({ s with asks := Keyed.insert askOrder entry.orderPrice entry s.asks }, true)
    | .emptyBook | .unknown _ => (s, false)

/-- The snapshot with one entry more. -/
def insert (s : Snapshot) (entry : BookEntry) : Snapshot := (s.put entry).1

/-- The bids, the highest price first. -/
def bidEntries (s : Snapshot) : List BookEntry := Keyed.values s.bids

/-- The offers, the lowest price first. -/
def askEntries (s : Snapshot) : List BookEntry := Keyed.values s.asks

/-- All entries: the bids, then the offers, each from the best price on. -/
def entries (s : Snapshot) : List BookEntry := s.bidEntries ++ s.askEntries

/-- The entry with the highest bid. -/
def bestBid (s : Snapshot) : Option BookEntry := s.bidEntries.head?

/-- The entry with the lowest offer. -/
def bestAsk (s : Snapshot) : Option BookEntry := s.askEntries.head?

/-- How many entries are kept. -/
def size (s : Snapshot) : Nat := s.bids.length + s.asks.length

/-- Whether no entry is kept. -/
def isEmpty (s : Snapshot) : Bool := s.bids.isEmpty && s.asks.isEmpty

/-- The snapshot that holds the entries of a list, put in one after the
    other. -/
def ofEntries (header : SnapshotHeader) (found : List BookEntry) : Snapshot :=
  found.foldl insert { header }

/-- Whether an entry is kept does not depend on the snapshot. -/
theorem put_eq (s : Snapshot) (entry : BookEntry) :
    s.put entry = (s.insert entry, keeps entry) := by
  rw [insert, put, keeps]
  split
  · next habsent => simp [habsent]
  · next hprice => cases hside : entry.side <;> simp [hprice]

/-- An entry that is not kept changes nothing. -/
theorem insert_of_not_keeps (s : Snapshot) {entry : BookEntry} (h : keeps entry = false) :
    s.insert entry = s := by
  rw [insert, put]
  split
  · rfl
  · next hprice => cases hside : entry.side <;> simp [keeps, hprice, hside] at h <;> rfl

/-- An entry does not touch the header. -/
theorem header_insert (s : Snapshot) (entry : BookEntry) :
    (s.insert entry).header = s.header := by
  rw [insert, put]
  split
  · rfl
  · split <;> rfl

end Snapshot

end MarketFeed
