import MarketFeed.Book.Basic
import MarketFeed.Message

/-!
# The Books of All Securities

One book for each security that a message has named.

A book comes into being with the first message for its security, whether or
not that message changes it, and messages for other securities never reach
it. The books are kept and listed by ascending security.

## Main definitions

* `Books`: The books by security.
* `Books.applyUpdate`, `Books.applyExecution`, `Books.applySnapshot`: The
  effect of a message on the book of its security.
* `Books.get?`: The book of a security.
* `Books.listener`: The listener that keeps the books.

## Theorems

* `get?_put_self`: A change reaches the book it is for.
* `get?_put_of_ne`: A change reaches no other book.
-/

namespace MarketFeed

/-- The order of securities, which is the order of the signed numbers. -/
def securityOrder (a b : Int32) : Bool := a < b

/-- The live books by security. -/
structure Books where
  /-- Each named security with its book, in ascending order. -/
  entries : List (Int32 × Book) := []
  deriving DecidableEq, Repr

namespace Books

/-- No security has been named yet. -/
def empty : Books := {}

/-- The book of a security, if the security has been named. -/
def get? (bs : Books) (security : Int32) : Option Book := Keyed.find? security bs.entries

/-- How many securities have been named. -/
def size (bs : Books) : Nat := bs.entries.length

/-- Whether no security has been named. -/
def isEmpty (bs : Books) : Bool := bs.entries.isEmpty

/-- How many orders rest in all books together. -/
def orderCount (bs : Books) : Nat :=
  bs.entries.foldr (fun entry total => entry.2.orderCount + total) 0

/-- The book of a security as a message finds it: an empty one if the
    security is named for the first time. -/
def getOrEmpty (bs : Books) (security : Int32) : Book := (bs.get? security).getD .empty

/-- Put a book in the place of its security's book. -/
def put (bs : Books) (security : Int32) (book : Book) : Books :=
  { bs with entries := Keyed.insert securityOrder security book bs.entries }

/-- Apply a change to an order in the book of its security. -/
def applyUpdate (bs : Books) (u : OrderUpdate) : Books × Bool :=
  let (book, changed) := (bs.getOrEmpty u.securityId).applyUpdate u
  (bs.put u.securityId book, changed)

/-- Apply a trade in the book of its security. -/
def applyExecution (bs : Books) (x : OrderExecution) : Books × Bool :=
  let (book, changed) := (bs.getOrEmpty x.securityId).applyExecution x
  (bs.put x.securityId book, changed)

/-- Apply a snapshot to the book of its security. -/
def applySnapshot (bs : Books) (e : Envelope) (s : Snapshot) : Books :=
  let book := (bs.getOrEmpty s.header.securityId).applySnapshot e s
  bs.put s.header.securityId book

/-- Apply a message to the book of its security. -/
def apply (e : Envelope) (m : Message) (bs : Books) : Books :=
  match m with
  | .update u => (bs.applyUpdate u).1
  | .execution x => (bs.applyExecution x).1
  | .snapshot s => bs.applySnapshot e s

/-- The listener that keeps the books. -/
def listener : Listener Books := apply

/-- A change reaches the book it is for. -/
theorem get?_put_self (bs : Books) (security : Int32) (book : Book) :
    (bs.put security book).get? security = some book :=
  Keyed.find?_insert_self _ _ _ _

/-- A change reaches no other book. -/
theorem get?_put_of_ne (bs : Books) {security other : Int32} (book : Book)
    (hne : security ≠ other) : (bs.put security book).get? other = bs.get? other :=
  Keyed.find?_insert_of_ne _ _ hne _

end Books

end MarketFeed
