import MarketFeed.Book.Basic
import MarketFeed.Price

/-!
# A Book as a Table

The best levels of a book side by side.

A line holds one level of either side: its place, the bid's price and volume,
a bar, the offer's price and volume. There are as many lines as the longer
side has levels. Where a side has run out, a hyphen stands in its place; the
bid's is set at the right end of its columns, so that the bars stay in line.

## Main definitions

* `Level.columns`: Price and volume of a level.
* `Book.table`: The table of the best levels.
-/

namespace MarketFeed

/-- The price and the volume of a level. -/
def Level.columns (level : Level) : String :=
  Price.column level.price ++ " x " ++ Text.alignRight 7 (toString level.volume)

namespace Book

/-- The line at a place of the table. -/
def tableLine (place : Nat) (bid ask : Option Level) : String :=
  let left := match bid with
    | some level => level.columns
    | none => Text.alignRight 22 "-"
  let right := match ask with
    | some level => level.columns
    | none => "-"
  Text.alignRight 3 (toString place) ++ ": " ++ left ++ " | " ++ right

/-- The best levels of either side, at most `depth` of each, one line a
    place. -/
def table (b : Book) (depth : Nat) : String :=
  let (bids, asks) := b.top depth
  Text.lines <| (List.range (max bids.length asks.length)).map fun place =>
    tableLine place bids[place]? asks[place]?

end Book

end MarketFeed
