import MarketFeed.Decimal.Shortest

/-!
# Prices

A raw price counts units of one hundred-thousandth, and the largest signed
64-bit number stands for no price at all.

A price is displayed as the binary fraction nearest to the raw count, divided
by the scale and rounded once more: raw counts beyond 53 bits lose their last
digits before the point is set, and the text shows that.

## Main definitions

* `Price.absent`: The marker for an absent value.
* `Price.scale`: Raw units to one unit of price.
* `Price.magnitude`: The displayed size of a raw price.
* `Price.text`: The shortest text of a raw price.
* `Price.column`: A raw price with five places in a column of twelve.
* `Price.bits`: The displayed price in the binary interchange format.
-/

namespace MarketFeed

namespace Price

/-- The marker for an absent price, volume or quantity. -/
def absent : Int64 := Int64.maxValue

/-- How many raw units make one unit of price. -/
def scale : Nat := 100000

/-- What an absent price is written as. -/
def absentText : String := "NaN"

/-- The displayed size of a raw price, its sign aside: the nearest binary
    fraction to the raw count, divided by the scale. -/
def magnitude (raw : Int64) : Decimal.Binary64 :=
  (Decimal.Binary64.ofRatio raw.toInt.natAbs 1).divide scale

/-- The sign of a raw price as it is written. -/
def sign (raw : Int64) : String := if raw.toInt < 0 then "-" else ""

/-- The fewest digits that name the displayed price. -/
def text (raw : Int64) : String :=
  if raw = absent then absentText
  else sign raw ++ (Decimal.shortest (magnitude raw)).text

/-- Five places of the displayed price at the end of a column of twelve. -/
def column (raw : Int64) : String :=
  Text.alignRight 12 <|
    if raw = absent then absentText
    else sign raw ++ ((magnitude raw).fixed 5).text

/-- The 64 bits of the displayed price. An absent price has the bits of the
    quiet value that is no number. -/
def bits (raw : Int64) : Nat :=
  if raw = absent then 0x7ff8000000000000
  else (magnitude raw).bits (raw.toInt < 0)

end Price

end MarketFeed
