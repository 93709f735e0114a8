import MarketFeed.Decimal.Rounding
import MarketFeed.Decimal.Numeral

/-!
# Elapsed Time

A duration in the largest unit that it fills, with three places.

The unit is chosen before the last place is rounded, so a duration just under
a second is a thousand milliseconds and never one second.

## Main definitions

* `Elapsed.TimeUnit`: The unit a duration is written in.
* `Elapsed.text`: The duration with its unit.
-/

namespace MarketFeed

namespace Elapsed

/-- The units in which a duration is written. -/
inductive TimeUnit
  /-- A second. -/
  | seconds
  /-- A thousandth of a second. -/
  | milliseconds
  /-- A millionth of a second. -/
  | microseconds
  /-- A billionth of a second. -/
  | nanoseconds
  deriving DecidableEq, Repr

namespace TimeUnit

/-- How many nanoseconds the unit holds. -/
def nanos : TimeUnit → Nat
  | .seconds => 1000000000
  | .milliseconds => 1000000
  | .microseconds => 1000
  | .nanoseconds => 1

/-- The unit's symbol. -/
def symbol : TimeUnit → String
  | .seconds => "s"
  | .milliseconds => "ms"
  | .microseconds => "µs"
  | .nanoseconds => "ns"

end TimeUnit

/-- The largest unit that the duration fills once. -/
def unit (nanos : Nat) : TimeUnit :=
  if TimeUnit.seconds.nanos ≤ nanos then .seconds
  else if TimeUnit.milliseconds.nanos ≤ nanos then .milliseconds
  else if TimeUnit.microseconds.nanos ≤ nanos then .microseconds
  else .nanoseconds

/-- The duration in its unit with three places, a half going to the even last
    digit. -/
def text (nanos : Nat) : String :=
  let u := unit nanos
  (Decimal.Numeral.mk (Decimal.roundHalfEven (nanos * 1000) u.nanos) (-3)).text ++ u.symbol

end Elapsed

end MarketFeed
