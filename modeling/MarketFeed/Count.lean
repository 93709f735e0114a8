/-!
# Sums of Counts

What becomes of a sum that 64 bits cannot hold.

Counts are natural numbers here, although each of them has 64 bits to stand in.
A count of things that are there never needs more, so it goes without a bound.
A count that was given from outside may be any, and a sum with it may have no
place. Such a sum is not cut and not clamped. There is none, and whatever asked
for it fails.

## Main definitions

* `Count.sum?`: The sum of two counts, if 64 bits can hold it.

## Theorems

* `sum?_eq_some_iff`, `sum?_eq_none_iff`: When there is a sum.
-/

namespace MarketFeed

namespace Count

/-- The sum of two counts, if 64 bits can hold it. -/
def sum? (a b : Nat) : Option Nat := if a + b < UInt64.size then some (a + b) else none

/-- There is one sum, and it is there as long as it fits. -/
theorem sum?_eq_some_iff {a b total : Nat} :
    sum? a b = some total ↔ a + b < UInt64.size ∧ a + b = total := by
  unfold sum?
  split
  · next hfits => simp only [Option.some.injEq, hfits, true_and]
  · next hover => simp only [reduceCtorEq, hover, false_and]

/-- There is no sum exactly if it has no place in 64 bits. -/
theorem sum?_eq_none_iff {a b : Nat} : sum? a b = none ↔ UInt64.size ≤ a + b := by
  unfold sum?
  split <;> simp only [reduceCtorEq, true_iff, false_iff] <;> omega

end Count

end MarketFeed
