import MarketFeed.Decimal.Binary64

/-!
# The Shortest Numeral of a Binary Fraction

The fewest digits that still name one binary fraction.

Around a binary fraction lies the interval of reals that round to it; its
ends are half way to the neighbours and belong to it when the mantissa is
even. Below a power of two the neighbour is only half as far away. A numeral
names the fraction when it lies in that interval.

The search goes over decimal grids from the coarsest on. On each grid only
the two points around the exact value can be in the interval if any point is,
so both are tried: the first grid with a hit gives the fewest digits, and of
two hits the nearer is taken, the upper one if they are equally near.
Seventeen digits always suffice.

All comparisons are between natural numbers. The interval is measured in
quarters of the last bit and the grid in its own steps, and `Grid` holds the
two factors that bring both to one unit.

## Main definitions

* `Grid`: The common unit of a decimal grid and a binary fraction.
* `Grid.hit?`: The grid point that names the fraction, if there is one.
* `shortest`: The numeral with the fewest digits.
-/

namespace MarketFeed

namespace Decimal

/-- The value, the ends of its interval and a decimal grid, in one unit. -/
structure Grid where
  /-- How many units one step of the grid is. -/
  step : Nat
  /-- The exact value in units. -/
  value : Nat
  /-- The lower end of the interval in units. -/
  low : Nat
  /-- The upper end of the interval in units. -/
  high : Nat
  /-- Whether the ends belong to the interval. -/
  closed : Bool

namespace Grid

/-- The grid of `10 ^ exponent` beside a binary fraction. -/
def ofBinary (x : Binary64) (exponent : Int) : Grid :=
  let quarter := x.exponent - 2
  let unit := Nat.pow 10 (-exponent).toNat <<< quarter.toNat
  let below := if x.mantissa = Binary64.leastMantissa then 1 else 2
  { step := Nat.pow 10 exponent.toNat <<< (-quarter).toNat
    value := 4 * x.mantissa * unit
    low := (4 * x.mantissa - below) * unit
    high := (4 * x.mantissa + 2) * unit
    closed := x.mantissa % 2 = 0 }

/-- Whether the point with this index lies in the interval. -/
def admits (g : Grid) (index : Nat) : Bool :=
  let point := index * g.step
  if g.closed then g.low ≤ point && point ≤ g.high
  else g.low < point && point < g.high

/-- The index of the point that names the fraction: the nearer of the two
    points around the value, among those in the interval. -/
def hit? (g : Grid) : Option Nat :=
  let index := g.value / g.step
  let above := 2 * (g.value % g.step) ≥ g.step
  match g.admits index, g.admits (index + 1) with
  | true, true => some (if above then index + 1 else index)
  | true, false => some index
  | false, true => some (index + 1)
  | false, false => none

end Grid

/-- The power of ten of the first digit of `num / den`. For a quotient below
    one it comes from the digits of the inverse. -/
def leadingExponent (num den : Nat) : Int :=
  if den ≤ num then ((Nat.toDigits 10 (num / den)).length : Int) - 1
  else -((Nat.toDigits 10 ((den + num - 1) / num - 1)).length : Int)

/-- The numeral with the fewest digits that names the binary fraction. -/
def shortest (x : Binary64) : Numeral :=
  if x.mantissa = 0 then ⟨0, 0⟩
  else
    let (n, d) := x.ratio
    let first := leadingExponent n d
    let found := (List.range 17).findSome? fun (digits : Nat) =>
      let exponent := first - (digits : Int)
      ((Grid.ofBinary x exponent).hit?).map fun index => Numeral.mk index exponent
    (found.getD (x.fixed 17)).reduced

end Decimal

end MarketFeed
