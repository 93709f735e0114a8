import MarketFeed.Text

/-!
# Decimal Numerals

A whole coefficient and a power of ten, and how the pair is written.

Every decimal the feed prints is positional: however large or small, no
exponent appears. A numeral therefore has one spelling, and the only choice a
report makes is whether trailing zeros are kept. A column of fixed places
keeps them, a shortest numeral has none.

## Main definitions

* `Numeral`: A coefficient times a power of ten.
* `Numeral.text`: The positional spelling.
* `Numeral.reduced`: The same value without trailing zeros below the point.
-/

namespace MarketFeed

namespace Decimal

/-- The number `coefficient · 10 ^ exponent`. -/
structure Numeral where
  /-- The digits, read as a natural number. -/
  coefficient : Nat
  /-- The power of ten of the last digit. -/
  exponent : Int
  deriving DecidableEq, Repr

namespace Numeral

/-- Digits with a point before the last `places` of them, and at least one
    digit before the point. -/
def withPoint (digits : List Char) (places : Nat) : List Char :=
  let padded := List.replicate (places + 1 - digits.length) '0' ++ digits
  let whole := padded.length - places
  padded.take whole ++ '.' :: padded.drop whole

/-- The positional spelling: zeros behind the digits for a positive exponent,
    a point inside or before them for a negative one. -/
def text (n : Numeral) : String :=
  let digits := Nat.toDigits 10 n.coefficient
  if n.exponent < 0 then String.ofList (withPoint digits (-n.exponent).toNat)
  else if n.coefficient = 0 then "0"
  else String.ofList (digits ++ List.replicate n.exponent.toNat '0')

/-- Drop up to `places` zeros from the end of the digits below the point. -/
def reduceBy : Nat → Numeral → Numeral
  | 0, n => n
  | places + 1, n =>
    if n.coefficient % 10 = 0 then reduceBy places ⟨n.coefficient / 10, n.exponent + 1⟩ else n

/-- The same value without zeros at the end of the digits below the point. -/
def reduced (n : Numeral) : Numeral := reduceBy (-n.exponent).toNat n

end Numeral

end Decimal

end MarketFeed
