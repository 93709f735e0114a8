import MarketFeed.Decimal.Rounding
import MarketFeed.Decimal.Numeral

/-!
# Binary Fractions of 53 Bits

Exact arithmetic on the numbers that a price is displayed as.

A displayed price is a binary fraction: a natural number below `2 ^ 53` times
a power of two. Quotients are cut to the nearest such number, a half going to
the even mantissa. The fractions are kept as pairs of integers, so what is
printed and what is compared is a fact of integer arithmetic.

The quotients that occur lie between `10 ^ -5` and `2 ^ 63`, far inside the
range where the exponent has no bounds to respect, so neither the smallest
exponents nor overflow appear here.

## Main definitions

* `Binary64`: A mantissa of 53 bits and a power of two.
* `Binary64.leastMantissa`: The mantissa that is a leading one alone.
* `Binary64.ofRatio`: The nearest binary fraction to a quotient.
* `Binary64.bits`: The interchange format of the fraction, sign included.
* `Binary64.fixed`: The numeral with a given count of places.
-/

namespace MarketFeed

namespace Decimal

/-- The number `mantissa · 2 ^ exponent`. A positive number has its mantissa
    in the 53-bit range from `2 ^ 52`; zero has the mantissa zero. -/
structure Binary64 where
  /-- The 53 significant bits. -/
  mantissa : Nat
  /-- The power of two of the last bit. -/
  exponent : Int
  deriving DecidableEq, Repr

namespace Binary64

/-- Zero. -/
def zero : Binary64 := ⟨0, 0⟩

/-- The least mantissa of a positive number: the leading one of the 53 bits
    alone. -/
def leastMantissa : Nat := 4503599627370496

/-- The quotient `num / den` in units of `2 ^ exponent`, as a quotient of
    naturals again. -/
def scaled (num den : Nat) (exponent : Int) : Nat × Nat :=
  if exponent < 0 then (num <<< (-exponent).toNat, den)
  else (num, den <<< exponent.toNat)

/-- The power of two that leaves the whole part of `num / den` with exactly
    53 bits. The difference of the bit lengths is that power or one too
    large. -/
def unitExponent (num den : Nat) : Int :=
  let guess : Int := (Nat.log2 num : Int) - (Nat.log2 den : Int) - 52
  let (n, d) := scaled num den guess
  if n / d < leastMantissa then guess - 1 else guess

/-- The binary fraction nearest to `num / den`; a half goes to the even
    mantissa. Rounding up from the last mantissa moves to the next power of
    two. -/
def ofRatio (num den : Nat) : Binary64 :=
  if num = 0 then zero
  else
    let exponent := unitExponent num den
    let (n, d) := scaled num den exponent
    let mantissa := roundHalfEven n d
    if mantissa = 2 * leastMantissa then ⟨leastMantissa, exponent + 1⟩ else ⟨mantissa, exponent⟩

/-- The value as a quotient of naturals. -/
def ratio (x : Binary64) : Nat × Nat :=
  if x.exponent < 0 then (x.mantissa, 1 <<< (-x.exponent).toNat)
  else (x.mantissa <<< x.exponent.toNat, 1)

/-- The binary fraction nearest to a quotient of this one by a natural. -/
def divide (x : Binary64) (divisor : Nat) : Binary64 :=
  let (n, d) := x.ratio
  ofRatio n (d * divisor)

/-- The 64 bits of the interchange format: sign, biased exponent, and the
    mantissa without its leading bit. -/
def bits (negative : Bool) (x : Binary64) : Nat :=
  let magnitude :=
    if x.mantissa = 0 then 0
    else (x.exponent + 1075).toNat * leastMantissa + (x.mantissa - leastMantissa)
  (if negative then 2048 * leastMantissa else 0) + magnitude

/-- The numeral with `places` digits below the point nearest to the exact
    value; a half goes to the even last digit. -/
def fixed (places : Nat) (x : Binary64) : Numeral :=
  let (n, d) := x.ratio
  ⟨roundHalfEven (n * Nat.pow 10 places) d, -(places : Int)⟩

end Binary64

end Decimal

end MarketFeed
