/-!
# Rounding a Quotient

The nearest whole number to a quotient, with a half going to the even
neighbour.

Binary fractions, columns of fixed places and durations all cut an exact
quotient down to a whole count of something, and all of them settle a half
the same way. The remainder decides, so no fraction is ever formed.

## Main definitions

* `roundHalfEven`: The nearest whole number to a quotient of naturals.

## Theorems

* `roundHalfEven_one`: A whole number is its own rounding.
* `roundHalfEven_near`: The rounding is within half a unit of the quotient.
* `roundHalfEven_tie`: A half goes to the even neighbour.
-/

namespace MarketFeed

namespace Decimal

/-- The natural number nearest to `num / den`; a half goes to the even one. -/
def roundHalfEven (num den : Nat) : Nat :=
  let quotient := num / den
  let twice := 2 * (num % den)
  if twice < den then quotient
  else if den < twice then quotient + 1
  else if quotient % 2 = 0 then quotient
  else quotient + 1

theorem roundHalfEven_one (n : Nat) : roundHalfEven n 1 = n := by
  simp [roundHalfEven, Nat.mod_one]

/-- Neither side of the distance exceeds half of `den`, counted in units of
    `1 / den`. -/
theorem roundHalfEven_near (num den : Nat) (h : 0 < den) :
    2 * (roundHalfEven num den * den) ≤ 2 * num + den ∧
      2 * num ≤ 2 * (roundHalfEven num den * den) + den := by
  have hsplit : den * (num / den) + num % den = num := Nat.div_add_mod num den
  have hcomm : num / den * den = den * (num / den) := Nat.mul_comm _ _
  have hsucc : (num / den + 1) * den = num / den * den + den := Nat.succ_mul _ _
  have hlt : num % den < den := Nat.mod_lt _ h
  unfold roundHalfEven
  dsimp only
  split
  · omega
  · split
    · omega
    · split <;> omega

/-- A number halfway between two goes to the even one. -/
theorem roundHalfEven_tie (num den : Nat) (h : 2 * (num % den) = den) :
    roundHalfEven num den % 2 = 0 := by
  unfold roundHalfEven
  dsimp only
  rw [if_neg (by omega), if_neg (by omega)]
  split <;> omega

end Decimal

end MarketFeed
