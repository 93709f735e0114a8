import Mathlib.Algebra.Ring.Nat
import Mathlib.Logic.Function.Iterate
import MarketFeed.Log.Checksum
import MarketFeed.Proofs.Words

/-!
# What the Checksum Tells Apart

Octets that differ in a short stretch have different checksums.

A shift is linear in exclusive or, and it loses nothing: the polynomial has
its top bit set, which a shifted register has not, so whether the polynomial
was added can be told from the result. Hence the register can be traced back
through any octets that follow, and two inputs that have led to different
registers never come together again behind the same octets.

What is left is the stretch in which the inputs differ. Up to four octets fit
into the register. Taking them one by one is the same as adding them all at
once, each at its own place, and shifting afterwards, since an octet that
waits above the lowest eight bits only moves down. So within four octets the
register after them gives the octets back.

Neither part depends on how much comes before or behind.

## Theorems

* `shift_xor`, `shift_injective`: A shift is linear and loses nothing.
* `run_injective`: What follows keeps different registers apart.
* `run_eq_iterate`: Up to four octets are taken at once.
* `eq_of_run_eq`: They can be told from the register after them.
* `ofBytes_ne`: Inputs that differ in up to four octets in a row have
  different checksums.
-/

namespace MarketFeed

theorem Bytes.capacity_eq_two_pow (width : Nat) : capacity width = 2 ^ (8 * width) := by
  induction width with
  | zero => rfl
  | succ width ih => rw [capacity, ih, Nat.mul_succ, Nat.pow_add, Nat.mul_comm]

/-- Octets hold no more bits than eight for each. -/
theorem Bytes.leNat_lt_two_pow {input : Bytes} (width : Nat) (h : input.length ≤ width) :
    leNat input < 2 ^ (8 * width) := by
  have hlt := leNat_lt input
  rw [capacity_eq_two_pow] at hlt
  exact Nat.lt_of_lt_of_le hlt (Nat.pow_le_pow_right (by decide) (Nat.mul_le_mul_left 8 h))

namespace Checksum

variable {old new front back input : Bytes}

/-! ## One shift -/

theorem and_one_eq_one_iff (register : UInt32) :
    register &&& 1 = 1 ↔ register.toNat % 2 = 1 := by
  rw [← UInt32.toNat_inj, UInt32.toNat_and, UInt32.toNat_one, Nat.and_one_is_mod]

theorem toNat_shiftRight_one (register : UInt32) : (register >>> 1).toNat = register.toNat / 2 :=
  UInt32.toNat_shiftRight register 1

/-- A shift is linear: a register that is a difference shifts to the difference
    of the shifts. -/
theorem shift_xor (a b : UInt32) : shift (a ^^^ b) = shift a ^^^ shift b := by
  have hodd : (a ^^^ b) &&& 1 = 1 ↔ ¬ (a &&& 1 = 1 ↔ b &&& 1 = 1) := by
    simp only [and_one_eq_one_iff, UInt32.toNat_xor, Nat.xor_mod_two_eq_one]
  unfold shift
  simp only [hodd, UInt32.shiftRight_xor]
  by_cases ha : a &&& 1 = 1
  · by_cases hb : b &&& 1 = 1
    · -- The polynomial is added on both sides, and twice is not at all.
      rw [if_neg (by simp only [ha, hb, not_true_eq_false, not_false_eq_true]), if_pos ha,
        if_pos hb, UInt32.xor_assoc, UInt32.xor_comm polynomial, UInt32.xor_assoc,
        UInt32.xor_self, UInt32.xor_zero]
    · rw [if_pos (by simp only [ha, hb, iff_false, not_true_eq_false, not_false_eq_true]),
        if_pos ha, if_neg hb, UInt32.xor_assoc, UInt32.xor_assoc, UInt32.xor_comm polynomial]
  · by_cases hb : b &&& 1 = 1
    · rw [if_pos (by simp only [ha, hb, false_iff, not_true_eq_false, not_false_eq_true]),
        if_neg ha, if_pos hb, UInt32.xor_assoc]
    · rw [if_neg (by simp only [ha, hb, not_true_eq_false, not_false_eq_true]), if_neg ha,
        if_neg hb]

/-- Only the zero register shifts to zero. The polynomial has its highest bit
    set, so one that was mixed in is seen. -/
theorem eq_zero_of_shift {register : UInt32} (h : shift register = 0) : register = 0 := by
  have hlt := register.toNat_lt
  have hzero : (0 : UInt32).toNat = 0 := rfl
  unfold shift at h
  by_cases hodd : register &&& 1 = 1
  · -- The polynomial would be half of a word, but its top bit is set.
    rw [if_pos hodd, UInt32.xor_eq_zero_iff] at h
    have hhalf := congrArg UInt32.toNat h
    have hpolynomial : polynomial.toNat = 0xedb88320 := rfl
    rw [toNat_shiftRight_one, hpolynomial] at hhalf
    omega
  · rw [if_neg hodd] at h
    rw [and_one_eq_one_iff] at hodd
    have hhalf := congrArg UInt32.toNat h
    rw [toNat_shiftRight_one, hzero] at hhalf
    exact UInt32.toNat_inj.mp (by omega)

/-- A shift forgets nothing. -/
theorem shift_injective : Function.Injective shift := by
  intro a b h
  have hsum : shift (a ^^^ b) = 0 := by rw [shift_xor, h, UInt32.xor_self]
  exact UInt32.xor_eq_zero_iff.mp (eq_zero_of_shift hsum)

theorem iterate_shift_xor (n : Nat) (a b : UInt32) :
    shift^[n] (a ^^^ b) = shift^[n] a ^^^ shift^[n] b := by
  induction n generalizing a b with
  | zero => rfl
  | succ n ih => simp only [Function.iterate_succ_apply, shift_xor, ih]

theorem shift_ofNat {k : Nat} (h : 2 * k < UInt32.size) : shift (.ofNat (2 * k)) = .ofNat k := by
  have heven : (UInt32.ofNat (2 * k)).toNat = 2 * k := UInt32.toNat_ofNat_of_lt' h
  have hhalf : (UInt32.ofNat k).toNat = k := UInt32.toNat_ofNat_of_lt' (by omega)
  have hodd : ¬ UInt32.ofNat (2 * k) &&& 1 = 1 := by
    rw [and_one_eq_one_iff, heven]
    omega
  apply UInt32.toNat_inj.mp
  rw [shift, if_neg hodd, toNat_shiftRight_one, heven, hhalf]
  omega

/-- What lies above the lowest bits only moves down. -/
theorem iterate_shift_ofNat {n k : Nat} (h : 2 ^ n * k < UInt32.size) :
    shift^[n] (.ofNat (2 ^ n * k)) = .ofNat k := by
  induction n with
  | zero =>
      rw [Nat.pow_zero, Nat.one_mul]
      rfl
  | succ n ih =>
      rw [Nat.pow_succ', Nat.mul_assoc] at h ⊢
      rw [Function.iterate_succ_apply, shift_ofNat h, ih (by omega)]

/-! ## Any number of octets -/

theorem octet_eq_iterate (register : UInt32) (b : UInt8) :
    octet register b = shift^[8] (register ^^^ b.toUInt32) := rfl

/-- Taking an octet in forgets nothing of the register. -/
theorem octet_injective (b : UInt8) : Function.Injective fun register => octet register b := by
  intro first second h
  exact (UInt32.xor_left_inj _).mp (shift_injective.iterate 8 h)

/-- What follows keeps different registers apart. -/
theorem run_injective (input : Bytes) : Function.Injective fun register => run register input := by
  induction input with
  | nil => exact fun first second h => h
  | cons b rest ih => exact fun first second h => octet_injective b (ih h)

/-! ## Up to four octets -/

/-- Below and above the place of the eighth bit, so no bit is carried. -/
theorem add_mul_eq_xor {low high : Nat} (h : low < 2 ^ 8) :
    low + 2 ^ 8 * high = low ^^^ 2 ^ 8 * high := by
  refine Nat.eq_of_testBit_eq fun i => ?_
  rw [Nat.add_comm, Nat.testBit_two_pow_mul_add high h, Nat.testBit_xor, Nat.testBit_two_pow_mul]
  by_cases hi : i < 8
  · rw [if_pos hi, decide_eq_false (by omega), Bool.false_and, Bool.xor_false]
  · have hlow : low.testBit i = false :=
      Nat.testBit_lt_two_pow (Nat.lt_of_lt_of_le h (Nat.pow_le_pow_right (by decide) (by omega)))
    rw [if_neg hi, hlow, decide_eq_true (by omega), Bool.true_and, Bool.false_xor]

/-- The number of octets is that of the first, with the others eight bits
    higher. -/
theorem ofNat_leNat_cons (b : UInt8) (rest : Bytes) :
    UInt32.ofNat (Bytes.leNat (b :: rest))
      = b.toUInt32 ^^^ .ofNat (2 ^ 8 * Bytes.leNat rest) := by
  have hsum : Bytes.leNat (b :: rest) = b.toNat ^^^ 2 ^ 8 * Bytes.leNat rest :=
    add_mul_eq_xor b.toNat_lt
  rw [hsum, UInt32.ofNat_xor, UInt32.ofNat_uInt8ToNat]

/-- Up to four octets can be added to the register at once, each at its own
    place, and shifted through together. -/
theorem run_eq_iterate (register : UInt32) (h : input.length ≤ 4) :
    run register input
      = shift^[8 * input.length] (register ^^^ .ofNat (Bytes.leNat input)) := by
  induction input generalizing register with
  | nil => exact UInt32.xor_zero.symm
  | cons b rest ih =>
      rw [List.length_cons] at h ⊢
      have hrest : 2 ^ 8 * Bytes.leNat rest < UInt32.size :=
        Nat.mul_lt_mul_of_pos_left (Bytes.leNat_lt_two_pow 3 (by omega)) (by decide)
      -- The other octets wait above the first, and its eight shifts bring them
      -- down to where they belong.
      have hfirst : octet register b ^^^ .ofNat (Bytes.leNat rest)
          = shift^[8] (register ^^^ .ofNat (Bytes.leNat (b :: rest))) := by
        rw [ofNat_leNat_cons, ← UInt32.xor_assoc, iterate_shift_xor, iterate_shift_ofNat hrest,
          octet_eq_iterate]
      rw [run, List.foldl_cons, ← run, ih _ (by omega), hfirst, ← Function.iterate_add_apply,
        Nat.mul_succ]

/-- Up to four octets can be told from the register after them. -/
theorem eq_of_run_eq {register : UInt32} (hlength : new.length = old.length)
    (hshort : old.length ≤ 4) (h : run register new = run register old) : new = old := by
  have hshort' : new.length ≤ 4 := by omega
  rw [run_eq_iterate register hshort, run_eq_iterate register hshort', hlength] at h
  have hword := (UInt32.xor_right_inj _).mp (shift_injective.iterate _ h)
  have hnumber := congrArg UInt32.toNat hword
  rw [UInt32.toNat_ofNat_of_lt' (Bytes.leNat_lt_two_pow 4 hshort'),
    UInt32.toNat_ofNat_of_lt' (Bytes.leNat_lt_two_pow 4 hshort)] at hnumber
  rw [← Bytes.ofLE_leNat new, hlength, hnumber, Bytes.ofLE_leNat]

/-- Whatever is before and behind, inputs that differ in up to four octets in a
    row have different checksums. -/
theorem ofBytes_ne (hlength : new.length = old.length) (hshort : old.length ≤ 4)
    (hne : new ≠ old) : ofBytes (front ++ new ++ back) ≠ ofBytes (front ++ old ++ back) := by
  intro h
  have hrun := (UInt32.xor_left_inj _).mp h
  simp only [run_append] at hrun
  exact hne (eq_of_run_eq hlength hshort (run_injective back hrun))

end Checksum

end MarketFeed
