import Mathlib.Algebra.Order.Field.Basic
import Mathlib.Algebra.Order.Field.Power
import PostfixCalculator.Decimal.Basic
import PostfixCalculator.Proofs.Binary64.Values

/-!
# Decimals are rounded once

A decimal is rounded to the number nearest to its magnitude.  Where the magnitude is out of the
range of finite numbers, or below half a quantum, the answer is given without computing the power of
ten, and it is the same answer.
-/

namespace PostfixCalculator

namespace Decimal

open Binary64

variable {negative : Bool} {digits : ℕ} {exponent : ℤ}

/-- The magnitude of a decimal in quanta. -/
def magnitude (decimal : Decimal) : ℚ := decimal.digits * 10 ^ decimal.exponent * quantaPerUnit

/-- Zeros behind the digits can be moved to the exponent. -/
lemma magnitude_mul_ten_pow (negative : Bool) (digits t : ℕ) (exponent : ℤ) :
    magnitude ⟨negative, digits * 10 ^ t, exponent⟩ =
      magnitude ⟨negative, digits, exponent + t⟩ := by
  rw [magnitude, magnitude, zpow_add₀ (by norm_num), zpow_natCast]
  push_cast
  ring

/-- From `10 ^ 310` on, no finite magnitude is nearest. -/
lemma infinityRank_le_nearestTo (hdigits : digits ≠ 0) (h : 310 ≤ exponent) :
    infinityRank ≤ nearestTo (magnitude ⟨negative, digits, exponent⟩) := by
  have hquanta : quanta infinityRank ≤ 10 ^ 310 * quantaPerUnit := by decide +kernel
  have hone : (1 : ℚ) ≤ digits := mod_cast Nat.one_le_iff_ne_zero.mpr hdigits
  rw [← nearestTo_quanta infinityRank]
  refine nearestTo_mono ?_
  calc (quanta infinityRank : ℚ) ≤ ((10 ^ 310 * quantaPerUnit : ℕ) : ℚ) := mod_cast hquanta
    _ = 10 ^ (310 : ℤ) * quantaPerUnit := by
        rw [Nat.cast_mul, Nat.cast_pow, Nat.cast_ofNat]
        rfl
    _ ≤ 10 ^ exponent * quantaPerUnit :=
        mul_le_mul_of_nonneg_right (zpow_le_zpow_right₀ (by norm_num) h) quantaPerUnit_pos.le
    _ ≤ digits * 10 ^ exponent * quantaPerUnit :=
        mul_le_mul_of_nonneg_right (le_mul_of_one_le_left (by positivity) hone)
          quantaPerUnit_pos.le

/-- Below half a quantum, zero is nearest. -/
lemma nearestTo_eq_zero (h : exponent + digits.log2 + 1076 ≤ 0) :
    nearestTo (magnitude ⟨negative, digits, exponent⟩) = 0 := by
  have hdigits : (digits : ℚ) ≤ 2 ^ (digits.log2 + 1) := mod_cast (Nat.lt_log2_self).le
  have hpower : (10 : ℚ) ^ exponent ≤ (10 ^ (digits.log2 + 1076))⁻¹ := by
    rw [← zpow_natCast, ← zpow_neg]
    exact zpow_le_zpow_right₀ (by norm_num) (by push_cast; omega)
  have hunit : (2 ^ (digits.log2 + 1) * quantaPerUnit * 2 : ℚ) = 2 ^ (digits.log2 + 1076) := by
    rw [quantaPerUnit_eq, Nat.cast_pow, Nat.cast_ofNat, ← pow_add, ← pow_succ]
  have hsmall : magnitude ⟨negative, digits, exponent⟩ * 2 < 1 := by
    calc (digits : ℚ) * 10 ^ exponent * quantaPerUnit * 2
        ≤ 2 ^ (digits.log2 + 1) * (10 ^ (digits.log2 + 1076))⁻¹ * quantaPerUnit * 2 :=
          mul_le_mul_of_nonneg_right (mul_le_mul_of_nonneg_right
            (mul_le_mul hdigits hpower (by positivity) (by positivity)) quantaPerUnit_pos.le)
            zero_le_two
      _ = 2 ^ (digits.log2 + 1076) / 10 ^ (digits.log2 + 1076) := by
          rw [← hunit, div_eq_mul_inv]
          generalize ((10 : ℚ) ^ (digits.log2 + 1076))⁻¹ = t
          ring
      _ < 1 := (div_lt_one (by positivity)).mpr
          (pow_lt_pow_left₀ (by norm_num) (by norm_num) (by omega))
  refine Nat.le_zero.mp (nearestTo_le_iff.mpr (Or.inl ?_))
  have hmid : midsum 0 = 1 := by decide
  rw [hmid, Nat.cast_one]
  linarith

/-- A decimal is rounded to the number of its sign that is nearest to its magnitude. -/
lemma toBinary64_eq (decimal : Decimal) :
    decimal.toBinary64 = ofRank decimal.negative (nearestTo decimal.magnitude) := by
  obtain ⟨negative, digits, exponent⟩ := decimal
  unfold toBinary64 rank
  dsimp only
  split_ifs with hzero hlarge hsmall
  · have : magnitude ⟨negative, digits, exponent⟩ = quanta 0 := by
      rw [magnitude, hzero, quanta_zero, Nat.cast_zero, zero_mul, zero_mul]
    rw [this, nearestTo_quanta]
  · have hrank : infinityRank ≤ nearestTo (magnitude ⟨negative, digits, exponent⟩) :=
      infinityRank_le_nearestTo hzero hlarge
    rw [ofRank, ofRank, dif_neg (lt_irrefl _), dif_neg (not_lt.mpr hrank)]
  · rw [nearestTo_eq_zero hsmall]
  · have hpow : (10 : ℚ) ^ exponent = 10 ^ exponent.toNat / 10 ^ (-exponent).toNat := by
      rw [← zpow_natCast, ← zpow_natCast, ← zpow_sub₀ (by norm_num)]
      congr 1
      omega
    have hpos : 0 < Nat.pow 10 (-exponent).toNat := Nat.pow_pos (by decide)
    rw [nearestRank_eq_nearestTo hpos, magnitude, hpow]
    simp only [Nat.pow_eq, Nat.cast_mul, Nat.cast_pow, Nat.cast_ofNat]
    congr 2
    ring

end Decimal

end PostfixCalculator
