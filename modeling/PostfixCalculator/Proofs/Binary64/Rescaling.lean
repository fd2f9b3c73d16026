import Mathlib.Tactic.LinearCombination
import PostfixCalculator.Proofs.Binary64.Units

/-!
# Units that are scaled down and up again

Units are divided by a factor and multiplied with it again, and both results are rounded.  The error
of this is small against the number of units, so below `2 ^ 51` units it is less than a quarter of
one, and up to `2 ^ 53` it is less than one.  A quotient that is rounded to a power of two is an
exception, and a welcome one: its product is exact.

That exception carries the other fact about rescaling.  The product is the value nearest to the
exact one, so it is no farther from it than the dividend, and dividing it again gives the same
quotient, unless the values around the quotient are not evenly spaced.  Only at a power of two they
are not.
-/

namespace PostfixCalculator

namespace Binary64

variable {F x y : ℚ} {N : ℤ}

/-- A factor that scales up and is not greater than the greatest finite number. -/
structure IsFactor (F : ℚ) : Prop where
  /-- It is a value. -/
  isValue : IsValue F
  /-- It does not scale down. -/
  one_le : 1 ≤ F
  /-- It is finite. -/
  le_two_pow : F ≤ 2 ^ 1024

/-- What is left of a number that is divided by a factor and multiplied with it. -/
def rescaled (F x : ℚ) : ℚ := rounded (rounded (x / F) * F)

/-- What is left of a number is a value. -/
lemma isValue_rescaled (F x : ℚ) : IsValue (rescaled F x) := isValue_rounded _

/-- A factor is not zero. -/
lemma IsFactor.pos (hF : IsFactor F) : 0 < F := zero_lt_one.trans_le hF.one_le

/-! ## Dividing again -/

/-- A power of two has an exact product with a factor. -/
lemma IsFactor.isValue_mul {k : ℤ} {s : ℕ} (hF : IsFactor F) (hx : x * quantaPerUnit = level k)
    (hk : |level k| = 2 ^ (52 + s)) : IsValue (x * F) := by
  obtain ⟨z, t, ht, hz, hscaled⟩ := hF.isValue.exists_scaled (s := 1022) (by
    have hunit : (quantaPerUnit : ℚ) = 2 ^ (52 + 1022) := by
      rw [quantaPerUnit_eq, Nat.cast_pow, Nat.cast_ofNat]
    rw [abs_of_pos hF.pos, hunit]
    exact le_mul_of_one_le_left (by positivity) hF.one_le)
  have hpow : (2 ^ (52 + s) * 2 ^ t : ℚ) = 2 ^ (52 + s + t - 1074) * quantaPerUnit := by
    rw [quantaPerUnit_eq, Nat.cast_pow, Nat.cast_ofNat, ← pow_add, ← pow_add,
      Nat.sub_add_cancel (by omega)]
  have hprod : x * F * quantaPerUnit * quantaPerUnit = level k * (z * 2 ^ t) := by
    rw [← hx, ← hscaled]
    ring
  rcases abs_choice (level k) with h | h <;> rw [hk] at h
  · refine isValue_of_scaled (s := 52 + s + t - 1074) hz
      (mul_right_cancel₀ quantaPerUnit_pos.ne' (hprod.trans ?_))
    rw [← h]
    push_cast
    linear_combination (z : ℚ) * hpow
  · refine isValue_of_scaled (s := 52 + s + t - 1074) (z := -z) (by rwa [abs_neg])
      (mul_right_cancel₀ quantaPerUnit_pos.ne' (hprod.trans ?_))
    rw [← Int.neg_neg (level k), ← h]
    push_cast
    linear_combination -(z : ℚ) * hpow

/-- What is left of a value has the same quotient. -/
lemma IsFactor.rounded_rescaled_div (hF : IsFactor F) (hx : IsValue x) :
    rounded (rescaled F x / F) = rounded (x / F) := by
  rcases level_gaps (nearestLevel (x / F * quantaPerUnit)) with hgaps | ⟨s, -, hpow⟩
  · -- The product is at least as near to the exact one as the dividend is.
    have hnear := hx.abs_rounded_sub_le (rounded (x / F) * F)
    have hdist : ∀ y, |y / F * quantaPerUnit - level (nearestLevel (x / F * quantaPerUnit))| =
        |y - rounded (x / F) * F| * (quantaPerUnit / F) := by
      intro y
      have hpos : 0 < quantaPerUnit / F := div_pos quantaPerUnit_pos hF.pos
      rw [← rounded_mul_quantaPerUnit, ← abs_of_pos hpos, ← abs_mul]
      congr 1
      have := hF.pos.ne'
      generalize (quantaPerUnit : ℚ) = U
      field_simp
    have halike : nearestLevel (rescaled F x / F * quantaPerUnit) =
        nearestLevel (x / F * quantaPerUnit) := by
      refine nearestLevel_eq_of_abs_le hgaps ?_
      rw [hdist, hdist]
      exact mul_le_mul_of_nonneg_right hnear (div_pos quantaPerUnit_pos hF.pos).le
    rw [rounded, halike, rounded]
  · have hexact := hF.isValue_mul (rounded_mul_quantaPerUnit (x / F)) hpow
    rw [rescaled, hexact.rounded_eq, mul_div_cancel_right₀ _ hF.pos.ne',
      (isValue_rounded (x / F)).rounded_eq]

/-! ## The error of rescaling -/

/-- The error before the product is rounded. -/
lemma IsFactor.error (hF : IsFactor F) (x : ℚ) :
    2 ^ 51 * |rounded (x / F) * F - x| ≤ 1 ∨ (2 ^ 53 + 1) * |rounded (x / F) * F - x| ≤ |x| := by
  have hdist : |rounded (x / F) * F - x| = |rounded (x / F) - x / F| * F := by
    rw [← abs_of_pos hF.pos, ← abs_mul, abs_of_pos hF.pos, sub_mul, div_mul_cancel₀ _ hF.pos.ne']
  rw [hdist]
  refine (rounded_error (x / F)).imp (fun h => ?_) fun h => ?_
  · have hunit : (2 ^ 51 * 2 ^ 1024 : ℚ) = 2 * quantaPerUnit := by
      rw [quantaPerUnit_eq, Nat.cast_pow, Nat.cast_ofNat, ← pow_succ', ← pow_add]
    calc 2 ^ 51 * (|rounded (x / F) - x / F| * F)
        ≤ 2 ^ 51 * (|rounded (x / F) - x / F| * 2 ^ 1024) :=
          mul_le_mul_of_nonneg_left
            (mul_le_mul_of_nonneg_left hF.le_two_pow (abs_nonneg _)) (by positivity)
      _ = 2 ^ 51 * 2 ^ 1024 * |rounded (x / F) - x / F| := by
          rw [mul_assoc, mul_comm (2 ^ 1024 : ℚ)]
      _ = 2 * quantaPerUnit * |rounded (x / F) - x / F| := by rw [hunit]
      _ ≤ 1 := h
  · rw [abs_div, abs_of_pos hF.pos, le_div_iff₀ hF.pos] at h
    linarith

/-- Up to `2 ^ 53` units the error is less than one. -/
lemma IsFactor.error_lt_one (hF : IsFactor F) (hN : |N| ≤ 2 ^ 53) :
    |rounded (N / F) * F - N| < 1 := by
  have hN : |(N : ℚ)| ≤ 2 ^ 53 := mod_cast hN
  rcases hF.error N with h | h <;> linarith

/-- Up to `2 ^ 52` units the error is less than one half. -/
lemma IsFactor.error_lt_half (hF : IsFactor F) (hN : |N| ≤ 2 ^ 52) :
    |rounded (N / F) * F - N| < 1 / 2 := by
  have hN : |(N : ℚ)| ≤ 2 ^ 52 := mod_cast hN
  rcases hF.error N with h | h <;> linarith

/-- Up to `2 ^ 51` units the error is at most one quarter. -/
lemma IsFactor.error_le_quarter (hF : IsFactor F) (hN : |N| ≤ 2 ^ 51) :
    |rounded (N / F) * F - N| ≤ 1 / 4 := by
  have hN : |(N : ℚ)| ≤ 2 ^ 51 := mod_cast hN
  rcases hF.error N with h | h <;> linarith

end Binary64

end PostfixCalculator
