import Mathlib.Data.Nat.Log
import Mathlib.Data.Rat.Cast.Order
import PostfixCalculator.Proofs.Binary64.Ranks

/-!
# The nearest magnitude

Rounding is described by its thresholds: the rank of the nearest magnitude is at most `r` exactly if
the number does not lie above the middle between the magnitudes of rank `r` and `r + 1`, or lies in
the middle and `r` is even.  Doubled, that middle is the sum of the two magnitudes, which is a whole
number of quanta.

The thresholds know nothing of how the rank is computed, and only the quotient counts.  So the
nearest rank is a function of a rational number, which is monotone and takes every magnitude to its
own rank.
-/

namespace PostfixCalculator

namespace Binary64

variable {num den k r s : ℕ} {x y z : ℚ}

/-! ## Thresholds -/

section Threshold

variable {p : Prop}

/-- What does not lie below a threshold, or on it where it counts as below, lies above. -/
lemma not_lt_or_eq_and_iff : ¬ (x < y ∨ x = y ∧ p) ↔ y < x ∨ x = y ∧ ¬ p := by
  constructor
  · intro h
    rw [not_or, not_lt, not_and] at h
    exact h.1.lt_or_eq.imp_right fun heq => ⟨heq.symm, h.2 heq.symm⟩
  · rintro (h | ⟨heq, hp⟩) (h' | ⟨heq', hp'⟩)
    · exact lt_asymm h h'
    · exact h.ne' heq'
    · exact h'.ne heq
    · exact hp hp'

/-- What is not greater lies below the same thresholds. -/
lemma lt_or_eq_and_of_le (hxy : x ≤ y) (h : y < z ∨ y = z ∧ p) : x < z ∨ x = z ∧ p := by
  rcases h with hlt | ⟨rfl, hp⟩
  · exact Or.inl (hxy.trans_lt hlt)
  · exact hxy.lt_or_eq.imp_right fun heq => ⟨heq, hp⟩

end Threshold

/-! ## The nearest whole number -/

/-- The rounded quotient is at most `k` unless the quotient lies above `k + 1 / 2`, or there and `k`
is odd. -/
lemma roundHalfEven_le_iff (hden : 0 < den) :
    roundHalfEven num den ≤ k ↔
      2 * num < (2 * k + 1) * den ∨ 2 * num = (2 * k + 1) * den ∧ Even k := by
  have hmod : num % den < den := Nat.mod_lt num hden
  have hnum : num = den * (num / den) + num % den := (Nat.div_add_mod num den).symm
  have hround : roundHalfEven num den =
      if 2 * (num % den) < den then num / den
      else if den < 2 * (num % den) then num / den + 1 else num / den + num / den % 2 := rfl
  generalize num / den = whole at *
  generalize num % den = part at *
  rw [Nat.even_iff, hround]
  rcases lt_trichotomy whole k with hlt | rfl | hgt
  · have : (2 * whole + 3) * den ≤ (2 * k + 1) * den := Nat.mul_le_mul_right _ (by omega)
    have habove : 2 * num < (2 * k + 1) * den := by
      rw [hnum]
      nlinarith
    refine iff_of_true ?_ (Or.inl habove)
    split_ifs <;> omega
  · have hk : (2 * whole + 1) * den = 2 * (den * whole) + den := by ring
    rw [hk, hnum]
    split_ifs <;> omega
  · have : (2 * k + 1) * den ≤ (2 * whole - 1) * den := Nat.mul_le_mul_right _ (by omega)
    have hbelow : (2 * k + 1) * den < 2 * num := by
      rw [hnum]
      have : (2 * whole - 1) * den + den = 2 * (den * whole) := by
        rw [← Nat.add_one_mul, Nat.sub_add_cancel (by omega)]
        ring
      omega
    refine iff_of_false ?_ (by omega)
    split_ifs <;> omega

/-- The rounded quotient is the whole part of the quotient or the next number. -/
lemma le_roundHalfEven_and_le (num den : ℕ) :
    num / den ≤ roundHalfEven num den ∧ roundHalfEven num den ≤ num / den + 1 := by
  unfold roundHalfEven
  dsimp only
  split_ifs <;> omega

/-! ## The thresholds of the nearest rank -/

/-- A magnitude and the next one together: twice the number of quanta in the middle. -/
def midsum (r : ℕ) : ℕ := quanta r + quanta (r + 1)

/-- A threshold is an odd multiple of half the step. -/
lemma midsum_eq (r : ℕ) : midsum r = (2 * significand r + 1) * 2 ^ scale r := by
  rw [midsum, quanta_succ, quanta_eq]
  ring

/-- Rounding scales a number down to 53 binary digits before the point, or not at all if it has
fewer. -/
lemma shift_spec (n : ℕ) :
    n / 2 ^ (n.log2 - 52) < 2 ^ 53 ∧ (0 < n.log2 - 52 → 2 ^ 52 ≤ n / 2 ^ (n.log2 - 52)) := by
  have hpos := Nat.two_pow_pos (n.log2 - 52)
  refine ⟨?_, fun hshift => ?_⟩
  · rw [Nat.div_lt_iff_lt_mul hpos, ← pow_add]
    exact Nat.lt_log2_self.trans_le (Nat.pow_le_pow_right (by decide) (by omega))
  · rw [Nat.le_div_iff_mul_le hpos, ← pow_add, Nat.add_sub_cancel' (by omega)]
    exact Nat.log2_self_le (by rintro rfl; simp at hshift)

/-- The thresholds of smaller scales lie below the numbers of 53 digits of a scale. -/
lemma midsum_lt (h : scale r < s) : midsum r < 2 ^ 53 * 2 ^ s := by
  have hsig := significand_lt r
  calc midsum r < 2 ^ 54 * 2 ^ scale r := by
        rw [midsum_eq]
        exact Nat.mul_lt_mul_of_pos_right (by omega) (Nat.two_pow_pos _)
    _ = 2 ^ 53 * 2 ^ (scale r + 1) := by ring
    _ ≤ 2 ^ 53 * 2 ^ s := Nat.mul_le_mul_left _ (Nat.pow_le_pow_right (by decide) h)

/-- The thresholds of greater scales lie above the numbers of 53 digits of a scale. -/
lemma lt_midsum (h : s < scale r) : 2 ^ 54 * 2 ^ s < midsum r := by
  have hsig := le_significand (r := r) (by omega)
  calc 2 ^ 54 * 2 ^ s = 2 ^ 53 * 2 ^ (s + 1) := by ring
    _ ≤ 2 ^ 53 * 2 ^ scale r := Nat.mul_le_mul_left _ (Nat.pow_le_pow_right (by decide) h)
    _ < midsum r := by
        rw [midsum_eq]
        exact Nat.mul_lt_mul_of_pos_right (by omega) (Nat.two_pow_pos _)

/-- The nearest rank is at most `r` unless the number lies above the middle between the magnitudes
of rank `r` and `r + 1`, or there and `r` is odd. -/
lemma nearestRank_le_iff (hden : 0 < den) :
    nearestRank num den ≤ r ↔
      2 * num < midsum r * den ∨ 2 * num = midsum r * den ∧ Even r := by
  -- With `s` the shift of the number, the nearest rank has the scale `s` and the significand `m`.
  obtain ⟨hlt, hnormal⟩ := shift_spec (num / den)
  obtain ⟨hle, hge⟩ := le_roundHalfEven_and_le num (den * 2 ^ ((num / den).log2 - 52))
  have hround := @roundHalfEven_le_iff num (den * 2 ^ ((num / den).log2 - 52)) (significand r)
    (Nat.mul_pos hden (Nat.two_pow_pos _))
  have hrank : nearestRank num den = ((num / den).log2 - 52) * 2 ^ 52 +
      roundHalfEven num (den * 2 ^ ((num / den).log2 - 52)) := rfl
  have hwhole : (num / den / 2 ^ ((num / den).log2 - 52)) * (den * 2 ^ ((num / den).log2 - 52)) ≤
      num := by
    rw [Nat.div_div_eq_div_mul]
    exact Nat.div_mul_le_self _ _
  have hnext : num < (num / den / 2 ^ ((num / den).log2 - 52) + 1) *
      (den * 2 ^ ((num / den).log2 - 52)) := by
    rw [Nat.div_div_eq_div_mul]
    exact Nat.lt_mul_of_div_lt (Nat.lt_succ_self _) (Nat.mul_pos hden (Nat.two_pow_pos _))
  rw [← Nat.div_div_eq_div_mul] at hle hge
  rw [hrank]
  generalize (num / den).log2 - 52 = s at *
  generalize num / den / 2 ^ s = whole at *
  generalize roundHalfEven num (den * 2 ^ s) = m at *
  have hr := scale_mul_add_significand r
  have hsig := significand_lt r
  rcases lt_trichotomy (scale r) s with hscale | rfl | hscale
  · have hfull := hnormal (by omega)
    have hmid : midsum r * den < 2 * num := by
      calc midsum r * den < 2 ^ 53 * 2 ^ s * den :=
            Nat.mul_lt_mul_of_pos_right (midsum_lt hscale) hden
        _ = 2 * (2 ^ 52 * (den * 2 ^ s)) := by ring
        _ ≤ 2 * (whole * (den * 2 ^ s)) := Nat.mul_le_mul_left _ (Nat.mul_le_mul_right _ hfull)
        _ ≤ 2 * num := Nat.mul_le_mul_left _ hwhole
    exact iff_of_false (by omega) (by omega)
  · have hmid : midsum r * den = (2 * significand r + 1) * (den * 2 ^ scale r) := by
      rw [midsum_eq]
      ring
    rw [hmid, even_iff_even_significand, ← hround]
    omega
  · have hmid : 2 * num < midsum r * den := by
      calc 2 * num < 2 * ((whole + 1) * (den * 2 ^ s)) := by omega
        _ ≤ 2 * (2 ^ 53 * (den * 2 ^ s)) :=
            Nat.mul_le_mul_left _ (Nat.mul_le_mul_right _ (by omega))
        _ = 2 ^ 54 * 2 ^ s * den := by ring
        _ ≤ midsum r * den := Nat.mul_le_mul_right _ (lt_midsum hscale).le
    have hfull := le_significand (r := r) (by omega)
    exact iff_of_true (by omega) (Or.inl hmid)

/-! ## The nearest rank of a rational number -/

/-- The rank of the magnitude nearest to a rational number of quanta; below zero it is zero. -/
def nearestTo (x : ℚ) : ℕ := nearestRank x.num.toNat x.den

/-- The thresholds of the nearest rank of a rational number. -/
lemma nearestTo_le_iff : nearestTo x ≤ r ↔ 2 * x < midsum r ∨ 2 * x = midsum r ∧ Even r := by
  have hden : (0 : ℚ) < x.den := mod_cast x.den_pos
  have hmid : 0 < midsum r := Nat.add_pos_right _ (quanta_strictMono (Nat.succ_pos r) |>.pos)
  rw [nearestTo, nearestRank_le_iff x.den_pos]
  rcases le_or_gt 0 x with hx | hx
  · have hnum : (x.num.toNat : ℚ) = x * x.den := by
      rw [Rat.mul_den_eq_num, ← Int.cast_natCast, Int.toNat_of_nonneg (Rat.num_nonneg.mpr hx)]
    rw [← Nat.cast_lt (α := ℚ), ← Nat.cast_inj (R := ℚ)]
    push_cast
    rw [hnum, ← mul_assoc, mul_lt_mul_iff_left₀ hden, mul_left_inj' hden.ne']
  · have hnum : x.num.toNat = 0 := Int.toNat_of_nonpos (Rat.num_nonpos.mpr hx.le)
    have hzero : (0 : ℚ) < midsum r := mod_cast hmid
    rw [hnum]
    exact iff_of_true (Or.inl (by simpa using ⟨hmid, x.den_pos⟩)) (Or.inl (by linarith))

/-- The thresholds from below. -/
lemma lt_nearestTo_iff : r < nearestTo x ↔ midsum r < 2 * x ∨ 2 * x = midsum r ∧ Odd r := by
  rw [← not_le, nearestTo_le_iff, not_lt_or_eq_and_iff, Nat.not_even_iff_odd]

/-- The nearest rank of a quotient of whole numbers. -/
lemma nearestRank_eq_nearestTo (hden : 0 < den) :
    nearestRank num den = nearestTo ((num : ℚ) / den) := by
  refine eq_of_forall_ge_iff fun r => ?_
  have : (0 : ℚ) < den := mod_cast hden
  rw [nearestRank_le_iff hden, nearestTo_le_iff, ← Nat.cast_lt (α := ℚ), ← Nat.cast_inj (R := ℚ),
    ← mul_div_assoc, div_lt_iff₀ this, div_eq_iff this.ne']
  push_cast
  rfl

/-- A greater number has no smaller nearest rank. -/
lemma nearestTo_mono : Monotone nearestTo := by
  intro x y hxy
  rw [nearestTo_le_iff]
  exact lt_or_eq_and_of_le (by linarith) (nearestTo_le_iff.mp (le_refl (nearestTo y)))

/-- A magnitude is nearest to itself. -/
lemma nearestTo_quanta (r : ℕ) : nearestTo (quanta r : ℚ) = r := by
  refine eq_of_forall_ge_iff fun k => ?_
  rw [nearestTo_le_iff]
  norm_cast
  rcases le_or_gt r k with hle | hlt
  · have : quanta r ≤ quanta k := quanta_strictMono.monotone hle
    have : quanta k < quanta (k + 1) := quanta_strictMono (Nat.lt_succ_self k)
    refine iff_of_true (Or.inl ?_) hle
    unfold midsum
    omega
  · have : quanta k < quanta r := quanta_strictMono hlt
    have : quanta (k + 1) ≤ quanta r := quanta_strictMono.monotone hlt
    refine iff_of_false ?_ (not_le.mpr hlt)
    unfold midsum
    omega

end Binary64

end PostfixCalculator
