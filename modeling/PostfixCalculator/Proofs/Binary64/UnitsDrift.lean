import PostfixCalculator.Proofs.Binary64.Rescaling

/-!
# Drifting units

A number that is rounded to decimal places is a count of units divided by a factor.  Rounding it
once more multiplies it with the factor and looks for the nearest unit.

If the product lies less than half a unit above the count, the same number is found again.  Below
`2 ^ 51` units this is always so, since the error is less than a quarter of a unit.  Up to `2 ^ 53`
the values are multiples of one half, so the product does not lie above the count, and a product up
to one unit below leads back to the count, because ties go to even numbers and the count is even
where they occur.  Beyond that adding one half changes nothing, and dividing the product gives the
same quotient.

If the product lies half a unit or more above the count, the count of units found is greater, and it
is too far away for its quotient to be the same.
-/

namespace PostfixCalculator

namespace Binary64

variable {F y : ℚ} {N : ℤ}

/-- A count of units that adding one half, rounding and taking the floor can have led to. -/
structure IsUnits (N : ℤ) : Prop where
  /-- It is a value. -/
  isValue : IsValue N
  /-- Where adding one half is a tie, it is even. -/
  even : 2 ^ 52 < |N| → Even N

/-- The nearest unit of a value is such a count. -/
lemma isUnits_toUnits (hy : IsValue y) : IsUnits (toUnits y) := ⟨isValue_toUnits y, even_toUnits hy⟩

/-- Rescaling takes a count of units up by one half or more, in the range where adding one half
counts at all. -/
def UnitsDrift (F : ℚ) (N : ℤ) : Prop := -2 ^ 53 ≤ N ∧ N < 2 ^ 53 ∧ N + 1 / 2 ≤ rescaled F N

/-! ## Where the same count is found -/

/-- Below `2 ^ 51` units rescaling does not go up by more than a quarter. -/
lemma rescaled_le_of_small (hF : IsFactor F) (hlow : -2 ^ 51 ≤ N) (hhigh : N < 2 ^ 51) :
    rescaled F N ≤ N + 1 / 4 := by
  have herror := abs_le.mp (hF.error_le_quarter (abs_le.mpr ⟨hlow, hhigh.le⟩))
  have hv : IsValue ((4 * N + 1 : ℤ) / 2 ^ 2) :=
    isValue_div_two_pow (abs_le.mpr ⟨by omega, by omega⟩) (by decide)
  push_cast at hv
  exact (hv.rounded_le (by linarith)).trans (by linarith)

/-- Up to `2 ^ 52` units rescaling does not go down by more than one half. -/
lemma le_rescaled (hF : IsFactor F) (hlow : -2 ^ 52 < N) (hhigh : N ≤ 2 ^ 52) :
    N - 1 / 2 ≤ rescaled F N := by
  have herror := abs_lt.mp (hF.error_lt_half (abs_le.mpr ⟨hlow.le, hhigh⟩))
  have hv : IsValue ((2 * N - 1 : ℤ) / 2 ^ 1) :=
    isValue_div_two_pow (abs_le.mpr ⟨by omega, by omega⟩) (by decide)
  push_cast at hv
  exact le_trans (by linarith) (hv.le_rounded (by linarith))

/-- Below `2 ^ 51` units the same count is found. -/
lemma toUnits_rescaled_of_small (hF : IsFactor F) (hlow : -2 ^ 51 ≤ N) (hhigh : N < 2 ^ 51) :
    toUnits (rescaled F N) = N :=
  le_antisymm (toUnits_le_of_le_quarter hlow hhigh (rescaled_le_of_small hF hlow hhigh))
    (le_toUnits (abs_le.mpr ⟨by omega, by omega⟩) (le_rescaled hF (by omega) (by omega)))

/-- From `2 ^ 51` on a value less than one half above an integer is not above it. -/
lemma le_of_lt_add_half (hy : IsValue y) (hN : 2 ^ 51 ≤ N ∨ N < -2 ^ 51) (h : y < N + 1 / 2) :
    y ≤ N := by
  by_contra hlt
  rw [not_le] at hlt
  have hlarge : 2 ^ 52 ≤ |y| * 2 ^ 1 := by
    rcases hN with hN | hN
    · have : (2 ^ 51 : ℚ) ≤ N := mod_cast hN
      linarith [le_abs_self y]
    · have : (N : ℚ) ≤ -2 ^ 51 - 1 := mod_cast (show N ≤ -2 ^ 51 - 1 by omega)
      linarith [neg_le_abs y]
  obtain ⟨z, hz⟩ := hy.exists_mul_eq (m := 1) (by decide) hlarge
  have h1 : (2 * N : ℚ) < z := by linarith
  have h2 : (z : ℚ) < 2 * N + 1 := by linarith
  norm_cast at h1 h2
  omega

/-- Up to `2 ^ 53` units the same count is found if rescaling does not go up. -/
lemma toUnits_rescaled_of_le (hF : IsFactor F) (hN : IsUnits N) (hlow : -2 ^ 53 < N)
    (hhigh : N ≤ 2 ^ 53) (h : rescaled F N ≤ N) : toUnits (rescaled F N) = N := by
  have hsame : toUnits N = N := toUnits_intCast (abs_le.mpr ⟨hlow.le, hhigh⟩) hN.even
  refine le_antisymm ((toUnits_mono h).trans_eq hsame) ?_
  by_cases hhalf : -2 ^ 52 < N ∧ N ≤ 2 ^ 52
  · exact le_toUnits (abs_le.mpr ⟨hlow.le, hhigh⟩) (le_rescaled hF hhalf.1 hhalf.2)
  · -- One unit below the count there is a tie, which goes to the count because it is even.
    have hmod : N % 2 = 0 := by
      by_cases hedge : N = -2 ^ 52
      · subst hedge
        rfl
      · exact Int.even_iff.mp (hN.even (lt_abs.mpr (by omega)))
    have htie : toUnits ((N - 1 : ℤ) : ℚ) = N := by
      rw [toUnits_intCast_of_tie (by omega)]
      omega
    have herror := abs_lt.mp (hF.error_lt_one (abs_le.mpr ⟨hlow.le, hhigh⟩))
    have hbelow : ((N - 1 : ℤ) : ℚ) ≤ rescaled F N := by
      refine (isValue_intCast (abs_le.mpr ⟨by omega, by omega⟩)).le_rounded ?_
      push_cast
      linarith
    exact htie.symm.trans_le (toUnits_mono hbelow)

/-- Where adding one half changes nothing, the same quotient is found. -/
lemma rounded_toUnits_div_of_large (hF : IsFactor F) (hN : IsUnits N)
    (hlarge : 2 ^ 53 ≤ |rescaled F N|) :
    rounded (toUnits (rescaled F N) / F) = rounded (N / F) := by
  rw [toUnits_of_large (isValue_rescaled F N) hlarge, hF.rounded_rescaled_div hN.isValue]

/-- From `2 ^ 53` units on rescaling leads to values as large, unless the count is `2 ^ 53` and goes
down. -/
lemma rescaled_of_large (hF : IsFactor F) (hN : IsUnits N) (hlarge : 2 ^ 53 ≤ N ∨ N < -2 ^ 53) :
    2 ^ 53 ≤ |rescaled F N| ∨ N = 2 ^ 53 ∧ rescaled F N ≤ N := by
  have heven : N % 2 = 0 := Int.even_iff.mp (hN.even (lt_abs.mpr (by omega)))
  have herror : (2 ^ 53 + 1) * |rounded (N / F) * F - N| ≤ |(N : ℚ)| := by
    have : (2 ^ 53 : ℚ) ≤ |N| := mod_cast le_abs.mpr (hlarge.imp_right fun h => by omega)
    rw [Int.cast_abs] at this
    rcases hF.error N with h | h <;> linarith
  have hcases : N = 2 ^ 53 ∨ 2 ^ 53 + 2 ≤ N ∨ N ≤ -2 ^ 53 - 2 := by omega
  rcases hcases with rfl | hpos | hneg
  · have hcast : (((2 ^ 53 : ℤ) : ℚ)) = 2 ^ 53 := by norm_cast
    rw [hcast]
    exact (le_total _ _).imp (fun h => h.trans (le_abs_self _)) fun h => ⟨rfl, h⟩
  · have hpos : (2 ^ 53 + 2 : ℚ) ≤ N := mod_cast hpos
    rw [abs_of_nonneg (show (0 : ℚ) ≤ N by linarith)] at herror
    have hprod : ((2 ^ 53 : ℤ) : ℚ) ≤ rounded (N / F) * F := by
      push_cast
      linarith [neg_abs_le (rounded (N / F) * F - N)]
    have := (isValue_intCast (by decide)).le_rounded hprod
    push_cast at this
    exact Or.inl (this.trans (le_abs_self _))
  · have hneg : (N : ℚ) ≤ -2 ^ 53 - 2 := mod_cast hneg
    rw [abs_of_nonpos (show (N : ℚ) ≤ 0 by linarith)] at herror
    have hprod : rounded (N / F) * F ≤ ((-2 ^ 53 : ℤ) : ℚ) := by
      push_cast
      linarith [le_abs_self (rounded (N / F) * F - N)]
    have := (isValue_intCast (by decide)).rounded_le hprod
    push_cast at this
    exact Or.inl ((le_neg_of_le_neg this).trans (neg_le_abs _))

/-- Without a drift the same quotient is found. -/
lemma rounded_toUnits_div_of_not_drifts (hF : IsFactor F) (hN : IsUnits N) (h : ¬ UnitsDrift F N) :
    rounded (toUnits (rescaled F N) / F) = rounded (N / F) := by
  rcases le_or_gt (2 ^ 53) |rescaled F N| with hlarge | hsmall
  · exact rounded_toUnits_div_of_large hF hN hlarge
  suffices hsame : toUnits (rescaled F N) = N by rw [hsame]
  by_cases hrange : -2 ^ 53 ≤ N ∧ N < 2 ^ 53
  · have hlt : rescaled F N < N + 1 / 2 := by
      by_contra hge
      exact h ⟨hrange.1, hrange.2, not_lt.mp hge⟩
    by_cases hexact : -2 ^ 51 ≤ N ∧ N < 2 ^ 51
    · exact toUnits_rescaled_of_small hF hexact.1 hexact.2
    · have hle := le_of_lt_add_half (isValue_rescaled F N) (by omega) hlt
      refine toUnits_rescaled_of_le hF hN (hrange.1.lt_of_ne ?_) hrange.2.le hle
      intro hedge
      have : (N : ℚ) = -2 ^ 53 := mod_cast hedge.symm
      linarith [(abs_lt.mp hsmall).1]
  · obtain ⟨rfl, hle⟩ := (rescaled_of_large hF hN (by omega)).resolve_left (not_le.mpr hsmall)
    exact toUnits_rescaled_of_le hF hN (by decide) le_rfl hle

/-! ## Where another count is found -/

/-- With a drift the count of units found is greater by one or two. -/
lemma toUnits_rescaled_of_drifts (hF : IsFactor F) (hN : IsUnits N) (h : UnitsDrift F N) :
    N + 1 ≤ toUnits (rescaled F N) ∧ toUnits (rescaled F N) ≤ N + 2 ∧ N + 2 ≤ 2 ^ 53 := by
  obtain ⟨hlow, hhigh, hup⟩ := h
  have hroom : N + 2 ≤ 2 ^ 53 := by
    by_contra hlt
    have := Int.even_iff.mp (hN.even (lt_abs.mpr (by omega)))
    omega
  refine ⟨le_toUnits (abs_le.mpr ⟨by omega, by omega⟩) (by push_cast; linarith), ?_, hroom⟩
  have herror := abs_lt.mp (hF.error_lt_one (abs_le.mpr ⟨hlow, hhigh.le⟩))
  have hsucc : rescaled F N ≤ ((N + 1 : ℤ) : ℚ) := by
    refine (isValue_intCast (abs_le.mpr ⟨by omega, by omega⟩)).rounded_le ?_
    push_cast
    linarith
  push_cast at hsucc
  have hv : IsValue ((N + 2 : ℤ) : ℚ) := isValue_intCast (abs_le.mpr ⟨by omega, hroom⟩)
  exact toUnits_le_of_isValue hv (by push_cast; linarith) (by push_cast; linarith)

/-- With a drift another quotient is found: two counts with the same quotient are too near to each
other. -/
lemma rounded_toUnits_div_ne_of_drifts (hF : IsFactor F) (hN : IsUnits N) (h : UnitsDrift F N) :
    rounded (toUnits (rescaled F N) / F) ≠ rounded (N / F) := by
  intro heq
  obtain ⟨hup, htwo, hroom⟩ := toUnits_rescaled_of_drifts hF hN h
  have hfound : IsUnits (toUnits (rescaled F N)) := isUnits_toUnits (isValue_rescaled F N)
  have hlow := h.1
  generalize toUnits (rescaled F N) = M at *
  have hM := abs_lt.mp (hF.error_lt_one (N := M) (abs_le.mpr ⟨by omega, by omega⟩))
  have hN' := abs_lt.mp (hF.error_lt_one (N := N) (abs_le.mpr ⟨hlow, by omega⟩))
  rw [heq] at hM
  have hone : M = N + 1 := by
    have : (M : ℚ) < N + 2 := by linarith
    norm_cast at this
    omega
  by_cases hhalf : |N| ≤ 2 ^ 52 ∧ |M| ≤ 2 ^ 52
  · have hM := abs_lt.mp (hF.error_lt_half hhalf.2)
    have hN' := abs_lt.mp (hF.error_lt_half hhalf.1)
    rw [heq] at hM
    have : (M : ℚ) < N + 1 := by linarith
    norm_cast at this
    omega
  · -- One of two consecutive counts beyond `2 ^ 52` is odd.
    have hevenN := fun h => Int.even_iff.mp (hN.even (lt_abs.mpr h))
    have hevenM := fun h => Int.even_iff.mp (hfound.even (lt_abs.mpr h))
    rw [abs_le, abs_le] at hhalf
    omega

/-- The same quotient is found exactly if the units do not drift. -/
lemma rounded_toUnits_div_eq_iff (hF : IsFactor F) (hN : IsUnits N) :
    rounded (toUnits (rescaled F N) / F) = rounded (N / F) ↔ ¬ UnitsDrift F N :=
  ⟨fun heq h => rounded_toUnits_div_ne_of_drifts hF hN h heq,
    rounded_toUnits_div_of_not_drifts hF hN⟩

/-- Fewer than `2 ^ 51` units do not drift. -/
lemma UnitsDrift.le_abs (hF : IsFactor F) (h : UnitsDrift F N) : 2 ^ 51 ≤ |N| := by
  by_contra hlt
  have hsmall := abs_lt.mp (not_le.mp hlt)
  linarith [h.2.2, rescaled_le_of_small hF hsmall.1.le hsmall.2]

end Binary64

end PostfixCalculator
