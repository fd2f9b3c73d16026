import Mathlib.Algebra.Order.Floor.Ring
import Mathlib.Data.Rat.Floor
import PostfixCalculator.Proofs.Binary64.Values

/-!
# The nearest unit

The nearest unit of a value is found by adding one half, rounding the sum to a value, and taking the
floor.  Where the sum is a value itself, halves go up.  From `2 ^ 52` on the sum is a tie between
two integers and rounding goes to the even one, so an odd integer is taken to the next, and from
`2 ^ 53` on the half is lost.

Hence a count of units beyond `2 ^ 52` that was found in this way is even.
-/

namespace PostfixCalculator

namespace Binary64

variable {y : ℚ} {z : ℤ}

/-- The nearest unit of a value, as adding one half and taking the floor finds it. -/
def toUnits (y : ℚ) : ℤ := ⌊rounded (y + 1 / 2)⌋

/-! ## Halves that are not rounded -/

/-- A greater value has no smaller nearest unit. -/
lemma toUnits_mono : Monotone toUnits := fun _ _ h =>
  Int.floor_mono (rounded_mono (add_le_add_left h _))

/-- Halves go up. -/
lemma le_toUnits (hz : |z| ≤ 2 ^ 53) (h : z - 1 / 2 ≤ y) : z ≤ toUnits y :=
  Int.le_floor.mpr ((isValue_intCast hz).le_rounded (by linarith))

/-- A value with a sum below the next integer, with a value between them, does not go up. -/
lemma toUnits_le_of_isValue {v : ℚ} (hv : IsValue v) (hlt : v < z + 1) (h : y + 1 / 2 ≤ v) :
    toUnits y ≤ z := by
  rw [← Int.lt_add_one_iff, toUnits, Int.floor_lt]
  push_cast
  exact (hv.rounded_le h).trans_lt hlt

/-- Up to a quarter above an integer below `2 ^ 51` nothing goes up. -/
lemma toUnits_le_of_le_quarter (hlow : -2 ^ 51 ≤ z) (hhigh : z < 2 ^ 51) (h : y ≤ z + 1 / 4) :
    toUnits y ≤ z := by
  have hv : IsValue ((4 * z + 3 : ℤ) / 2 ^ 2) :=
    isValue_div_two_pow (abs_le.mpr ⟨by omega, by omega⟩) (by decide)
  push_cast at hv
  exact toUnits_le_of_isValue hv (by linarith) (by linarith)

/-! ## Ties -/

/-- Beyond `2 ^ 52` a half above an integer is a tie, and the even neighbour is taken. -/
lemma rounded_intCast_add_half
    (hz : 2 ^ 52 ≤ z ∧ z < 2 ^ 53 ∨ -2 ^ 53 ≤ z ∧ z < -2 ^ 52) :
    rounded (z + 1 / 2) = ((z + z % 2 : ℤ) : ℚ) := by
  rcases hz with ⟨hlow, hhigh⟩ | ⟨hlow, hhigh⟩
  · obtain ⟨n, rfl⟩ := Int.eq_ofNat_of_zero_le (show 0 ≤ z by omega)
    rw [Int.cast_natCast, rounded_add_half (by omega) (by omega)]
    push_cast
    rfl
  · obtain ⟨n, rfl⟩ : ∃ n : ℕ, z = -(n + 1 : ℤ) := ⟨(-z - 1).toNat, by omega⟩
    have hneg : ((-(n + 1 : ℤ) : ℤ) : ℚ) + 1 / 2 = -(n + 1 / 2) := by
      push_cast
      ring
    have heven : -(n + 1 : ℤ) + -(n + 1 : ℤ) % 2 = -((n + n % 2 : ℕ) : ℤ) := by omega
    rw [hneg, rounded_neg, rounded_add_half (by omega) (by omega), heven, Int.cast_neg,
      Int.cast_natCast]

/-- Beyond `2 ^ 52` the even one of an integer and the next is taken. -/
lemma toUnits_intCast_of_tie
    (hz : 2 ^ 52 ≤ z ∧ z < 2 ^ 53 ∨ -2 ^ 53 ≤ z ∧ z < -2 ^ 52) :
    toUnits z = z + z % 2 := by
  rw [toUnits, rounded_intCast_add_half hz, Int.floor_intCast]

/-- From `2 ^ 53` on the half is lost. -/
lemma rounded_add_half_of_large (hy : IsValue y) (hlarge : 2 ^ 53 ≤ |y|) :
    rounded (y + 1 / 2) = y := by
  obtain ⟨z, rfl⟩ := hy.exists_two_mul_eq hlarge
  have hnear := abs_le.mp (hy.abs_rounded_sub_le (2 * z + 1 / 2))
  rw [sub_add_cancel_left, abs_neg, abs_of_pos (by norm_num : (0 : ℚ) < 1 / 2)] at hnear
  -- The nearest value lies in `[2 * z, 2 * z + 1]`, where there is no other even integer.
  have hother : ∀ z' : ℤ, rounded (2 * z + 1 / 2) = 2 * z' → rounded (2 * z + 1 / 2) = 2 * z := by
    intro z' hz'
    rw [hz'] at hnear ⊢
    have hlow : (2 * z : ℚ) ≤ 2 * z' := by linarith
    have hhigh : (2 * z' : ℚ) ≤ 2 * z + 1 := by linarith
    norm_cast at hlow hhigh ⊢
    omega
  have hcases : 2 ^ 53 ≤ 2 * z ∨ 2 * z = -2 ^ 53 ∨ 2 * z ≤ -2 ^ 53 - 2 := by
    have hlarge : (2 ^ 53 : ℤ) ≤ |2 * z| := mod_cast hlarge
    rw [le_abs] at hlarge
    omega
  rcases hcases with hpos | hedge | hneg
  · have hpos : (2 ^ 53 : ℚ) ≤ 2 * z := mod_cast hpos
    obtain ⟨z', hz'⟩ := (isValue_rounded (2 * z + 1 / 2)).exists_two_mul_eq
      (le_abs.mpr (Or.inl (by linarith)))
    exact hother z' hz'
  · have hcast : (2 * z : ℚ) = ((-2 ^ 53 : ℤ) : ℚ) := mod_cast hedge
    rw [hcast, rounded_intCast_add_half (Or.inr ⟨by omega, by omega⟩)]
    rfl
  · have hneg : (2 * z : ℚ) ≤ -2 ^ 53 - 2 := mod_cast hneg
    obtain ⟨z', hz'⟩ := (isValue_rounded (2 * z + 1 / 2)).exists_two_mul_eq
      (le_abs.mpr (Or.inr (by linarith)))
    exact hother z' hz'

/-- From `2 ^ 53` on the nearest unit of a value is the value. -/
lemma toUnits_of_large (hy : IsValue y) (hlarge : 2 ^ 53 ≤ |y|) : (toUnits y : ℚ) = y := by
  obtain ⟨z, hz⟩ := hy.exists_two_mul_eq hlarge
  have hcast : y = ((2 * z : ℤ) : ℚ) := by rw [hz, Int.cast_mul, Int.cast_ofNat]
  rw [toUnits, rounded_add_half_of_large hy hlarge, hcast, Int.floor_intCast]

/-! ## What a count of units can be -/

/-- An integer up to `2 ^ 52` is its own nearest unit, and so is an even one up to `2 ^ 53`. -/
lemma toUnits_intCast (hz : |z| ≤ 2 ^ 53) (heven : 2 ^ 52 < |z| → Even z) : toUnits z = z := by
  have hbounds := abs_le.mp hz
  refine le_antisymm ?_ (le_toUnits hz (by linarith))
  rcases le_or_gt (2 ^ 53) z with hedge | hlt
  · have : |((z : ℤ) : ℚ)| = z := abs_of_nonneg (mod_cast (show 0 ≤ z by omega))
    have := toUnits_of_large (isValue_intCast hz) (by rw [this]; exact_mod_cast hedge)
    exact (Int.cast_injective this).le
  by_cases htie : 2 ^ 52 ≤ z ∨ z < -2 ^ 52
  · have hmod : z % 2 = 0 := by
      by_cases hexact : z = 2 ^ 52
      · subst hexact
        rfl
      · exact Int.even_iff.mp (heven (lt_abs.mpr (by omega)))
    rw [toUnits_intCast_of_tie (by omega), hmod, add_zero]
  · have hv : IsValue ((2 * z + 1 : ℤ) / 2 ^ 1) :=
      isValue_div_two_pow (abs_le.mpr ⟨by omega, by omega⟩) (by decide)
    push_cast at hv
    exact toUnits_le_of_isValue hv (by linarith) (by linarith)

/-- Up to `2 ^ 52` the nearest unit does not get beyond it. -/
lemma abs_toUnits_le (h : |y| ≤ 2 ^ 52) : |toUnits y| ≤ 2 ^ 52 := by
  obtain ⟨hlow, hhigh⟩ := abs_le.mp h
  have hbelow : toUnits ((-2 ^ 52 : ℤ) : ℚ) = -2 ^ 52 := toUnits_intCast (by decide) (by decide)
  have habove : toUnits ((2 ^ 52 : ℤ) : ℚ) = 2 ^ 52 := toUnits_intCast (by decide) (by decide)
  refine abs_le.mpr ⟨hbelow.symm.trans_le (toUnits_mono ?_), (toUnits_mono ?_).trans_eq habove⟩ <;>
    push_cast <;> assumption

/-- The nearest unit of a value is even beyond `2 ^ 52`. -/
lemma even_toUnits (hy : IsValue y) (h : 2 ^ 52 < |toUnits y|) : Even (toUnits y) := by
  rcases le_or_gt |y| (2 ^ 52) with hsmall | hmiddle
  · exact absurd h (not_lt.mpr (abs_toUnits_le hsmall))
  rcases le_or_gt (2 ^ 53) |y| with hlarge | hlt
  · obtain ⟨z, hz⟩ := hy.exists_two_mul_eq hlarge
    have hunits := (toUnits_of_large hy hlarge).trans hz
    norm_cast at hunits
    exact ⟨z, hunits.trans (two_mul z)⟩
  · obtain ⟨z, rfl⟩ := hy.exists_intCast_eq hmiddle.le
    have hlt : |z| < 2 ^ 53 := mod_cast hlt
    have hmiddle : 2 ^ 52 < |z| := mod_cast hmiddle
    rw [abs_lt] at hlt
    rw [lt_abs] at hmiddle
    rw [toUnits_intCast_of_tie (by omega), Int.even_iff]
    omega

/-- The floor of a value is a value. -/
lemma IsValue.floor (hy : IsValue y) : IsValue ⌊y⌋ := by
  rcases lt_or_ge |y| (2 ^ 52) with hsmall | hlarge
  · obtain ⟨hlow, hhigh⟩ := abs_lt.mp hsmall
    have h1 : -2 ^ 52 ≤ ⌊y⌋ := Int.le_floor.mpr (by push_cast; exact hlow.le)
    have h2 : ⌊y⌋ < 2 ^ 52 := Int.floor_lt.mpr (by push_cast; exact hhigh)
    exact isValue_intCast (abs_le.mpr ⟨by omega, by omega⟩)
  · obtain ⟨z, rfl⟩ := hy.exists_intCast_eq hlarge
    rwa [Int.floor_intCast]

/-- The nearest unit of a value is a value. -/
lemma isValue_toUnits (y : ℚ) : IsValue (toUnits y) := (isValue_rounded _).floor

end Binary64

end PostfixCalculator
