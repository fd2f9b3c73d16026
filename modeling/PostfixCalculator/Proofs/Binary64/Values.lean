import Mathlib.Algebra.Order.Ring.Int
import PostfixCalculator.Proofs.Binary64.Rounding

/-!
# Values in units

Arithmetic is about units, of which every one has `2 ^ 1074` quanta.  A value is a signed magnitude
counted in units, and a rational number is rounded to the nearest value.

Of the values the integers up to `2 ^ 53`, their halves and their quarters matter here, and where
the values are no finer than they: from `2 ^ 51` on every value is a multiple of one half, from
`2 ^ 52` on an integer, and from `2 ^ 53` on an even one.  Between `2 ^ 52` and `2 ^ 53` a half
behind the point is a tie, and it goes to the even neighbour.
-/

namespace PostfixCalculator

namespace Binary64

variable {m n s : ℕ} {z : ℤ} {x y v : ℚ}

/-! ## Values -/

/-- A unit is a power of two in quanta. -/
lemma quantaPerUnit_eq : quantaPerUnit = 2 ^ 1074 := by decide +kernel

/-- There are quanta in a unit. -/
lemma quantaPerUnit_pos : (0 : ℚ) < quantaPerUnit := by
  rw [quantaPerUnit_eq, Nat.cast_pow]
  positivity

/-- The magnitude of one. -/
lemma quanta_one : quanta 0x3FF0000000000000 = quantaPerUnit := by
  have hscale : scale 0x3FF0000000000000 = 1022 := by decide
  have hsignificand : significand 0x3FF0000000000000 = 2 ^ 52 := by decide
  rw [quanta_eq, hscale, hsignificand, ← pow_add, quantaPerUnit_eq]

/-- The signed magnitudes in units.  There is no greatest one. -/
def IsValue (v : ℚ) : Prop := ∃ k : ℤ, v * quantaPerUnit = level k

/-- Zero is a value. -/
lemma isValue_zero : IsValue 0 := ⟨0, by rw [zero_mul, level_zero, Int.cast_zero]⟩

/-- A number of at most 53 binary digits is a value, however far it is scaled up from quanta. -/
lemma isValue_of_scaled (hz : |z| ≤ 2 ^ 53) (hv : v * quantaPerUnit = z * 2 ^ s) : IsValue v := by
  obtain ⟨r, hr⟩ := exists_quanta_eq (n := z.natAbs) (by rw [Int.abs_eq_natAbs] at hz; omega) s
  rcases Int.natAbs_eq z with h | h
  · refine ⟨r, ?_⟩
    rw [hv, level_natCast, hr, h, Int.natAbs_natCast]
    push_cast
    rfl
  · refine ⟨-r, ?_⟩
    rw [hv, level_neg, level_natCast, hr, h, Int.natAbs_neg, Int.natAbs_natCast]
    push_cast
    ring

/-- An integer of at most 53 binary digits is a value, and so is one divided by a power of two. -/
lemma isValue_div_two_pow (hz : |z| ≤ 2 ^ 53) (hm : m ≤ 1074) : IsValue (z / 2 ^ m) := by
  refine isValue_of_scaled (s := 1074 - m) hz ?_
  have hsplit : (2 ^ 1074 : ℚ) = 2 ^ (1074 - m) * 2 ^ m := by
    rw [← pow_add, Nat.sub_add_cancel hm]
  rw [quantaPerUnit_eq, Nat.cast_pow, Nat.cast_ofNat, hsplit]
  field_simp

/-- An integer of at most 53 binary digits is a value. -/
lemma isValue_intCast (hz : |z| ≤ 2 ^ 53) : IsValue z := by
  simpa using isValue_div_two_pow (m := 0) hz (Nat.zero_le _)

/-- A value that is great enough is scaled up from 53 binary digits. -/
lemma IsValue.exists_scaled (h : IsValue v) (hle : 2 ^ (52 + s) ≤ |v| * quantaPerUnit) :
    ∃ z : ℤ, ∃ t, s ≤ t ∧ |z| ≤ 2 ^ 53 ∧ v * quantaPerUnit = z * 2 ^ t := by
  obtain ⟨k, hk⟩ := h
  rw [← abs_of_pos quantaPerUnit_pos, ← abs_mul, hk] at hle
  obtain ⟨r, rfl | rfl⟩ := Int.eq_nat_or_neg k
  · rw [level_natCast, Int.cast_natCast, Nat.abs_cast] at hle
    refine ⟨significand r, scale r, le_scale (by exact_mod_cast hle), ?_, ?_⟩
    · exact_mod_cast (significand_lt r).le
    · rw [hk, level_natCast, quanta_eq]
      push_cast
      rfl
  · rw [level_neg, level_natCast, Int.cast_neg, abs_neg, Int.cast_natCast, Nat.abs_cast] at hle
    refine ⟨-significand r, scale r, le_scale (by exact_mod_cast hle), ?_, ?_⟩
    · rw [abs_neg]
      exact_mod_cast (significand_lt r).le
    · rw [hk, level_neg, level_natCast, quanta_eq]
      push_cast
      ring

/-- A value that is great enough is a multiple of a power of two in quanta. -/
lemma IsValue.exists_mul_two_pow (h : IsValue v) (hle : 2 ^ (52 + s) ≤ |v| * quantaPerUnit) :
    ∃ z : ℤ, v * quantaPerUnit = z * 2 ^ s := by
  obtain ⟨z, t, hst, -, hz⟩ := h.exists_scaled hle
  refine ⟨z * 2 ^ (t - s), ?_⟩
  rw [hz, ← Nat.sub_add_cancel hst, pow_add, Nat.add_sub_cancel]
  push_cast
  ring

/-- From `2 ^ (52 - m)` on, a value is an integer divided by `2 ^ m`. -/
lemma IsValue.exists_mul_eq (h : IsValue v) (hm : m ≤ 1074) (hle : 2 ^ 52 ≤ |v| * 2 ^ m) :
    ∃ z : ℤ, v * 2 ^ m = z := by
  have hsplit : (quantaPerUnit : ℚ) = 2 ^ m * 2 ^ (1074 - m) := by
    rw [quantaPerUnit_eq, Nat.cast_pow, Nat.cast_ofNat, ← pow_add, Nat.add_sub_cancel' hm]
  have hpos : (0 : ℚ) < 2 ^ (1074 - m) := by positivity
  obtain ⟨z, hz⟩ := h.exists_mul_two_pow (s := 1074 - m) (by
    rw [hsplit, ← mul_assoc, pow_add]
    exact mul_le_mul_of_nonneg_right hle hpos.le)
  exact ⟨z, mul_right_cancel₀ hpos.ne' (by rw [mul_assoc, ← hsplit, hz])⟩

/-- From `2 ^ 52` on, a value is an integer. -/
lemma IsValue.exists_intCast_eq (h : IsValue v) (hle : 2 ^ 52 ≤ |v|) : ∃ z : ℤ, v = z := by
  simpa using h.exists_mul_eq (m := 0) (Nat.zero_le _) (by simpa using hle)

/-- From `2 ^ 53` on, a value is an even integer. -/
lemma IsValue.exists_two_mul_eq (h : IsValue v) (hle : 2 ^ 53 ≤ |v|) : ∃ z : ℤ, v = 2 * z := by
  have hsplit : (2 ^ (1074 + 1) : ℚ) = 2 * quantaPerUnit := by
    rw [quantaPerUnit_eq, Nat.cast_pow, Nat.cast_ofNat, pow_succ, mul_comm]
  obtain ⟨z, hz⟩ := h.exists_mul_two_pow (s := 1074 + 1) (by
    rw [pow_add, hsplit, ← mul_assoc]
    exact mul_le_mul_of_nonneg_right (by linarith) quantaPerUnit_pos.le)
  refine ⟨z, mul_right_cancel₀ quantaPerUnit_pos.ne' ?_⟩
  rw [hz, hsplit]
  ring

/-! ## The nearest value -/

/-- The value nearest to a rational number. -/
def rounded (x : ℚ) : ℚ := level (nearestLevel (x * quantaPerUnit)) / quantaPerUnit

/-- The nearest value in quanta. -/
lemma rounded_mul_quantaPerUnit (x : ℚ) :
    rounded x * quantaPerUnit = level (nearestLevel (x * quantaPerUnit)) :=
  div_mul_cancel₀ _ quantaPerUnit_pos.ne'

/-- What is rounded is a value. -/
lemma isValue_rounded (x : ℚ) : IsValue (rounded x) := ⟨_, rounded_mul_quantaPerUnit x⟩

/-- A number is rounded to a value if the signed magnitude is the nearest. -/
lemma rounded_eq_of_nearestLevel {k : ℤ} (h : nearestLevel (x * quantaPerUnit) = k)
    (hv : v * quantaPerUnit = level k) : rounded x = v := by
  rw [rounded, h, ← hv, mul_div_cancel_right₀ _ quantaPerUnit_pos.ne']

/-- A value is its own rounding. -/
lemma IsValue.rounded_eq (h : IsValue v) : rounded v = v := by
  obtain ⟨k, hk⟩ := h
  exact rounded_eq_of_nearestLevel (by rw [hk, nearestLevel_level]) hk

/-- Rounding is monotone. -/
lemma rounded_mono : Monotone rounded := by
  intro x y hxy
  refine div_le_div_of_nonneg_right ?_ quantaPerUnit_pos.le
  exact_mod_cast level_strictMono.monotone
    (nearestLevel_mono (mul_le_mul_of_nonneg_right hxy quantaPerUnit_pos.le))

/-- Rounding does not pass a value from below. -/
lemma IsValue.rounded_le (h : IsValue v) (hx : x ≤ v) : rounded x ≤ v :=
  (rounded_mono hx).trans_eq h.rounded_eq

/-- Rounding does not pass a value from above. -/
lemma IsValue.le_rounded (h : IsValue v) (hx : v ≤ x) : v ≤ rounded x :=
  h.rounded_eq.symm.trans_le (rounded_mono hx)

/-- Rounding turns with the sign. -/
lemma rounded_neg (x : ℚ) : rounded (-x) = -rounded x := by
  rw [rounded, rounded, neg_mul, nearestLevel_neg, level_neg, Int.cast_neg, neg_div]

/-- No value is nearer. -/
lemma IsValue.abs_rounded_sub_le (h : IsValue v) (x : ℚ) : |rounded x - x| ≤ |v - x| := by
  obtain ⟨k, hk⟩ := h
  refine le_of_mul_le_mul_right ?_ quantaPerUnit_pos
  have hscale : ∀ y : ℚ, |y - x| * quantaPerUnit = |y * quantaPerUnit - x * quantaPerUnit| := by
    intro y
    rw [← sub_mul, abs_mul, abs_of_pos quantaPerUnit_pos]
  rw [hscale, hscale, hk, rounded_mul_quantaPerUnit]
  exact abs_level_nearestLevel_sub_le _ _

/-- The error of rounding is at most half a quantum, or it is small against the number. -/
lemma rounded_error (x : ℚ) :
    2 * quantaPerUnit * |rounded x - x| ≤ 1 ∨ (2 ^ 53 + 1) * |rounded x - x| ≤ |x| := by
  wlog hx : 0 ≤ x generalizing x
  · have hneg := this (-x) (by linarith)
    rw [rounded_neg, ← neg_sub', abs_neg, abs_neg] at hneg
    exact hneg
  have hquanta : 0 ≤ x * quantaPerUnit := mul_nonneg hx quantaPerUnit_pos.le
  have hdist : |rounded x - x| * quantaPerUnit =
      |(quanta (nearestTo (x * quantaPerUnit)) : ℚ) - x * quantaPerUnit| := by
    rw [← abs_of_pos quantaPerUnit_pos, ← abs_mul, abs_of_pos quantaPerUnit_pos, sub_mul,
      rounded_mul_quantaPerUnit, nearestLevel, if_pos hquanta, level_natCast, Int.cast_natCast]
  rcases nearestTo_error hquanta with h | h
  · left
    rw [← hdist] at h
    linarith
  · right
    rw [← hdist] at h
    refine le_of_mul_le_mul_right ?_ quantaPerUnit_pos
    rw [abs_of_nonneg hx]
    linarith

/-! ## Ties -/

/-- Between `2 ^ 52` and `2 ^ 53` a half behind the point goes to the even neighbour. -/
lemma rounded_add_half (hlow : 2 ^ 52 ≤ n) (hhigh : n < 2 ^ 53) :
    rounded (n + 1 / 2) = ((n + n % 2 : ℕ) : ℚ) := by
  have hlevel : ∀ i, 2 ^ 52 ≤ i → i ≤ 2 ^ 53 →
      ((i : ℕ) : ℚ) * quantaPerUnit = level ((1074 * 2 ^ 52 + i : ℕ) : ℤ) := by
    intro i hi hi'
    rw [level_natCast, quanta_scaled (fun _ => hi) hi', ← quantaPerUnit_eq, Int.cast_natCast,
      Nat.cast_mul]
  have hmiddle : 2 * ((n + 1 / 2) * (quantaPerUnit : ℚ)) =
      level ((1074 * 2 ^ 52 + n : ℕ) : ℤ) + level (((1074 * 2 ^ 52 + n : ℕ) : ℤ) + 1) := by
    rw [← Nat.cast_succ, ← Nat.add_succ, ← hlevel n hlow hhigh.le,
      ← hlevel (n + 1) (by omega) hhigh]
    push_cast
    ring
  have hplace : ((1074 * 2 ^ 52 + n : ℕ) : ℤ) + ((1074 * 2 ^ 52 + n : ℕ) : ℤ) % 2 =
      ((1074 * 2 ^ 52 + (n + n % 2) : ℕ) : ℤ) := by omega
  exact rounded_eq_of_nearestLevel ((nearestLevel_of_middle hmiddle).trans hplace)
    (hlevel (n + n % 2) (by omega) (by omega))

end Binary64

end PostfixCalculator
