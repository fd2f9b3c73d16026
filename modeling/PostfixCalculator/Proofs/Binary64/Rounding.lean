import Mathlib.Algebra.Order.Field.Rat
import Mathlib.Algebra.Order.Ring.Abs
import Mathlib.Data.Int.ConditionallyCompleteOrder
import Mathlib.Order.Interval.Set.Basic
import Mathlib.Tactic.FieldSimp
import PostfixCalculator.Proofs.Binary64.Nearest

/-!
# Rounding rational numbers

Signed magnitudes are counted by the integers, zero once, in increasing order.  Rounding takes a
rational number to the nearest one of them.  It has the thresholds of the nearest rank, on the
negative side as well, so nearly everything about it follows by comparing a number with thresholds:
that it is monotone, that nothing is nearer, and when two numbers are rounded alike.

There is no greatest number here.  Where arithmetic does not overflow it agrees with this rounding,
and where it does it is not finite.
-/

namespace PostfixCalculator

namespace Binary64

variable {k j : ℤ} {x y : ℚ}

/-! ## Signed magnitudes -/

/-- The signed magnitudes in quanta, in increasing order, with zero at zero. -/
def level (k : ℤ) : ℤ := k.sign * quanta k.natAbs

@[simp] lemma level_natCast (r : ℕ) : level r = quanta r := by
  rcases Nat.eq_zero_or_pos r with rfl | hr
  · simp [level]
  · simp [level, Int.sign_eq_one_of_pos (Int.natCast_pos.mpr hr)]

@[simp] lemma level_neg (k : ℤ) : level (-k) = -level k := by
  simp [level]

@[simp] lemma level_zero : level 0 = 0 := by
  simp [level]

/-- Signed magnitudes are in increasing order. -/
lemma level_strictMono : StrictMono level := by
  refine strictMono_int_of_lt_succ fun k => ?_
  rcases lt_or_ge k 0 with hk | hk
  · obtain ⟨r, rfl⟩ : ∃ r : ℕ, k = -(r + 1 : ℕ) := ⟨(-k - 1).toNat, by omega⟩
    have hsucc : -((r + 1 : ℕ) : ℤ) + 1 = -(r : ℤ) := by push_cast; ring
    rw [hsucc, level_neg, level_neg, level_natCast, level_natCast, neg_lt_neg_iff]
    exact_mod_cast quanta_strictMono (Nat.lt_succ_self r)
  · obtain ⟨r, rfl⟩ := Int.eq_ofNat_of_zero_le hk
    rw [← Nat.cast_succ, level_natCast, level_natCast]
    exact_mod_cast quanta_strictMono (Nat.lt_succ_self r)

/-- The magnitude below is as far away as the one above, or half as far at a power of two. -/
lemma level_gaps (k : ℤ) :
    level (k + 1) - level k = level k - level (k - 1) ∨
      ∃ s, 0 < s ∧ |level k| = 2 ^ (52 + s) := by
  wlog hk : 0 ≤ k generalizing k
  · have hneg := this (-k) (by omega)
    rw [show -k + 1 = -(k - 1) by ring, show -k - 1 = -(k + 1) by ring] at hneg
    simp only [level_neg, abs_neg] at hneg
    exact hneg.imp_left fun h => by linarith
  rcases hk.eq_or_lt with rfl | hpos
  · exact Or.inl (by rw [show (0 : ℤ) - 1 = -(0 + 1) by rfl, level_neg, level_zero]; ring)
  obtain ⟨r, rfl⟩ : ∃ r : ℕ, k = (r + 1 : ℕ) := ⟨(k - 1).toNat, by omega⟩
  have hpred : ((r + 1 : ℕ) : ℤ) - 1 = r := by push_cast; ring
  rw [hpred, ← Nat.cast_succ, level_natCast, level_natCast, level_natCast]
  rcases scale_succ_eq_or r with hscale | ⟨hpos, hsignificand⟩
  · left
    have hbelow := quanta_succ r
    have habove := quanta_succ (r + 1)
    rw [hscale] at habove
    push_cast [Nat.succ_eq_add_one, habove, hbelow]
    ring
  · right
    refine ⟨scale (r + 1), hpos, ?_⟩
    rw [quanta_eq, hsignificand, Nat.abs_cast, pow_add]
    push_cast
    rfl

/-! ## The nearest signed magnitude -/

/-- The place of the signed magnitude nearest to a rational number of quanta. -/
def nearestLevel (x : ℚ) : ℤ := if 0 ≤ x then nearestTo x else -nearestTo (-x)

/-- The thresholds of the nearest signed magnitude. -/
lemma nearestLevel_le_iff :
    nearestLevel x ≤ k ↔ 2 * x < level k + level (k + 1) ∨
      2 * x = level k + level (k + 1) ∧ Even k := by
  unfold nearestLevel
  rcases le_or_gt 0 x with hx | hx
  · rw [if_pos hx]
    rcases lt_or_ge k 0 with hk | hk
    · have hlevel : level k + level (k + 1) < 0 := by
        have := level_strictMono hk
        have := level_strictMono.monotone (show k + 1 ≤ 0 by omega)
        rw [level_zero] at *
        omega
      have : (level k + level (k + 1) : ℚ) < 0 := mod_cast hlevel
      exact iff_of_false (by omega) (by rintro (h | ⟨h, -⟩) <;> linarith)
    · obtain ⟨r, rfl⟩ := Int.eq_ofNat_of_zero_le hk
      rw [Nat.cast_le, nearestTo_le_iff, ← Nat.cast_succ, level_natCast, level_natCast,
        Int.even_coe_nat, midsum]
      push_cast
      rfl
  · rw [if_neg (not_le.mpr hx)]
    rcases lt_or_ge k 0 with hk | hk
    · obtain ⟨r, rfl⟩ : ∃ r : ℕ, k = -(r + 1 : ℕ) := ⟨(-k - 1).toNat, by omega⟩
      have hsucc : -((r + 1 : ℕ) : ℤ) + 1 = -(r : ℤ) := by push_cast; ring
      have hodd : Even (-((r + 1 : ℕ) : ℤ)) ↔ Odd r := by
        rw [even_neg, Int.even_coe_nat, Nat.even_add_one, Nat.not_even_iff_odd]
      rw [neg_le_neg_iff, Nat.cast_le, Nat.succ_le_iff, lt_nearestTo_iff, hsucc, hodd, level_neg,
        level_neg, level_natCast, level_natCast, midsum]
      push_cast
      constructor
      · rintro (h | ⟨h, hr⟩)
        · exact Or.inl (by linarith)
        · exact Or.inr ⟨by linarith, hr⟩
      · rintro (h | ⟨h, hr⟩)
        · exact Or.inl (by linarith)
        · exact Or.inr ⟨by linarith, hr⟩
    · have hlevel : 0 < level k + level (k + 1) := by
        have := level_strictMono.monotone hk
        have := level_strictMono (show 0 < k + 1 by omega)
        rw [level_zero] at *
        omega
      have : (0 : ℚ) < level k + level (k + 1) := mod_cast hlevel
      exact iff_of_true (by omega) (Or.inl (by linarith))

/-- The thresholds from below. -/
lemma lt_nearestLevel_iff :
    k < nearestLevel x ↔ level k + level (k + 1) < 2 * x ∨
      2 * x = level k + level (k + 1) ∧ Odd k := by
  rw [← not_le, nearestLevel_le_iff, not_lt_or_eq_and_iff, Int.not_even_iff_odd]

/-- Rounding turns with the sign. -/
lemma nearestLevel_neg (x : ℚ) : nearestLevel (-x) = -nearestLevel x := by
  have hzero : nearestTo 0 = 0 := by simpa using nearestTo_quanta 0
  unfold nearestLevel
  rcases lt_trichotomy x 0 with hx | rfl | hx
  · rw [if_pos (by linarith), if_neg (by linarith), Int.neg_neg]
  · simp [hzero]
  · rw [if_neg (by linarith), if_pos hx.le, Rat.neg_neg]

/-- A greater number has no smaller nearest magnitude. -/
lemma nearestLevel_mono : Monotone nearestLevel := by
  intro x y hxy
  rw [nearestLevel_le_iff]
  exact lt_or_eq_and_of_le (by linarith) (nearestLevel_le_iff.mp (le_refl (nearestLevel y)))

/-- A signed magnitude is nearest to itself. -/
lemma nearestLevel_level (k : ℤ) : nearestLevel (level k) = k := by
  obtain ⟨r, rfl | rfl⟩ := Int.eq_nat_or_neg k
  · rw [level_natCast, Int.cast_natCast, nearestLevel, if_pos (Nat.cast_nonneg _), nearestTo_quanta]
  · rw [level_neg, level_natCast, Int.cast_neg, Int.cast_natCast, nearestLevel_neg, nearestLevel,
      if_pos (Nat.cast_nonneg _), nearestTo_quanta]

/-- In the middle between two signed magnitudes the one of even place counts as the nearest. -/
lemma nearestLevel_of_middle (h : 2 * x = level k + level (k + 1)) :
    nearestLevel x = k + k % 2 := by
  refine eq_of_forall_ge_iff fun j => ?_
  rw [nearestLevel_le_iff, h]
  rcases lt_trichotomy j k with hj | rfl | hj
  · have hlt : level j + level (j + 1) < level k + level (k + 1) :=
      add_lt_add (level_strictMono hj) (level_strictMono (by omega))
    have hlt : (level j + level (j + 1) : ℚ) < level k + level (k + 1) := mod_cast hlt
    refine iff_of_false ?_ (by omega)
    rintro (h' | ⟨h', -⟩) <;> linarith
  · rw [Int.even_iff]
    constructor
    · rintro (h' | ⟨-, heven⟩)
      · exact absurd h' (lt_irrefl _)
      · omega
    · exact fun hle => Or.inr ⟨rfl, by omega⟩
  · have hlt : level k + level (k + 1) < level j + level (j + 1) :=
      add_lt_add (level_strictMono hj) (level_strictMono (by omega))
    have hlt : (level k + level (k + 1) : ℚ) < level j + level (j + 1) := mod_cast hlt
    exact iff_of_true (Or.inl hlt) (by omega)

/-- No signed magnitude is nearer. -/
lemma abs_level_nearestLevel_sub_le (x : ℚ) (j : ℤ) :
    |(level (nearestLevel x) : ℚ) - x| ≤ |(level j : ℚ) - x| := by
  have hhigh := nearestLevel_le_iff.mp (le_refl (nearestLevel x))
  have hlow := lt_nearestLevel_iff.mp (show nearestLevel x - 1 < nearestLevel x by omega)
  rw [sub_add_cancel] at hlow
  generalize nearestLevel x = k at *
  rcases lt_trichotomy j k with hlt | rfl | hgt
  · have hj : (level j : ℚ) ≤ level (k - 1) := mod_cast level_strictMono.monotone (by omega)
    have hk : (level (k - 1) : ℚ) < level k := mod_cast level_strictMono (by omega)
    have : (level (k - 1) + level k : ℚ) ≤ 2 * x := by
      rcases hlow with h | ⟨h, -⟩ <;> linarith
    rw [abs_le]
    have : |(level j : ℚ) - x| = x - level j := by rw [abs_sub_comm, abs_of_nonneg (by linarith)]
    rw [this]
    constructor <;> linarith
  · exact le_rfl
  · have hj : (level (k + 1) : ℚ) ≤ level j := mod_cast level_strictMono.monotone (by omega)
    have hk : (level k : ℚ) < level (k + 1) := mod_cast level_strictMono (by omega)
    have : 2 * x ≤ level k + level (k + 1) := by
      rcases hhigh with h | ⟨h, -⟩ <;> linarith
    rw [abs_le, abs_of_nonneg (show (0 : ℚ) ≤ level j - x by linarith)]
    constructor <;> linarith

/-- Where the magnitudes on both sides are equally far away, a number that is not farther from the
nearest one than another number is rounded alike. -/
lemma nearestLevel_eq_of_abs_le
    (hgaps : level (nearestLevel x + 1) - level (nearestLevel x) =
      level (nearestLevel x) - level (nearestLevel x - 1))
    (h : |y - level (nearestLevel x)| ≤ |x - level (nearestLevel x)|) :
    nearestLevel y = nearestLevel x := by
  have hhigh := nearestLevel_le_iff.mp (le_refl (nearestLevel x))
  have hlow := lt_nearestLevel_iff.mp (show nearestLevel x - 1 < nearestLevel x by omega)
  rw [sub_add_cancel] at hlow
  generalize nearestLevel x = k at *
  have hgap : (level (k + 1) - level k : ℚ) = level k - level (k - 1) := mod_cast hgaps
  have hodd : Odd (k - 1) ↔ Even k := by
    rw [← Int.not_even_iff_odd, Int.even_sub_one, not_not]
  rw [hodd] at hlow
  -- Both numbers lie within half the gap, and at its ends only if the place is even.
  have hx : 2 * |x - level k| < level (k + 1) - level k ∨
      2 * |x - level k| = level (k + 1) - level k ∧ Even k := by
    rcases abs_cases (x - level k) with ⟨habs, -⟩ | ⟨habs, -⟩ <;> rw [habs]
    · rcases hhigh with hlt | ⟨heq, heven⟩
      · exact Or.inl (by linarith)
      · exact Or.inr ⟨by linarith, heven⟩
    · rcases hlow with hlt | ⟨heq, heven⟩
      · exact Or.inl (by linarith)
      · exact Or.inr ⟨by linarith, heven⟩
  have habove := le_abs_self (y - level k)
  have hbelow := neg_abs_le (y - level k)
  refine le_antisymm ?_ ?_
  · rw [nearestLevel_le_iff]
    have hy := lt_or_eq_and_of_le (show 2 * (y - level k) ≤ 2 * |x - level k| by linarith) hx
    exact hy.imp (fun h => by linarith) fun h => ⟨by linarith [h.1], h.2⟩
  · rw [← Int.sub_one_lt_iff, lt_nearestLevel_iff, sub_add_cancel, hodd]
    have hy := lt_or_eq_and_of_le (show 2 * (level k - y) ≤ 2 * |x - level k| by linarith) hx
    exact hy.imp (fun h => by linarith) fun h => ⟨by linarith [h.1], h.2⟩

/-! ## The error of rounding -/

/-- Below a number of quanta there is a magnitude such that the error of rounding is at most half
the step there and at most the distance from it. -/
lemma exists_quanta_le (hx : 0 ≤ x) :
    ∃ p, quanta p ≤ x ∧ 2 * |(quanta (nearestTo x) : ℚ) - x| ≤ 2 ^ scale p ∧
      |(quanta (nearestTo x) : ℚ) - x| ≤ x - quanta p := by
  rcases le_or_gt (quanta (nearestTo x) : ℚ) x with hle | hgt
  · have hhigh := nearestTo_le_iff.mp (le_refl (nearestTo x))
    have hmid : 2 * x ≤ midsum (nearestTo x) := by
      rcases hhigh with h | ⟨h, -⟩ <;> linarith
    rw [midsum, quanta_succ] at hmid
    push_cast at hmid
    refine ⟨nearestTo x, hle, ?_, ?_⟩ <;> rw [abs_sub_comm, abs_of_nonneg (by linarith)]
    linarith
  · obtain ⟨p, hp⟩ : ∃ p, nearestTo x = p + 1 := by
      refine Nat.exists_eq_add_one.mpr (Nat.pos_of_ne_zero fun hzero => ?_)
      rw [hzero, quanta_zero, Nat.cast_zero] at hgt
      exact absurd hx (not_le.mpr hgt)
    have hlow := lt_nearestTo_iff.mp (show p < nearestTo x by omega)
    have hmid : (midsum p : ℚ) ≤ 2 * x := by
      rcases hlow with h | ⟨h, -⟩ <;> linarith
    rw [hp] at hgt ⊢
    have hstep : (quanta (p + 1) : ℚ) = quanta p + 2 ^ scale p := by
      rw [quanta_succ]
      push_cast
      rfl
    have hpos : (0 : ℚ) < 2 ^ scale p := by positivity
    rw [midsum] at hmid
    push_cast at hmid
    rw [abs_of_pos (by linarith)]
    exact ⟨p, by linarith, by linarith, by linarith⟩

/-- The error of rounding is at most half a quantum, or it is small against the number. -/
lemma nearestTo_error (hx : 0 ≤ x) :
    2 * |(quanta (nearestTo x) : ℚ) - x| ≤ 1 ∨
      (2 ^ 53 + 1) * |(quanta (nearestTo x) : ℚ) - x| ≤ x := by
  obtain ⟨p, hp, hhalf, hdist⟩ := exists_quanta_le hx
  rcases scale_eq_zero_or_le p with hzero | hle
  · rw [hzero, pow_zero] at hhalf
    exact Or.inl hhalf
  · right
    have hle : (2 ^ (52 + scale p) : ℚ) ≤ quanta p := mod_cast hle
    rw [pow_add] at hle
    have : 2 ^ 53 * |(quanta (nearestTo x) : ℚ) - x| ≤ quanta p := by linarith
    linarith

end Binary64

end PostfixCalculator
