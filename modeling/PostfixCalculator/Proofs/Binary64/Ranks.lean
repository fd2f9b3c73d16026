import Mathlib.Algebra.Order.Monoid.NatCast
import Mathlib.Algebra.Ring.Parity
import Mathlib.Order.Monotone.Basic
import Mathlib.Tactic.Lemma
import Mathlib.Tactic.Linarith
import Mathlib.Tactic.Ring
import PostfixCalculator.Binary64.Nearest

/-!
# Ranks and magnitudes

The magnitudes increase with their ranks, from one rank to the next by a step that is a power of two
and never gets smaller.  The step grows only at a power of two, and there the magnitude below is
half as far away as the one above.

Two facts say which whole numbers of quanta are magnitudes.  A number of at most 53 binary digits is
one, however far it is scaled up, and a magnitude from `2 ^ (52 + s)` on is scaled by `2 ^ s` at
least.
-/

namespace PostfixCalculator

namespace Binary64

variable {r n s : ℕ}

/-! ## Significand and scale -/

/-- A rank is put together from its scale and its significand. -/
lemma scale_mul_add_significand (r : ℕ) : scale r * 2 ^ 52 + significand r = r := by
  unfold significand scale
  simp only [Nat.pow_eq]
  omega

/-- A significand has at most 53 binary digits. -/
lemma significand_lt (r : ℕ) : significand r < 2 ^ 53 := by
  unfold significand scale
  simp only [Nat.pow_eq]
  omega

/-- The significand of a scaled magnitude has all 53 digits. -/
lemma le_significand (h : 0 < scale r) : 2 ^ 52 ≤ significand r := by
  unfold significand scale at *
  simp only [Nat.pow_eq] at *
  omega

/-- A magnitude is its significand, scaled. -/
lemma quanta_eq (r : ℕ) : quanta r = significand r * 2 ^ scale r := rfl

/-- The rank with a given scale and significand.  The significand may reach `2 ^ 53`, where the next
power of two begins. -/
lemma quanta_scaled (hnormal : 0 < s → 2 ^ 52 ≤ n) (hn : n ≤ 2 ^ 53) :
    quanta (s * 2 ^ 52 + n) = n * 2 ^ s := by
  rcases hn.lt_or_eq with hlt | rfl
  · have hscale : scale (s * 2 ^ 52 + n) = s := by
      unfold scale
      simp only [Nat.pow_eq]
      omega
    have := scale_mul_add_significand (s * 2 ^ 52 + n)
    rw [hscale] at this
    rw [quanta_eq, hscale, Nat.add_left_cancel this]
  · have hscale : scale (s * 2 ^ 52 + 2 ^ 53) = s + 1 := by
      unfold scale
      simp only [Nat.pow_eq]
      omega
    have hsignificand : significand (s * 2 ^ 52 + 2 ^ 53) = 2 ^ 52 := by
      have := scale_mul_add_significand (s * 2 ^ 52 + 2 ^ 53)
      rw [hscale] at this
      omega
    rw [quanta_eq, hscale, hsignificand]
    ring

/-- A rank is even if its significand is. -/
lemma even_iff_even_significand : Even r ↔ Even (significand r) := by
  have h := scale_mul_add_significand r
  rw [Nat.even_iff, Nat.even_iff]
  omega

/-! ## The step to the next magnitude -/

/-- The next magnitude is one step away, and the step is `2 ^ scale`. -/
lemma quanta_succ (r : ℕ) : quanta (r + 1) = quanta r + 2 ^ scale r := by
  have hr : r + 1 = scale r * 2 ^ 52 + (significand r + 1) := by
    rw [← Nat.add_assoc, scale_mul_add_significand]
  rw [hr, quanta_scaled (fun h => Nat.le_succ_of_le (le_significand h)) (significand_lt r),
    quanta_eq, Nat.add_one_mul]

/-- A greater rank is that of a greater magnitude. -/
lemma quanta_strictMono : StrictMono quanta :=
  strictMono_nat_of_lt_succ fun r => by
    rw [quanta_succ]
    exact Nat.lt_add_of_pos_right (Nat.two_pow_pos _)

/-- The step either stays the same or it grows at a power of two, where the significand is the least
one of a scaled magnitude. -/
lemma scale_succ_eq_or (r : ℕ) :
    scale (r + 1) = scale r ∨ 0 < scale (r + 1) ∧ significand (r + 1) = 2 ^ 52 := by
  unfold significand scale
  simp only [Nat.pow_eq]
  omega

/-! ## Which numbers are magnitudes -/

/-- A number of at most 53 binary digits is a magnitude, however far it is scaled up. -/
lemma exists_quanta_eq (hn : n ≤ 2 ^ 53) (s : ℕ) : ∃ r, quanta r = n * 2 ^ s := by
  induction s generalizing n with
  | zero => exact ⟨n, by simpa using quanta_scaled (s := 0) (by simp) hn⟩
  | succ s ih =>
    by_cases hnormal : 2 ^ 52 ≤ n
    · exact ⟨(s + 1) * 2 ^ 52 + n, quanta_scaled (fun _ => hnormal) hn⟩
    · obtain ⟨r, hr⟩ := ih (n := 2 * n) (by omega)
      exact ⟨r, hr.trans (by ring)⟩

/-- A magnitude is scaled by `2 ^ s` at least if it is at least `2 ^ (52 + s)`. -/
lemma le_scale (h : 2 ^ (52 + s) ≤ quanta r) : s ≤ scale r := by
  by_contra hlt
  refine absurd h (not_le.mpr ?_)
  calc quanta r < 2 ^ 53 * 2 ^ scale r :=
        Nat.mul_lt_mul_of_pos_right (significand_lt r) (Nat.two_pow_pos _)
    _ = 2 ^ (53 + scale r) := (pow_add ..).symm
    _ ≤ 2 ^ (52 + s) := Nat.pow_le_pow_right (by decide) (by omega)

/-- A magnitude is either counted in single quanta up to the next or it has all 53 digits. -/
lemma scale_eq_zero_or_le (r : ℕ) : scale r = 0 ∨ 2 ^ (52 + scale r) ≤ quanta r := by
  refine (Nat.eq_zero_or_pos (scale r)).imp_right fun hpos => ?_
  rw [quanta_eq, pow_add]
  exact Nat.mul_le_mul_right _ (le_significand hpos)

end Binary64

end PostfixCalculator
