import Mathlib.Tactic.LinearCombination
import PostfixCalculator.Binary64.Places
import PostfixCalculator.Proofs.Binary64.Units

/-!
# The values of arithmetic

A finite number has a value, and two finite numbers of the same value are the same, unless one of
them is negative zero.  A sum, a product and a quotient have the exact result rounded for their
value whenever they are finite, and the floor of a number has the floor of its value.

Finite results are certain where the magnitude cannot get past the greatest one: for the sum with
one half, the floor, and a quotient by a number that is not less than one.
-/

namespace PostfixCalculator

namespace Binary64

variable {x y : Binary64} {s t negative : Bool} {num den : ℕ} {a b rank : Fin infinityRank}

/-! ## The value of a number -/

/-- The sign of a number as a factor. -/
def signFactor (negative : Bool) : ℚ := if negative then -1 else 1

/-- The value of a finite number.  It is not to be used of others. -/
def toRat : Binary64 → ℚ
  | finite negative rank => signFactor negative * quanta rank / quantaPerUnit
  | _ => 0

/-- Signs are multiplied where they are compared. -/
lemma signFactor_bne (s t : Bool) : signFactor (s != t) = signFactor s * signFactor t := by
  cases s <;> cases t <;> simp [signFactor]

/-- Signed quanta as a product. -/
lemma signedQuanta_eq (s : Bool) (r : ℕ) : (signedQuanta s r : ℚ) = signFactor s * quanta r := by
  cases s <;> simp [signedQuanta, signFactor]

/-- The signed magnitude of a number in quanta. -/
lemma signFactor_mul_quanta (s : Bool) (r : ℕ) :
    signFactor s * quanta r = level (if s then -r else r) := by
  cases s <;> simp [signFactor]

/-- The value of a finite number in quanta. -/
lemma toRat_mul_quantaPerUnit :
    (finite negative rank).toRat * quantaPerUnit = signFactor negative * quanta rank :=
  div_mul_cancel₀ _ quantaPerUnit_pos.ne'

/-- The value of a number is a value. -/
lemma isValue_toRat (x : Binary64) : IsValue x.toRat := by
  cases x with
  | nan => exact isValue_zero
  | infinity negative => exact isValue_zero
  | finite negative rank => exact ⟨_, by rw [toRat_mul_quantaPerUnit, signFactor_mul_quanta]⟩

/-- What is finite has a sign and a rank. -/
lemma exists_eq_finite (h : x.isFinite) : ∃ negative rank, x = finite negative rank := by
  cases x with
  | nan => exact absurd h (by decide)
  | infinity negative => exact absurd h (by simp [isFinite])
  | finite negative rank => exact ⟨negative, rank, rfl⟩

/-- A finite number is zero if its rank is. -/
lemma toRat_eq_zero_iff : (finite negative rank).toRat = 0 ↔ (rank : ℕ) = 0 := by
  have hsign : signFactor negative ≠ 0 := by cases negative <;> simp [signFactor]
  have hquanta : (quanta rank : ℚ) = 0 ↔ (rank : ℕ) = 0 := by
    rw [Nat.cast_eq_zero]
    exact ⟨fun h => quanta_strictMono.injective (h.trans quanta_zero.symm),
      fun h => (congrArg quanta h).trans quanta_zero⟩
  rw [toRat, div_eq_zero_iff, or_iff_left quantaPerUnit_pos.ne', mul_eq_zero, or_iff_right hsign,
    hquanta]

/-- Finite numbers of the same value are the same, unless one of them is negative zero. -/
lemma eq_of_toRat_eq (hx : x.isFinite) (hy : y.isFinite) (hx0 : x ≠ finite true 0)
    (hy0 : y ≠ finite true 0) (h : x.toRat = y.toRat) : x = y := by
  obtain ⟨s, a, rfl⟩ := exists_eq_finite hx
  obtain ⟨t, b, rfl⟩ := exists_eq_finite hy
  have hlevel :
      level (if s then -(a : ℕ) else (a : ℕ)) = level (if t then -(b : ℕ) else (b : ℕ)) := by
    have := congrArg (· * (quantaPerUnit : ℚ)) h
    simp only [toRat_mul_quantaPerUnit, signFactor_mul_quanta] at this
    exact_mod_cast this
  have hplace := level_strictMono.injective hlevel
  cases s <;> cases t
  · simp only [Bool.false_eq_true, if_false, Nat.cast_inj, Fin.val_inj] at hplace
    rw [hplace]
  · refine absurd ?_ hy0
    simp only [Bool.false_eq_true, if_false, if_true] at hplace
    exact congrArg _ (Fin.ext (by rw [Fin.val_zero]; omega))
  · refine absurd ?_ hx0
    simp only [Bool.false_eq_true, if_false, if_true] at hplace
    exact congrArg _ (Fin.ext (by rw [Fin.val_zero]; omega))
  · simp only [if_true, neg_inj, Nat.cast_inj, Fin.val_inj] at hplace
    rw [hplace]

/-! ## The nearest number -/

/-- The nearest number is finite if the nearest rank is that of a finite magnitude. -/
lemma isFinite_nearest_iff (hden : 0 < den) :
    (nearest negative num den).isFinite ↔ nearestTo (num / den) < infinityRank := by
  rw [nearest, ofRank, nearestRank_eq_nearestTo hden]
  split <;> simp_all [isFinite]

/-- The nearest number has the nearest value. -/
lemma toRat_nearest (hden : 0 < den) (h : (nearest negative num den).isFinite) :
    (nearest negative num den).toRat =
      rounded (signFactor negative * (num / den) / quantaPerUnit) := by
  have hrank := (isFinite_nearest_iff hden).mp h
  have hnearest : nearestLevel (num / den) = nearestTo (num / den) :=
    if_pos (div_nonneg (Nat.cast_nonneg _) (Nat.cast_nonneg _))
  rw [nearest, nearestRank_eq_nearestTo hden, ofRank_of_lt _ hrank]
  refine (rounded_eq_of_nearestLevel
    (k := if negative then -(nearestTo (num / den) : ℤ) else nearestTo (num / den)) ?_ ?_).symm
  · rw [div_mul_cancel₀ _ quantaPerUnit_pos.ne']
    cases negative
    · simpa [signFactor] using hnearest
    · simpa [signFactor, nearestLevel_neg] using hnearest
  · rw [toRat_mul_quantaPerUnit, signFactor_mul_quanta]

/-- A quotient of numbers of quanta that is not above a finite magnitude has a finite nearest
number. -/
lemma isFinite_nearest_of_le (hden : 0 < den) (h : num ≤ quanta rank * den) :
    (nearest negative num den).isFinite := by
  rw [isFinite_nearest_iff hden]
  refine lt_of_le_of_lt ?_ rank.isLt
  have hle : (num / den : ℚ) ≤ quanta rank := by
    rw [div_le_iff₀ (by exact_mod_cast hden)]
    exact_mod_cast h
  exact (nearestTo_mono hle).trans_eq (nearestTo_quanta _)

/-! ## Sums -/

/-- A finite sum has the exact sum rounded for its value. -/
lemma toRat_add (hx : x.isFinite) (hy : y.isFinite) (h : (x.add y).isFinite) :
    (x.add y).toRat = rounded (x.toRat + y.toRat) := by
  obtain ⟨s, a, rfl⟩ := exists_eq_finite hx
  obtain ⟨t, b, rfl⟩ := exists_eq_finite hy
  have hsum : (finite s a).toRat + (finite t b).toRat =
      (signedQuanta s a + signedQuanta t b : ℤ) / quantaPerUnit := by
    rw [toRat, toRat, ← add_div, Int.cast_add, signedQuanta_eq, signedQuanta_eq]
  rw [hsum]
  unfold add at h ⊢
  dsimp only at h ⊢
  rw [toRat_nearest one_pos h]
  generalize signedQuanta s a + signedQuanta t b = sum
  refine congrArg (fun v => rounded (v / quantaPerUnit)) ?_
  rcases lt_trichotomy sum 0 with hneg | rfl | hpos
  · have habs : ((sum.natAbs : ℕ) : ℚ) = -sum := by
      rw [← Int.cast_natCast, Int.natCast_natAbs, abs_of_neg hneg, Int.cast_neg]
    simp [signFactor, hneg, hneg.ne, habs]
  · simp
  · have habs : ((sum.natAbs : ℕ) : ℚ) = sum := by
      rw [← Int.cast_natCast, Int.natCast_natAbs, abs_of_pos hpos]
    simp [signFactor, hpos.not_gt, hpos.ne', habs]

/-- Positive zero adds nothing, except to negative zero. -/
lemma add_positiveZero (hx : x ≠ finite true 0) : x.add (finite false 0) = x := by
  cases x with
  | nan => rfl
  | infinity s => rfl
  | finite s a =>
    have hrank : nearestRank (quanta a) 1 = a := by
      rw [nearestRank_eq_nearestTo one_pos, Nat.cast_one, div_one, nearestTo_quanta]
    have hsum :
        signedQuanta s a + signedQuanta false (0 : Fin infinityRank) = signedQuanta s a := by
      simp [signedQuanta]
    have hquanta : (signedQuanta s a).natAbs = quanta a := by cases s <;> simp [signedQuanta]
    have hsign :
        (if signedQuanta s a = 0 then s && false else decide (signedQuanta s a < 0)) = s := by
      cases s with
      | false => simp [signedQuanta]
      | true =>
        have ha : quanta a ≠ 0 := fun h =>
          hx (congrArg _ (Fin.ext (quanta_strictMono.injective (h.trans quanta_zero.symm))))
        simp [signedQuanta, ha, Nat.pos_of_ne_zero ha]
    rw [add, hsum, hquanta, hsign, nearest, hrank, ofRank_val]

/-! ## Products -/

/-- Only finite numbers have a finite product. -/
lemma isFinite_of_mul (h : (x.mul y).isFinite) : x.isFinite ∧ y.isFinite := by
  cases x with
  | nan => exact absurd h (by simp [mul, isFinite])
  | infinity s =>
    refine absurd h ?_
    cases y with
    | nan => simp [mul, isFinite]
    | infinity t => simp [mul, isFinite]
    | finite t b => by_cases hb : b = 0 <;> simp [mul, hb, isFinite]
  | finite s a =>
    cases y with
    | nan => exact absurd h (by simp [mul, isFinite])
    | infinity t =>
      refine absurd h ?_
      by_cases ha : a = 0 <;> simp [mul, ha, isFinite]
    | finite t b => exact ⟨rfl, rfl⟩

/-- A finite product has the exact product rounded for its value. -/
lemma toRat_mul (h : (x.mul y).isFinite) : (x.mul y).toRat = rounded (x.toRat * y.toRat) := by
  obtain ⟨hx, hy⟩ := isFinite_of_mul h
  obtain ⟨s, a, rfl⟩ := exists_eq_finite hx
  obtain ⟨t, b, rfl⟩ := exists_eq_finite hy
  rw [mul] at h ⊢
  rw [toRat_nearest (by exact_mod_cast quantaPerUnit_pos) h, signFactor_bne, toRat, toRat]
  refine congrArg rounded ?_
  rw [Nat.cast_mul]
  ring

/-! ## Quotients -/

/-- A finite quotient has the exact quotient rounded for its value. -/
lemma toRat_div (hx : x.isFinite) (hy : y.isFinite) (hy0 : y.toRat ≠ 0)
    (h : (x.div y).isFinite) : (x.div y).toRat = rounded (x.toRat / y.toRat) := by
  obtain ⟨s, a, rfl⟩ := exists_eq_finite hx
  obtain ⟨t, b, rfl⟩ := exists_eq_finite hy
  have hb : (b : ℕ) ≠ 0 := fun hb => hy0 (toRat_eq_zero_iff.mpr hb)
  have hb' : b ≠ 0 := fun h => hb (congrArg Fin.val h)
  have hquanta : 0 < quanta b :=
    quanta_zero.symm.trans_lt (quanta_strictMono (Nat.pos_of_ne_zero hb))
  rw [div, if_neg hb'] at h ⊢
  rw [toRat_nearest hquanta h, signFactor_bne, toRat, toRat]
  refine congrArg rounded ?_
  have hU := quantaPerUnit_pos.ne'
  have hq : (quanta b : ℚ) ≠ 0 := Nat.cast_ne_zero.mpr hquanta.ne'
  rw [Nat.cast_mul]
  generalize (quantaPerUnit : ℚ) = U at hU ⊢
  have ht : signFactor t * signFactor t = 1 := by cases t <;> simp [signFactor]
  have ht0 : signFactor t ≠ 0 := left_ne_zero_of_mul_eq_one ht
  field_simp
  linear_combination signFactor s * (quanta a : ℚ) * ht

/-- A quotient by a number that is not less than one is finite. -/
lemma isFinite_div (hone : quantaPerUnit ≤ quanta b) :
    ((finite s a).div (finite t b)).isFinite := by
  have hpos : 0 < quanta b := (Nat.cast_pos.mp quantaPerUnit_pos).trans_le hone
  have hb : b ≠ 0 := by
    rintro rfl
    exact absurd hpos (by simp)
  have hle : quanta a * quantaPerUnit ≤ quanta a * quanta b := Nat.mul_le_mul_left _ hone
  rw [div, if_neg hb]
  exact isFinite_nearest_of_le hpos hle

/-! ## One half and the floor -/

/-- The greatest finite rank. -/
def greatestRank : Fin infinityRank := ⟨infinityRank - 1, by decide⟩

/-- No finite magnitude is above that of the greatest rank. -/
lemma quanta_le_greatest (a : Fin infinityRank) : quanta a ≤ quanta greatestRank :=
  quanta_strictMono.monotone (Nat.le_sub_one_of_lt a.isLt)

/-- The greatest magnitude has 53 binary digits, all of them ones, and is scaled by `2 ^ 2045`. -/
lemma quanta_greatest : quanta greatestRank = (2 ^ 53 - 1) * 2 ^ scale greatestRank ∧
    scale greatestRank = 2045 := by
  have hsignificand : significand greatestRank = 2 ^ 53 - 1 := by decide
  have hscale : scale greatestRank = 2045 := by decide
  rw [quanta_eq, hsignificand]
  exact ⟨rfl, hscale⟩

/-- One half has half of the quanta of a unit. -/
lemma half_eq : ∃ rank, half = finite false rank ∧ 2 * quanta rank = quantaPerUnit := by
  have hquanta : 2 * quanta 0x3FE0000000000000 = quantaPerUnit := by
    have hscale : scale 0x3FE0000000000000 = 1021 := by decide
    have hsignificand : significand 0x3FE0000000000000 = 2 ^ 52 := by decide
    rw [quanta_eq, hscale, hsignificand, ← pow_add, ← pow_succ', quantaPerUnit_eq]
  refine ⟨⟨0x3FE0000000000000, by decide⟩, ?_, hquanta⟩
  have hhalf : (quantaPerUnit : ℚ) / (2 : ℕ) = quanta 0x3FE0000000000000 := by
    rw [div_eq_iff (by norm_num), ← hquanta]
    push_cast
    ring
  rw [half, nearest, nearestRank_eq_nearestTo two_pos, hhalf, nearestTo_quanta,
    ofRank_of_lt _ (by decide)]

/-- The value of one half. -/
lemma toRat_half : half.toRat = 1 / 2 := by
  obtain ⟨rank, hhalf, hquanta⟩ := half_eq
  have hcast : (quantaPerUnit : ℚ) = 2 * quanta rank := mod_cast hquanta.symm
  have hpos := quantaPerUnit_pos
  rw [hcast] at hpos
  rw [hhalf, toRat, hcast, signFactor, if_neg Bool.false_ne_true, one_mul,
    div_eq_div_iff hpos.ne' two_ne_zero]
  ring

/-- The sum with one half is finite: half a unit is less than half the step at the greatest
magnitude. -/
lemma isFinite_add_half (hx : x.isFinite) : (x.add half).isFinite := by
  obtain ⟨s, a, rfl⟩ := exists_eq_finite hx
  obtain ⟨rank, hhalf, hquanta⟩ := half_eq
  have hstep : quantaPerUnit < 2 ^ scale greatestRank := by
    rw [quanta_greatest.2, quantaPerUnit_eq, Nat.pow_lt_pow_iff_right (by decide)]
    decide
  have hgreatest := quanta_le_greatest a
  rw [hhalf, add]
  rw [isFinite_nearest_iff one_pos, ← nearestRank_eq_nearestTo one_pos]
  refine lt_of_le_of_lt ?_ greatestRank.isLt
  rw [nearestRank_le_iff one_pos, midsum, quanta_succ]
  left
  have hsum : (signedQuanta s a + signedQuanta false rank).natAbs ≤ quanta a + quanta rank := by
    cases s
    · simp [signedQuanta]
      omega
    · simp [signedQuanta]
      omega
  omega

/-- Nothing but zero is rounded to zero quanta. -/
lemma eq_zero_of_nearest (h : nearest negative num 1 = finite true 0) :
    negative = true ∧ num = 0 := by
  rw [nearest, ofRank] at h
  split at h
  · obtain ⟨rfl, hrank⟩ := finite.inj h
    have hzero : nearestRank num 1 ≤ 0 := (congrArg Fin.val hrank).le
    rw [nearestRank_le_iff one_pos] at hzero
    have hmid : midsum 0 = 1 := by decide
    rw [hmid] at hzero
    exact ⟨rfl, by omega⟩
  · exact absurd h (by simp)

/-- The sum with one half is not negative zero. -/
lemma add_half_ne (hx : x.isFinite) : x.add half ≠ finite true 0 := by
  obtain ⟨s, a, rfl⟩ := exists_eq_finite hx
  obtain ⟨rank, hhalf, -⟩ := half_eq
  rw [hhalf, add]
  intro h
  obtain ⟨hsign, hsum⟩ := eq_zero_of_nearest h
  rw [if_pos (Int.natAbs_eq_zero.mp hsum), Bool.and_false] at hsign
  exact Bool.false_ne_true hsign

/-- The magnitude of a floor as a count of units: the magnitude's whole part, or for a negative
number the next greater whole number. -/
def floorUnits (negative : Bool) (quanta : ℕ) : ℕ :=
  (quanta + if negative then quantaPerUnit - 1 else 0) / quantaPerUnit

/-- The floor of a finite number. -/
lemma floor_eq (negative : Bool) (rank : Fin infinityRank) :
    (finite negative rank).floor =
      nearest negative (floorUnits negative (quanta rank) * quantaPerUnit) 1 := rfl

/-- The floor of a finite number is finite, because the greatest magnitude is a whole number of
units. -/
lemma isFinite_floor (hx : x.isFinite) : x.floor.isFinite := by
  obtain ⟨s, a, rfl⟩ := exists_eq_finite hx
  have hpos : 0 < quantaPerUnit := Nat.cast_pos.mp quantaPerUnit_pos
  obtain ⟨m, hm⟩ : quantaPerUnit ∣ quanta greatestRank := by
    rw [quanta_greatest.1, quanta_greatest.2, quantaPerUnit_eq]
    exact (pow_dvd_pow 2 (by decide)).mul_left _
  suffices hle : floorUnits s (quanta a) * quantaPerUnit ≤ quanta greatestRank * 1 from
    isFinite_nearest_of_le one_pos hle
  rw [mul_one, hm, mul_comm]
  refine Nat.mul_le_mul_left _ (Nat.le_of_lt_succ ((Nat.div_lt_iff_lt_mul hpos).mpr ?_))
  have hgreatest := quanta_le_greatest a
  rw [hm] at hgreatest
  rw [Nat.succ_mul, mul_comm m]
  generalize quantaPerUnit = d at *
  split <;> omega

/-- The floor is not negative zero, unless of negative zero. -/
lemma floor_ne (hx : x.isFinite) (hx0 : x ≠ finite true 0) : x.floor ≠ finite true 0 := by
  obtain ⟨s, a, rfl⟩ := exists_eq_finite hx
  have hpos : 0 < quantaPerUnit := Nat.cast_pos.mp quantaPerUnit_pos
  intro h
  obtain ⟨rfl, hunits⟩ := eq_zero_of_nearest h
  have hzero : floorUnits true (quanta a) = 0 := (Nat.mul_eq_zero.mp hunits).resolve_right hpos.ne'
  rw [floorUnits, if_pos rfl, Nat.div_eq_zero_iff_lt hpos] at hzero
  have hquanta : quanta a = quanta 0 := by
    rw [quanta_zero]
    omega
  exact hx0 (congrArg _ (Fin.ext (quanta_strictMono.injective hquanta)))

/-- The floor below zero, as a quotient of natural numbers. -/
lemma floor_neg_div {n d : ℕ} (hd : 0 < d) : ⌊(-n / d : ℚ)⌋ = -((n + (d - 1)) / d : ℕ) := by
  have hmod := Nat.mod_lt (n + (d - 1)) hd
  have hdiv := Nat.div_add_mod (n + (d - 1)) d
  generalize (n + (d - 1)) / d = k at *
  have h1 : (n : ℚ) ≤ d * k := mod_cast (show n ≤ d * k by omega)
  have h2 : (d * k : ℚ) < n + d := mod_cast (show d * k < n + d by omega)
  have hd : (0 : ℚ) < d := mod_cast hd
  rw [Int.floor_eq_iff, le_div_iff₀ hd, div_lt_iff₀ hd]
  push_cast
  exact ⟨by linarith, by linarith⟩

/-- The count of units of a floor, with its sign. -/
lemma signFactor_mul_floorUnits (negative : Bool) (n : ℕ) :
    signFactor negative * floorUnits negative n = ⌊signFactor negative * n / quantaPerUnit⌋ := by
  have hpos : 0 < quantaPerUnit := Nat.cast_pos.mp quantaPerUnit_pos
  cases negative
  · simp only [signFactor, floorUnits, Bool.false_eq_true, if_false, one_mul, add_zero]
    rw [Rat.floor_natCast_div_natCast, ← Int.natCast_div, Int.cast_natCast]
  · simp only [signFactor, floorUnits, if_true, neg_mul, one_mul]
    rw [floor_neg_div hpos, Int.cast_neg, Int.cast_natCast]

/-- The floor of a number has the floor of its value. -/
lemma toRat_floor (hx : x.isFinite) : x.floor.toRat = ⌊x.toRat⌋ := by
  obtain ⟨s, a, rfl⟩ := exists_eq_finite hx
  have hfinite := isFinite_floor hx
  rw [floor_eq] at hfinite ⊢
  rw [toRat_nearest one_pos hfinite, Nat.cast_one, div_one, Nat.cast_mul, ← mul_assoc,
    mul_div_cancel_right₀ _ quantaPerUnit_pos.ne', signFactor_mul_floorUnits]
  exact (isValue_toRat (finite s a)).floor.rounded_eq

end Binary64

end PostfixCalculator
