import PostfixCalculator.Proofs.Binary64.Arithmetic
import PostfixCalculator.Proofs.Binary64.UnitsDrift
import PostfixCalculator.Proofs.Evaluation

/-!
# Rounding to decimal places twice

The factor of decimal places is a power of ten, rounded in every step of its computation, or
infinity.  All that matters of it is that it does not scale down.

Rounding to decimal places is not stable.  A rounded number is a count of units that was divided by
the factor, and where the quotient, scaled up again, lies half a unit or more above the count, the
next rounding leads to a greater number.  In all other cases, of every magnitude, the same number is
found.

Adding zero to a result is rounding it a second time.
-/

namespace PostfixCalculator

namespace Binary64

-- The number of quanta in a unit is too large to be computed with.
attribute [local irreducible] quantaPerUnit

variable {x y acc base : Binary64} {num den n places : ℕ}

/-! ## The factor -/

/-- Not less than one, with positive infinity among them. -/
inductive IsScale : Binary64 → Prop
  /-- Positive infinity. -/
  | infinity : IsScale (infinity false)
  /-- A finite number that is not less than one. -/
  | finite {rank : Fin infinityRank} (hone : quantaPerUnit ≤ quanta rank) :
      IsScale (finite false rank)

/-- What is not less than one is not rounded below one. -/
lemma isScale_nearest (hden : 0 < den) (h : quantaPerUnit * den ≤ num) :
    IsScale (nearest false num den) := by
  have hrank : 0x3FF0000000000000 ≤ nearestRank num den := by
    rw [nearestRank_eq_nearestTo hden, ← nearestTo_quanta 0x3FF0000000000000, quanta_one]
    refine nearestTo_mono ?_
    rw [le_div_iff₀ (by exact_mod_cast hden)]
    exact_mod_cast h
  rw [nearest, ofRank]
  split
  · exact .finite (quanta_one.symm.trans_le (quanta_strictMono.monotone hrank))
  · exact .infinity

/-- Products do not get less than one. -/
lemma IsScale.mul (hx : IsScale x) (hy : IsScale y) : IsScale (x.mul y) := by
  have hpos : 0 < quantaPerUnit := Nat.cast_pos.mp quantaPerUnit_pos
  have hne : ∀ {rank : Fin infinityRank}, quantaPerUnit ≤ quanta rank → rank ≠ 0 := by
    rintro rank hle rfl
    exact absurd (hpos.trans_le hle) (by simp)
  cases hx with
  | infinity =>
    cases hy with
    | infinity => exact .infinity
    | finite hb =>
      rw [Binary64.mul, if_neg (hne hb)]
      exact .infinity
  | finite ha =>
    cases hy with
    | infinity =>
      rw [Binary64.mul, if_neg (hne ha)]
      exact .infinity
    | finite hb => exact isScale_nearest hpos (Nat.mul_le_mul ha hb)

/-- Repeated squaring does not lead below one. -/
lemma isScale_mulPow (hacc : IsScale acc) (hbase : IsScale base) : IsScale (mulPow acc base n) := by
  induction n using Nat.strong_induction_on generalizing acc base with
  | h n ih =>
    have hnext : IsScale (if n % 2 = 1 then acc.mul base else acc) := by
      split
      · exact hacc.mul hbase
      · exact hacc
    rw [mulPow]
    split
    · exact hnext
    · exact ih (n / 2) (by omega) hnext (hbase.mul hbase)

/-- The factor of decimal places does not scale down. -/
lemma isScale_placesFactor (places : ℕ) : IsScale (placesFactor places) := by
  have hnat : ∀ n, 0 < n → IsScale (ofNat n) := fun n hn =>
    isScale_nearest one_pos (by rw [mul_one]; exact Nat.le_mul_of_pos_left _ hn)
  exact isScale_mulPow (hnat 1 (by decide)) (hnat 10 (by decide))

/-- What is finite and not less than one is a factor. -/
lemma IsScale.isFactor (hx : IsScale x) (hfinite : x.isFinite) : IsFactor x.toRat := by
  cases hx with
  | infinity => exact absurd hfinite (by decide)
  | @finite rank hone =>
    have hvalue : (Binary64.finite false rank).toRat = quanta rank / quantaPerUnit := by
      simp [toRat, signFactor]
    refine ⟨isValue_toRat _, ?_, ?_⟩
    · rw [hvalue, one_le_div quantaPerUnit_pos]
      exact_mod_cast hone
    · have hgreatest : quanta greatestRank ≤ 2 ^ 1024 * quantaPerUnit := by
        rw [quanta_greatest.1, quanta_greatest.2, quantaPerUnit_eq]
        calc (2 ^ 53 - 1) * 2 ^ 2045 ≤ 2 ^ 53 * 2 ^ 2045 := Nat.mul_le_mul_right _ (Nat.sub_le _ _)
          _ = 2 ^ 1024 * 2 ^ 1074 := by rw [← pow_add, ← pow_add]
      rw [hvalue, div_le_iff₀ quantaPerUnit_pos]
      exact_mod_cast (quanta_le_greatest rank).trans hgreatest

/-! ## Rounding once -/

/-- The count of units that rounding to decimal places finds. -/
def unitsAt (places : ℕ) (x : Binary64) : Binary64 :=
  ((x.mul (placesFactor places)).add half).floor

/-- Where the scaled number is finite, rounding divides the count of units. -/
lemma roundPlaces_of_isFinite (h : (x.mul (placesFactor places)).isFinite) :
    x.roundPlaces places = (unitsAt places x).div (placesFactor places) := if_pos h

/-- Where the scaled number is not finite, nothing is rounded. -/
lemma roundPlaces_of_not_isFinite (h : ¬ (x.mul (placesFactor places)).isFinite) :
    x.roundPlaces places = x := if_neg h

/-- The count of units is finite. -/
lemma isFinite_unitsAt (h : (x.mul (placesFactor places)).isFinite) :
    (unitsAt places x).isFinite := isFinite_floor (isFinite_add_half h)

/-- The count of units is not negative zero. -/
lemma unitsAt_ne (h : (x.mul (placesFactor places)).isFinite) : unitsAt places x ≠ finite true 0 :=
  floor_ne (isFinite_add_half h) (add_half_ne h)

/-- The count of units is that of the nearest unit of the scaled number. -/
lemma toRat_unitsAt (h : (x.mul (placesFactor places)).isFinite) :
    (unitsAt places x).toRat = toUnits (x.mul (placesFactor places)).toRat := by
  have hhalf : half.isFinite := by
    obtain ⟨rank, hrank, -⟩ := half_eq
    rw [hrank]
    rfl
  rw [unitsAt, toRat_floor (isFinite_add_half h), toRat_add h hhalf (isFinite_add_half h),
    toRat_half, toUnits]

section Quotient

variable {units factor : Binary64} {N : ℤ}

/-- A quotient of units by a factor is finite. -/
lemma isFinite_div_of_isScale (hunits : units.isFinite) (hfactor : IsScale factor)
    (hfinite : factor.isFinite) : (units.div factor).isFinite := by
  obtain ⟨s, a, rfl⟩ := exists_eq_finite hunits
  cases hfactor with
  | infinity => exact absurd hfinite (by decide)
  | finite hone => exact isFinite_div hone

/-- A quotient of units by a factor has the exact quotient rounded for its value. -/
lemma toRat_div_of_isScale (hunits : units.isFinite) (hfactor : IsScale factor)
    (hfinite : factor.isFinite) :
    (units.div factor).toRat = rounded (units.toRat / factor.toRat) :=
  toRat_div hunits hfinite (hfactor.isFactor hfinite).pos.ne'
    (isFinite_div_of_isScale hunits hfactor hfinite)

/-- A quotient of units by a factor is not negative zero: a single unit does not vanish. -/
lemma div_ne_of_isScale (hunits : units.isFinite) (hunits0 : units ≠ finite true 0)
    (hN : units.toRat = N) (hfactor : IsScale factor) (hfinite : factor.isFinite) :
    units.div factor ≠ finite true 0 := by
  intro h
  have hF := hfactor.isFactor hfinite
  have hzero : rounded (N / factor.toRat) = 0 := by
    rw [← hN, ← toRat_div_of_isScale hunits hfactor hfinite, h, toRat_eq_zero_iff.mpr rfl]
  have hN0 : N = 0 := by
    have herror := hF.error N
    rw [hzero, zero_mul, zero_sub, abs_neg] at herror
    have : |(N : ℚ)| < 1 := by rcases herror with h | h <;> linarith [abs_nonneg (N : ℚ)]
    exact Int.abs_lt_one_iff.mp (mod_cast this)
  obtain ⟨s, a, rfl⟩ := exists_eq_finite hunits
  have ha : a = 0 := Fin.ext (toRat_eq_zero_iff.mp (by rw [hN, hN0, Int.cast_zero]))
  cases s
  · cases hfactor with
    | infinity => exact absurd hfinite (by decide)
    | @finite rank hone =>
      have hpos : 0 < quantaPerUnit := Nat.cast_pos.mp quantaPerUnit_pos
      have hrank : rank ≠ 0 := by
        rintro rfl
        exact absurd (hpos.trans_le hone) (by simp)
      rw [div, if_neg hrank, nearest, ofRank] at h
      split at h <;> cases h
  · exact hunits0 (congrArg _ ha)

end Quotient

/-! ## Rounding twice -/

/-- A rounded number is finite. -/
lemma isFinite_roundPlaces (h : (x.mul (placesFactor places)).isFinite) :
    (x.roundPlaces places).isFinite := by
  rw [roundPlaces_of_isFinite h]
  exact isFinite_div_of_isScale (isFinite_unitsAt h) (isScale_placesFactor places)
    (isFinite_of_mul h).2

/-- A rounded number is not negative zero. -/
lemma roundPlaces_ne (h : (x.mul (placesFactor places)).isFinite) :
    x.roundPlaces places ≠ finite true 0 := by
  rw [roundPlaces_of_isFinite h]
  exact div_ne_of_isScale (isFinite_unitsAt h) (unitsAt_ne h) (toRat_unitsAt h)
    (isScale_placesFactor places) (isFinite_of_mul h).2

/-- The value of a rounded number. -/
lemma toRat_roundPlaces (h : (x.mul (placesFactor places)).isFinite) :
    (x.roundPlaces places).toRat =
      rounded (toUnits (x.mul (placesFactor places)).toRat / (placesFactor places).toRat) := by
  rw [roundPlaces_of_isFinite h, toRat_div_of_isScale (isFinite_unitsAt h)
    (isScale_placesFactor places) (isFinite_of_mul h).2, toRat_unitsAt h]

/-- A number drifts if rounding it to decimal places a second time takes it up: scaled, the rounded
number lies half a unit or more above its count of units, in the range where adding one half counts
at all. -/
def Drifts (places : ℕ) (x : Binary64) : Prop :=
  let factor := placesFactor places
  let units := unitsAt places x
  let rescaled := (x.roundPlaces places).mul factor
  (x.mul factor).isFinite ∧ rescaled.isFinite ∧ -2 ^ 53 ≤ units.toRat ∧ units.toRat < 2 ^ 53 ∧
    units.toRat + 1 / 2 ≤ rescaled.toRat

section Twice

variable (h : (x.mul (placesFactor places)).isFinite)
  (h' : ((x.roundPlaces places).mul (placesFactor places)).isFinite)

include h h'

/-- A rounded number, scaled, is what is left of the units. -/
lemma toRat_rescaled :
    ((x.roundPlaces places).mul (placesFactor places)).toRat =
      rescaled (placesFactor places).toRat (toUnits (x.mul (placesFactor places)).toRat) := by
  rw [toRat_mul h', toRat_roundPlaces h, rescaled]

/-- Where a number and its rounding can be scaled, it drifts if its units do. -/
lemma drifts_iff :
    Drifts places x ↔
      UnitsDrift (placesFactor places).toRat (toUnits (x.mul (placesFactor places)).toRat) := by
  rw [Drifts]
  simp only [h, h', true_and, toRat_unitsAt h, toRat_rescaled h h', UnitsDrift]
  norm_cast

/-- Where a number and its rounding can be scaled, the second rounding is the same if its value is.
-/
lemma roundPlaces_roundPlaces_eq_iff_toRat :
    (x.roundPlaces places).roundPlaces places = x.roundPlaces places ↔
      ((x.roundPlaces places).roundPlaces places).toRat = (x.roundPlaces places).toRat :=
  ⟨congrArg toRat, eq_of_toRat_eq (isFinite_roundPlaces h') (isFinite_roundPlaces h)
    (roundPlaces_ne h') (roundPlaces_ne h)⟩

end Twice

/-- The second rounding is the same exactly if the number does not drift, and only numbers of
`2 ^ 51` units or more drift. -/
lemma roundPlaces_roundPlaces_eq_iff_not_drifts (places : ℕ) (x : Binary64) :
    ((x.roundPlaces places).roundPlaces places = x.roundPlaces places ↔ ¬ Drifts places x) ∧
      (Drifts places x → 2 ^ 51 ≤ |(unitsAt places x).toRat|) := by
  by_cases h : (x.mul (placesFactor places)).isFinite
  · by_cases h' : ((x.roundPlaces places).mul (placesFactor places)).isFinite
    · have hF := (isScale_placesFactor places).isFactor (isFinite_of_mul h).2
      have hN := isUnits_toUnits (isValue_toRat (x.mul (placesFactor places)))
      rw [drifts_iff h h']
      refine ⟨?_, fun hdrift => ?_⟩
      · rw [roundPlaces_roundPlaces_eq_iff_toRat h h', toRat_roundPlaces h', toRat_roundPlaces h,
          toRat_rescaled h h']
        exact rounded_toUnits_div_eq_iff hF hN
      · rw [toRat_unitsAt h]
        exact_mod_cast hdrift.le_abs hF
    · have hnot : ¬ Drifts places x := fun hdrift => h' hdrift.2.1
      exact ⟨iff_of_true (roundPlaces_of_not_isFinite h') hnot, fun hdrift => absurd hdrift hnot⟩
  · have hnot : ¬ Drifts places x := fun hdrift => h hdrift.1
    refine ⟨iff_of_true ?_ hnot, fun hdrift => absurd hdrift hnot⟩
    rw [roundPlaces_of_not_isFinite h, roundPlaces_of_not_isFinite h]

/-! ## Adding zero to a result -/

/-- To add zero to a result is to round it once more. -/
lemma evaluate_append_zero_add {tokens : Postfix} (htokens : Postfix.evaluate places tokens = .ok x)
    (hx : x ≠ finite true 0) :
    Postfix.evaluate places (tokens ++ [.operand ['0'], .operator .add]) =
      .ok (x.roundPlaces places) := by
  have hzero : Postfix.operandValue ['0'] = .ok (finite false 0) :=
    Postfix.operandValue_eq_ok_iff.mpr ⟨by decide, by decide⟩
  have hoperand : (Postfix.arithmetic places).operand ['0'] = .ok (finite false 0) := hzero
  have hsum : (Postfix.arithmetic places).operation .add x (finite false 0) =
      x.roundPlaces places := congrArg (roundPlaces places) (add_positiveZero hx)
  rw [Postfix.evaluate, Interpretation.reduce_eq_ok_iff_run] at htokens ⊢
  simp only [Interpretation.run_append, htokens, Except.bind, Interpretation.run,
    Interpretation.step, hoperand, Except.map, hsum]

/-- Rounding to decimal places a second time changes nothing exactly if the number does not drift,
and only numbers of `2 ^ 51` units or more drift.  So a result, unless it is negative zero, stays
the same when zero is added to it exactly if it was rounded from a number that does not drift. -/
theorem roundPlaces_roundPlaces_eq_iff (places : ℕ) (x : Binary64) :
    ((x.roundPlaces places).roundPlaces places = x.roundPlaces places ↔ ¬ Drifts places x) ∧
      (Drifts places x → 2 ^ 51 ≤ |(unitsAt places x).toRat|) ∧
      ∀ tokens : Postfix, Postfix.evaluate places tokens = .ok (x.roundPlaces places) →
        x.roundPlaces places ≠ finite true 0 →
        (Postfix.evaluate places (tokens ++ [.operand ['0'], .operator .add]) =
          .ok (x.roundPlaces places) ↔ ¬ Drifts places x) := by
  obtain ⟨hiff, hlarge⟩ := roundPlaces_roundPlaces_eq_iff_not_drifts places x
  refine ⟨hiff, hlarge, fun tokens htokens hne => ?_⟩
  rw [evaluate_append_zero_add htokens hne, Except.ok.injEq, hiff]

/-! ## A number that drifts -/

/-- The factor of four decimal places is exact. -/
lemma placesFactor_four : placesFactor 4 = ofNat 10000 := by
  -- The computation is a recursion on a measure, and is unfolded once for each binary digit of `4`.
  rw [placesFactor, mulPow, if_neg (by decide), if_neg (by decide), mulPow, if_neg (by decide),
    if_neg (by decide), mulPow, if_pos (by decide), if_pos (by decide)]
  decide +kernel

/-- The number nearest to `274877906944.02057` is rounded to four decimal places as
`274877906944.0206`, and this as `274877906944.0207`. -/
lemma roundPlaces_roundPlaces_ne :
    ((finite false ⟨0x4250000000000151, by decide⟩).roundPlaces 4).roundPlaces 4 ≠
      (finite false ⟨0x4250000000000151, by decide⟩).roundPlaces 4 := by
  simp only [roundPlaces, placesFactor_four]
  decide +kernel

/-- Rounding a second time is not always the same. -/
theorem roundPlaces_unstable :
    ¬ ∀ (places : ℕ) (x : Binary64), x ≠ nan →
      (x.roundPlaces places).roundPlaces places = x.roundPlaces places := fun h =>
  roundPlaces_roundPlaces_ne (h 4 _ (by decide))

/-- The number that is rounded differently drifts, and adding zero once more changes the result. -/
theorem drifts_of_roundPlaces_ne :
    Drifts 4 (finite false ⟨0x4250000000000151, by decide⟩) ∧
      2 ^ 51 ≤ |(unitsAt 4 (finite false ⟨0x4250000000000151, by decide⟩)).toRat| ∧
      Postfix.evaluate 4 [.operand "274877906944.02057".toList, .operand ['0'], .operator .add,
          .operand ['0'], .operator .add] ≠
        .ok ((finite false ⟨0x4250000000000151, by decide⟩).roundPlaces 4) := by
  obtain ⟨hiff, hlarge, hzero⟩ :=
    roundPlaces_roundPlaces_eq_iff 4 (finite false ⟨0x4250000000000151, by decide⟩)
  have hdrifts : Drifts 4 (finite false ⟨0x4250000000000151, by decide⟩) :=
    not_not.mp fun h => roundPlaces_roundPlaces_ne (hiff.mpr h)
  have hoperand : Postfix.evaluate 4 [.operand "274877906944.02057".toList] =
      .ok (finite false ⟨0x4250000000000151, by decide⟩) := by
    rw [Postfix.evaluate_operand, Postfix.operandValue_eq_ok_iff]
    exact ⟨by decide, by decide +kernel⟩
  have hresult := evaluate_append_zero_add hoperand (by decide)
  have hne : (finite false ⟨0x4250000000000151, by decide⟩).roundPlaces 4 ≠ finite true 0 :=
    roundPlaces_ne hdrifts.1
  exact ⟨hdrifts, hlarge hdrifts, fun h => (hzero _ hresult hne).mp h hdrifts⟩

end Binary64

end PostfixCalculator
