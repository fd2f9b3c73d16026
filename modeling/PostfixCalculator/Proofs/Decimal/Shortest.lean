import PostfixCalculator.Decimal.Shortest
import PostfixCalculator.Proofs.Decimal.Rounding

/-!
# The coarsest grid

Reading is monotone, so the points of a grid that read back as a magnitude stand together, around
the magnitude.  If any point of a grid does, one of the two neighbours of the magnitude does, and
the search for the coarsest grid misses none.  Grids that are coarser than those that are searched
have no point near the magnitude.

A number with fewer digits would lie on a coarser grid, or have a power of ten between it and the
point that was found, which reads back as well and lies on a coarser grid.
-/

namespace PostfixCalculator

namespace Decimal

open Binary64

-- Numbers with a thousand digits are not to be computed with.
attribute [local irreducible] lastPlace quantaPerUnit

variable {rank place start point : ℕ} {negative : Bool}

/-! ## Reading whole numbers of units -/

/-- A unit in quanta is made of twos only, a unit of the last place of fives and twos. -/
lemma quantaPerUnit_mul_five_pow : quantaPerUnit * 5 ^ lastPlace = 10 ^ lastPlace := by
  decide +kernel

/-- A whole number of units is read as the nearest magnitude. -/
lemma rankOfUnits_eq (units : ℕ) : rankOfUnits units = nearestTo (units / 5 ^ lastPlace) := by
  have hpos : 0 < Nat.pow 5 lastPlace := Nat.pow_pos (by decide)
  rw [rankOfUnits, nearestRank_eq_nearestTo hpos, Nat.pow_eq, Nat.cast_pow, Nat.cast_ofNat]

/-- More units are not read as a smaller magnitude. -/
lemma rankOfUnits_mono : Monotone rankOfUnits := by
  intro a b hab
  rw [rankOfUnits_eq, rankOfUnits_eq]
  exact nearestTo_mono (div_le_div_of_nonneg_right (mod_cast hab) (by positivity))

/-- The units of a magnitude are read as the magnitude. -/
lemma rankOfUnits_exactUnits (rank : ℕ) : rankOfUnits (exactUnits rank) = rank := by
  have hpos : (0 : ℚ) < 5 ^ lastPlace := by positivity
  rw [rankOfUnits_eq, exactUnits, Nat.pow_eq, Nat.cast_mul, Nat.cast_pow, Nat.cast_ofNat,
    mul_div_cancel_right₀ _ hpos.ne', nearestTo_quanta]

/-- The magnitude of a decimal in units of the last place. -/
lemma magnitude_eq (negative : Bool) (digits : ℕ) (exponent : ℤ) :
    magnitude ⟨negative, digits, exponent⟩ =
      digits * 10 ^ (exponent + lastPlace) / 5 ^ lastPlace := by
  have hunit : (quantaPerUnit * 5 ^ lastPlace : ℚ) = 10 ^ lastPlace :=
    mod_cast quantaPerUnit_mul_five_pow
  have hpos : (0 : ℚ) < 5 ^ lastPlace := by positivity
  rw [magnitude, eq_div_iff hpos.ne', mul_assoc, hunit, zpow_add₀ (by norm_num), zpow_natCast,
    mul_assoc]

/-- A decimal on a grid is read as the number of units that it stands for. -/
lemma nearestTo_magnitude (negative : Bool) (point place : ℕ) :
    nearestTo (magnitude ⟨negative, point, place - lastPlace⟩) =
      rankOfUnits (point * 10 ^ place) := by
  rw [magnitude_eq, sub_add_cancel, zpow_natCast, rankOfUnits_eq, Nat.cast_mul, Nat.cast_pow,
    Nat.cast_ofNat]

/-- The next magnitude is at most twice as great. -/
lemma quanta_succ_le (hrank : rank ≠ 0) : quanta (rank + 1) ≤ 2 * quanta rank := by
  have hstep : 2 ^ scale rank ≤ quanta rank := by
    rcases scale_eq_zero_or_le rank with hzero | hle
    · rw [hzero, pow_zero, Nat.one_le_iff_ne_zero, ← quanta_zero]
      exact quanta_strictMono.injective.ne hrank
    · exact (Nat.pow_le_pow_right (by decide) (Nat.le_add_left _ _)).trans hle
  rw [quanta_succ]
  omega

/-- Twice the units of a magnitude are not read as it. -/
lemma lt_rankOfUnits (hrank : rank ≠ 0) {units : ℕ} (h : 2 * exactUnits rank ≤ units) :
    rank < rankOfUnits units := by
  have hnext : exactUnits (rank + 1) ≤ units := by
    refine le_trans ?_ h
    rw [exactUnits, exactUnits, ← mul_assoc]
    exact Nat.mul_le_mul_right _ (quanta_succ_le hrank)
  have := rankOfUnits_mono hnext
  rwa [rankOfUnits_exactUnits] at this

/-- No units are read as zero. -/
lemma rankOfUnits_zero : rankOfUnits 0 = 0 := by
  have hzero : exactUnits 0 = 0 := by rw [exactUnits, quanta_zero, Nat.zero_mul]
  exact (congrArg rankOfUnits hzero.symm).trans (rankOfUnits_exactUnits 0)

-- From here on only the laws of the units count.
attribute [local irreducible] exactUnits rankOfUnits

/-! ## One grid -/

/-- A point of a grid that reads back. -/
def ReadsBack (rank point place : ℕ) : Prop := rankOfUnits (point * Nat.pow 10 place) = rank

/-- What lies between two numbers of units that are read alike is read like them. -/
lemma rankOfUnits_eq_of_between {a b units : ℕ} (ha : rankOfUnits a = rank)
    (hb : rankOfUnits b = rank) (hau : a ≤ units) (hub : units ≤ b) : rankOfUnits units = rank :=
  le_antisymm ((rankOfUnits_mono hub).trans_eq hb) (ha.symm.trans_le (rankOfUnits_mono hau))

/-- If a point of a grid reads back, one of the neighbours of the magnitude does. -/
lemma ReadsBack.neighbour (h : ReadsBack rank point place) :
    ReadsBack rank (exactUnits rank / Nat.pow 10 place) place ∨
      ReadsBack rank (exactUnits rank / Nat.pow 10 place + 1) place := by
  have hpos : 0 < Nat.pow 10 place := Nat.pow_pos (by decide)
  rcases le_or_gt point (exactUnits rank / Nat.pow 10 place) with hle | hgt
  · exact Or.inl (rankOfUnits_eq_of_between h (rankOfUnits_exactUnits rank)
      (Nat.mul_le_mul_right _ hle) (Nat.div_mul_le_self _ _))
  · exact Or.inr (rankOfUnits_eq_of_between (rankOfUnits_exactUnits rank) h
      (Nat.lt_mul_of_div_lt (Nat.lt_succ_self _) hpos).le (Nat.mul_le_mul_right _ hgt))

/-- The neighbour that is taken is admitted. -/
lemma admitted_of_neighbour? {admitted : ℕ → Bool} {below : ℕ} {nearer : Bool}
    (h : neighbour? admitted below nearer = some point) : admitted point := by
  unfold neighbour? at h
  split at h
  · rename_i hbelow habove
    cases nearer <;> cases h
    · exact habove
    · exact hbelow
  · rename_i hbelow _
    cases h
    exact hbelow
  · rename_i _ habove
    cases h
    exact habove
  · cases h

/-- If no neighbour is taken, none is admitted. -/
lemma not_admitted_of_neighbour? {admitted : ℕ → Bool} {below : ℕ} {nearer : Bool}
    (h : neighbour? admitted below nearer = none) :
    admitted below = false ∧ admitted (below + 1) = false := by
  unfold neighbour? at h
  split at h
  · cases h
  · cases h
  · cases h
  · rename_i hbelow habove
    exact ⟨hbelow, habove⟩

/-- What is looked for on a grid. -/
lemma onGrid?_eq (rank place : ℕ) :
    onGrid? rank place =
      neighbour? (fun point => rankOfUnits (point * Nat.pow 10 place) == rank)
        (exactUnits rank / Nat.pow 10 place)
        (2 * (exactUnits rank % Nat.pow 10 place) < Nat.pow 10 place) := rfl

/-- The point of a grid that is found reads back. -/
lemma readsBack_of_onGrid? (h : onGrid? rank place = some point) : ReadsBack rank point place := by
  rewrite [onGrid?_eq] at h
  have hadmitted := admitted_of_neighbour? h
  exact beq_iff_eq.mp hadmitted

/-- Where no point of a grid is found, none reads back. -/
lemma not_readsBack_of_onGrid? (h : onGrid? rank place = none) : ¬ ReadsBack rank point place := by
  rewrite [onGrid?_eq] at h
  obtain ⟨hbelow, habove⟩ := not_admitted_of_neighbour? h
  rw [beq_eq_false_iff_ne] at hbelow habove
  intro hread
  rcases hread.neighbour with h | h
  · exact hbelow h
  · exact habove h

/-! ## The search -/

section Search

variable {grid? : ℕ → Option ℕ} {units : ℕ}

/-- The search ends at a grid where a point is found. -/
lemma coarsest_of_some (h : grid? (place + 1) = some point) :
    coarsest grid? units (place + 1) = (point, place + 1) := by
  rw [coarsest, h]

/-- The search goes on where no point is found. -/
lemma coarsest_of_none (h : grid? (place + 1) = none) :
    coarsest grid? units (place + 1) = coarsest grid? units place := by
  rw [coarsest, h]

end Search

/-- The point that the search finds reads back, and on the coarser grids that were searched no point
does. -/
lemma coarsest_spec (rank start : ℕ) :
    ReadsBack rank (coarsest (onGrid? rank) (exactUnits rank) start).1
        (coarsest (onGrid? rank) (exactUnits rank) start).2 ∧
      ∀ place point, (coarsest (onGrid? rank) (exactUnits rank) start).2 < place → place ≤ start →
        ¬ ReadsBack rank point place := by
  induction start with
  | zero =>
    have hread : ReadsBack rank (exactUnits rank) 0 := by
      rw [ReadsBack, Nat.pow_eq, pow_zero, mul_one, rankOfUnits_exactUnits]
    exact ⟨hread, fun place point hlt hle => absurd (hlt.trans_le hle) (Nat.not_lt_zero _)⟩
  | succ start ih =>
    cases hgrid : onGrid? rank (start + 1) with
    | some point =>
      rw [coarsest_of_some hgrid]
      exact ⟨readsBack_of_onGrid? hgrid, fun place _ hlt hle => absurd hlt (not_lt.mpr hle)⟩
    | none =>
      rw [coarsest_of_none hgrid]
      refine ⟨ih.1, fun place point hlt hle => ?_⟩
      rcases Nat.le_succ_iff.mp hle with hle | rfl
      · exact ih.2 place point hlt hle
      · exact not_readsBack_of_onGrid? hgrid

/-- A grid whose step is more than twice the magnitude has no point that reads back. -/
lemma not_readsBack_of_lt (hrank : rank ≠ 0) (h : (exactUnits rank).log2 / 3 + 1 < place) :
    ¬ ReadsBack rank point place := by
  intro hread
  have hstep : 2 * exactUnits rank ≤ 10 ^ place := by
    calc 2 * exactUnits rank ≤ 2 * 2 ^ ((exactUnits rank).log2 + 1) :=
          Nat.mul_le_mul_left _ Nat.lt_log2_self.le
      _ = 2 ^ ((exactUnits rank).log2 + 2) := by ring
      _ ≤ 2 ^ (3 * place) := Nat.pow_le_pow_right (by decide) (by omega)
      _ = 8 ^ place := by rw [pow_mul]; rfl
      _ ≤ 10 ^ place := Nat.pow_le_pow_left (by decide) _
  rcases Nat.eq_zero_or_pos point with rfl | hpos
  · rw [ReadsBack, Nat.zero_mul, rankOfUnits_zero] at hread
    exact hrank hread.symm
  · rw [ReadsBack, Nat.pow_eq] at hread
    exact (lt_rankOfUnits hrank (hstep.trans (Nat.le_mul_of_pos_left _ hpos))).ne' hread

/-! ## The shortest decimal -/

/-- The shortest decimal of a magnitude is that of the coarsest grid. -/
lemma shortest_eq (negative : Bool) (rank : ℕ) :
    shortest negative rank =
      ⟨negative, (coarsest (onGrid? rank) (exactUnits rank) ((exactUnits rank).log2 / 3 + 1)).1,
        (coarsest (onGrid? rank) (exactUnits rank) ((exactUnits rank).log2 / 3 + 1)).2 -
          lastPlace⟩ := rfl

/-- The shortest decimal of a magnitude is a point of a grid that reads back, and no point of a
coarser grid does. -/
lemma exists_shortest (negative : Bool) (hrank : rank ≠ 0) :
    ∃ point place : ℕ, shortest negative rank = ⟨negative, point, place - lastPlace⟩ ∧
      ReadsBack rank point place ∧
      ∀ place' point', place < place' → ¬ ReadsBack rank point' place' := by
  obtain ⟨hread, hcoarser⟩ := coarsest_spec rank ((exactUnits rank).log2 / 3 + 1)
  refine ⟨_, _, shortest_eq negative rank, hread, fun place' point' hlt => ?_⟩
  rcases le_or_gt place' ((exactUnits rank).log2 / 3 + 1) with hle | hgt
  · exact hcoarser place' point' hlt hle
  · exact not_readsBack_of_lt hrank hgt

/-- If a point reads back and no point of a coarser grid does, no decimal with fewer digits reads
back, also on a finer grid than that of the last place. -/
lemma lt_ten_pow_of_readsBack {digits count : ℕ} {exponent : ℤ} (hrank : rank ≠ 0)
    (hread : ReadsBack rank point place)
    (hcoarser : ∀ place' point', place < place' → ¬ ReadsBack rank point' place')
    (hdigits : digits < 10 ^ count)
    (h : nearestTo (magnitude ⟨negative, digits, exponent⟩) = rank) :
    point < 10 ^ count := by
  by_contra hge
  rw [not_lt] at hge
  rcases lt_or_ge (place : ℤ) (exponent + lastPlace) with hgrid | hfine
  · -- The decimal lies on a coarser grid itself.
    obtain ⟨place', hplace'⟩ := Int.eq_ofNat_of_zero_le (show 0 ≤ exponent + lastPlace by omega)
    have hexponent : exponent = place' - lastPlace := by omega
    rw [hexponent, nearestTo_magnitude] at h
    exact hcoarser place' digits (by omega) (by rwa [ReadsBack, Nat.pow_eq])
  · -- The power of ten lies between the decimal and the point, and is on a coarser grid.
    have hcount : count ≠ 0 := by
      rintro rfl
      have hzero : magnitude ⟨negative, digits, exponent⟩ = quanta 0 := by
        rw [magnitude, Nat.lt_one_iff.mp hdigits, quanta_zero, Nat.cast_zero, zero_mul, zero_mul]
      rw [hzero, nearestTo_quanta] at h
      exact hrank h.symm
    have hbelow : rank ≤ rankOfUnits (10 ^ (place + count)) := by
      rw [← h, rankOfUnits_eq, magnitude_eq]
      refine nearestTo_mono (div_le_div_of_nonneg_right ?_ (by positivity))
      calc (digits : ℚ) * 10 ^ (exponent + lastPlace)
          ≤ 10 ^ count * 10 ^ (place : ℤ) :=
            mul_le_mul (mod_cast hdigits.le) (zpow_le_zpow_right₀ (by norm_num) hfine)
              (by positivity) (by positivity)
        _ = ((10 ^ (place + count) : ℕ) : ℚ) := by
            rw [zpow_natCast, ← pow_add, Nat.add_comm count place]
            push_cast
            rfl
    have habove : rankOfUnits (10 ^ (place + count)) ≤ rank := by
      refine (rankOfUnits_mono ?_).trans_eq hread
      rw [Nat.pow_eq, Nat.add_comm place count, pow_add]
      exact Nat.mul_le_mul_right _ hge
    refine hcoarser (place + count) 1 (by omega) ?_
    rw [ReadsBack, Nat.pow_eq, one_mul]
    exact le_antisymm habove hbelow

end Decimal

end PostfixCalculator
