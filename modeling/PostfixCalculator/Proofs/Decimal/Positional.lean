import PostfixCalculator.Decimal.Positional
import PostfixCalculator.Proofs.Decimal.Digits
import PostfixCalculator.Proofs.Decimal.Rounding

/-!
# What positional notation spells

A decimal in positional notation is a numeral without an exponent.  It is the sign, digits, and
maybe a point with digits behind it, and the digits are those of the decimal between zeros.  So the
numeral has no more significant digits than the decimal, and the same value.
-/

namespace PostfixCalculator

namespace Decimal

open Text (AllDigits IsSign IsSignificand IsPointed MatchesNumeral digitsOfSignificand
  significantDigits)

variable {digits places : ℕ} {decimal : Decimal}

/-- The sign of a decimal. -/
lemma isSign_of_negative (negative : Bool) : IsSign (if negative then ['-'] else []) := by
  cases negative
  · exact Or.inl rfl
  · exact Or.inr (Or.inr rfl)

/-- With a point, the digits are those of the number behind zeros, and the last places of them stand
behind the point. -/
lemma exists_withPoint_eq (digits places : ℕ) :
    ∃ whole fraction n, withPoint digits places = whole ++ '.' :: fraction ∧
      whole ++ fraction = List.replicate n '0' ++ Nat.toDigits 10 digits ∧
      fraction.length = places ∧ whole ≠ [] := by
  unfold withPoint
  dsimp only
  generalize hpadded : List.replicate (places + 1 - (Nat.toDigits 10 digits).length) '0' ++
    Nat.toDigits 10 digits = padded
  have hlength : places < padded.length := by
    rw [← hpadded, List.length_append, List.length_replicate]
    omega
  refine ⟨_, _, places + 1 - (Nat.toDigits 10 digits).length, rfl, ?_, ?_, ?_⟩
  · rw [List.take_append_drop, hpadded]
  · rw [List.length_drop]
    omega
  · rw [← List.length_pos_iff, List.length_take]
    omega

/-- The parts of positional notation: digits, between zeros, and maybe a point in front of the last
of them. -/
lemma exists_positional_eq (decimal : Decimal) :
    ∃ whole point fraction a b,
      decimal.positional = (if decimal.negative then ['-'] else []) ++ (whole ++ point ++ []) ∧
      AllDigits whole ∧ AllDigits fraction ∧ IsPointed point fraction ∧ whole ≠ [] ∧
      whole ++ fraction =
        List.replicate a '0' ++ (Nat.toDigits 10 decimal.digits ++ List.replicate b '0') ∧
      decimal.exponent = b - fraction.length := by
  unfold positional
  dsimp only
  by_cases hexponent : 0 ≤ decimal.exponent
  · rw [if_pos hexponent]
    refine ⟨Nat.toDigits 10 decimal.digits ++ List.replicate decimal.exponent.toNat '0', [], [], 0,
      decimal.exponent.toNat, by rw [List.append_nil, List.append_nil],
      (Text.allDigits_toDigits _).append (Text.allDigits_replicate_zero _),
      fun _ hc => absurd hc List.not_mem_nil, Or.inr ⟨rfl, rfl⟩, ?_, ?_, ?_⟩
    · exact List.append_ne_nil_of_left_ne_nil Nat.toDigits_ne_nil _
    · rw [List.append_nil, List.replicate_zero, List.nil_append]
    · rw [List.length_nil]
      omega
  · rw [if_neg hexponent]
    obtain ⟨whole, fraction, n, hpoint, hdigits, hlength, hne⟩ :=
      exists_withPoint_eq decimal.digits (-decimal.exponent).toNat
    have hall : AllDigits (whole ++ fraction) := by
      rw [hdigits]
      exact (Text.allDigits_replicate_zero _).append (Text.allDigits_toDigits _)
    refine ⟨whole, '.' :: fraction, fraction, n, 0, by rw [hpoint, List.append_nil],
      hall.of_subset (List.subset_append_left _ _), hall.of_subset (List.subset_append_right _ _),
      Or.inl rfl, hne, ?_, ?_⟩
    · rw [hdigits, List.replicate_zero, List.append_nil]
    · rw [hlength]
      omega

/-- Positional notation is a numeral, and no letter begins an exponent in it. -/
lemma matchesNumeral_positional (decimal : Decimal) :
    MatchesNumeral decimal.positional ∧ 'e' ∉ decimal.positional ∧ 'E' ∉ decimal.positional := by
  obtain ⟨whole, point, fraction, a, b, htext, hwhole, hfraction, hpoint, hne, -, -⟩ :=
    exists_positional_eq decimal
  rw [htext]
  have hsign := isSign_of_negative decimal.negative
  have hletter : ∀ c ∈ (if decimal.negative then ['-'] else []) ++ (whole ++ point ++ []),
      (c != 'e' && c != 'E') = true := by
    intro c hc
    rw [List.append_nil, List.mem_append, List.mem_append] at hc
    rcases hc with hc | hc | hc
    · exact hsign.not_letter.1 c hc
    · exact Text.ne_letter_of_isDigit (hwhole c hc)
    · exact (hpoint.not_letter hfraction).1 c hc
  refine ⟨.intro hsign ?_ (Or.inl rfl), fun h => ?_, fun h => ?_⟩
  · rcases hpoint with rfl | ⟨rfl, rfl⟩
    · exact .point (Or.inl hne) hwhole hfraction
    · rw [List.append_nil]
      exact .whole hne hwhole
  · exact absurd (hletter 'e' h) (by decide)
  · exact absurd (hletter 'E' h) (by decide)

/-- Positional notation spells a decimal of the same sign and magnitude. -/
lemma ofNumeral_positional (decimal : Decimal) :
    (ofNumeral decimal.positional).negative = decimal.negative ∧
      (ofNumeral decimal.positional).magnitude = decimal.magnitude := by
  obtain ⟨whole, point, fraction, a, b, htext, hwhole, hfraction, hpoint, hne, hdigits,
    hexponent⟩ := exists_positional_eq decimal
  have hvalue : ofDigits (whole ++ fraction) = decimal.digits * 10 ^ b := by
    rw [hdigits, ofDigits_append, ofDigits_append, ofDigits_replicate_zero, ofDigits_replicate_zero,
      ofDigits_toDigits, List.length_replicate, zero_mul, zero_add, add_zero]
  have hzero : readInt ([].drop 1) = 0 := rfl
  rw [htext, ofNumeral_eq (isSign_of_negative decimal.negative) hwhole hfraction hpoint (Or.inl hne)
    (Or.inl rfl), hvalue, hzero]
  refine ⟨?_, ?_⟩
  · cases decimal.negative <;> rfl
  · rw [magnitude_mul_ten_pow, zero_sub, neg_add_eq_sub, ← hexponent]
    rfl

/-- Positional notation has no more significant digits than the decimal has digits. -/
lemma significantDigits_positional_le (decimal : Decimal) :
    significantDigits decimal.positional ≤ (Nat.toDigits 10 decimal.digits).length := by
  obtain ⟨whole, point, fraction, a, b, htext, hwhole, hfraction, hpoint, -, hdigits, -⟩ :=
    exists_positional_eq decimal
  rw [significantDigits, htext,
    Text.digitsOfSignificand_eq (isSign_of_negative decimal.negative) hwhole hfraction hpoint
      (Or.inl rfl), hdigits]
  exact length_trimZeros_le _ a b

end Decimal

end PostfixCalculator
