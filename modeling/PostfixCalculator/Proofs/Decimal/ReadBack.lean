import PostfixCalculator.Proofs.Decimal.Positional
import PostfixCalculator.Proofs.Decimal.Shortest
import PostfixCalculator.Proofs.LockStep
import PostfixCalculator.Proofs.NumericTree
import PostfixCalculator.Proofs.Pipeline

/-!
# Texts of numbers are read back

A finite number is written as a numeral without an exponent, and the numeral stands for the number.
So the text of a result is an expression of its own, and its value has the same text, whatever the
settings.  Zero has no sign in its text, and is read as positive zero.

No numeral with fewer significant digits stands for the number.  Trailing zeros of such a numeral
can be taken off and added to its exponent, and then it is a decimal with fewer digits than the
shortest.

What is not finite is written as a word that is no numeral.
-/

namespace PostfixCalculator

open Text (MatchesNumeral isSeparator significantDigits)

namespace Decimal

open Binary64

variable {decimal : Decimal} {numeral : Text} {negative : Bool} {rank : Fin infinityRank}

/-- A decimal is rounded to a finite number exactly if it has its sign and is nearest to its
magnitude. -/
lemma toBinary64_eq_finite_iff :
    decimal.toBinary64 = finite negative rank ↔
      decimal.negative = negative ∧ nearestTo decimal.magnitude = rank := by
  rw [toBinary64_eq, ofRank]
  split
  · rename_i h
    rw [finite.injEq, Fin.ext_iff]
  · rename_i h
    refine iff_of_false (by simp) fun hrank => h ?_
    rw [hrank.2]
    exact rank.isLt

/-- Positional notation of the shortest decimal stands for the number. -/
lemma toBinary64_shortest (negative : Bool) (hrank : rank ≠ 0) :
    (ofNumeral (shortest negative rank).positional).toBinary64 = finite negative rank := by
  have hrank : (rank : ℕ) ≠ 0 := fun h => hrank (Fin.ext h)
  obtain ⟨point, place, hshortest, hread, -⟩ := exists_shortest negative hrank
  obtain ⟨hnegative, hmagnitude⟩ := ofNumeral_positional (shortest negative rank)
  rw [toBinary64_eq_finite_iff, hnegative, hmagnitude, hshortest, nearestTo_magnitude]
  exact ⟨rfl, hread⟩

/-- No numeral that stands for a number has fewer significant digits than the shortest decimal. -/
lemma significantDigits_shortest_le (hrank : rank ≠ 0) (hnumeral : MatchesNumeral numeral)
    (h : (ofNumeral numeral).toBinary64 = finite negative rank) :
    significantDigits (shortest negative rank).positional ≤ significantDigits numeral := by
  have hrank : (rank : ℕ) ≠ 0 := fun h => hrank (Fin.ext h)
  obtain ⟨point, place, hshortest, hread, hcoarser⟩ := exists_shortest negative hrank
  obtain ⟨m, t, hdigits, hm⟩ := exists_digits_ofNumeral_eq hnumeral
  have hnearest := (toBinary64_eq_finite_iff.mp h).2
  have hmagnitude : (ofNumeral numeral).magnitude =
      magnitude ⟨negative, m, (ofNumeral numeral).exponent + t⟩ := by
    rw [← magnitude_mul_ten_pow, ← hdigits]
    rfl
  rw [hmagnitude] at hnearest
  have hpoint := lt_ten_pow_of_readsBack hrank hread hcoarser hm hnearest
  have hcount : 0 < significantDigits numeral := by
    refine Nat.pos_of_ne_zero fun hzero => ?_
    rw [hzero, pow_zero, Nat.lt_one_iff] at hpoint
    rw [hpoint, ReadsBack, Nat.zero_mul, rankOfUnits_zero] at hread
    exact hrank hread.symm
  calc significantDigits (shortest negative rank).positional
      ≤ (Nat.toDigits 10 (shortest negative rank).digits).length :=
        significantDigits_positional_le _
    _ = (Nat.toDigits 10 point).length := by rw [hshortest]
    _ ≤ significantDigits numeral :=
        (Nat.length_toDigits_le_iff (by decide) hcount).mpr hpoint

end Decimal

namespace Settings

/-- The value of a single operand is what it stands for. -/
lemma evaluate_operand {settings : Settings} {text : Text} (h : IsOperand text)
    (hseparator : ∀ c ∈ text, isSeparator c = false) :
    settings.evaluate text = (Postfix.operandValue text).map Binary64.toText := by
  have hprintable := Token.printable_operand h hseparator
  have htext : Token.text [.operand text] = text := Text.unwords_singleton text
  calc settings.evaluate text = settings.evaluate (Token.text [.operand text]) := by rw [htext]
    _ = (Postfix.evaluate settings.precision [.operand text]).map Binary64.toText :=
        evaluate_text (List.forall_mem_singleton.mpr hprintable)
    _ = (Postfix.operandValue text).map Binary64.toText := by rw [Postfix.evaluate_operand]

end Settings

namespace Binary64

open Decimal

variable {x : Binary64} {numeral : Text} {negative : Bool} {rank : Fin infinityRank}

/-- The text of a number other than zero is its shortest decimal. -/
lemma toText_finite (negative : Bool) (hrank : rank ≠ 0) :
    (finite negative rank).toText = (shortest negative rank).positional := by
  rw [toText, if_neg hrank]

/-- The text of a finite number is a numeral without an exponent. -/
lemma matchesNumeral_toText (negative : Bool) (rank : Fin infinityRank) :
    MatchesNumeral (finite negative rank).toText ∧ 'e' ∉ (finite negative rank).toText ∧
      'E' ∉ (finite negative rank).toText := by
  by_cases hrank : rank = 0
  · rw [toText, if_pos hrank]
    exact ⟨Text.isNumeral_iff.mp (by decide), by decide, by decide⟩
  · rw [toText_finite negative hrank]
    exact matchesNumeral_positional _

/-- The text of a finite number stands for it, but for the sign of zero. -/
lemma operandValue_toText (negative : Bool) (rank : Fin infinityRank) :
    Postfix.operandValue (finite negative rank).toText =
      .ok (finite (negative && rank != 0) rank) := by
  rw [Postfix.operandValue_eq_ok_iff]
  refine ⟨Text.isNumeral_iff.mpr (matchesNumeral_toText negative rank).1, ?_⟩
  by_cases hrank : rank = 0
  · subst hrank
    rw [toText, if_pos rfl, bne_self_eq_false, Bool.and_false]
    decide
  · rw [toText_finite negative hrank, toBinary64_shortest negative hrank, bne_iff_ne.mpr hrank,
      Bool.and_true]

/-- No numeral that stands for a number other than zero has fewer significant digits than its text.
-/
lemma significantDigits_toText_le (hrank : rank ≠ 0)
    (h : Postfix.operandValue numeral = .ok (finite negative rank)) :
    significantDigits (finite negative rank).toText ≤ significantDigits numeral := by
  obtain ⟨hnumeral, hvalue⟩ := Postfix.operandValue_eq_ok_iff.mp h
  rw [toText_finite negative hrank]
  exact significantDigits_shortest_le hrank (Text.isNumeral_iff.mp hnumeral) hvalue

/-- The sign that a text of zero does not have makes no other text. -/
lemma toText_of_sign (negative : Bool) (rank : Fin infinityRank) :
    (finite (negative && rank != 0) rank).toText = (finite negative rank).toText := by
  by_cases hrank : rank = 0
  · rw [toText, toText, if_pos hrank, if_pos hrank]
  · rw [bne_iff_ne.mpr hrank, Bool.and_true]

/-- What is not finite is written as a word that is no numeral. -/
lemma isOperand_toText_of_not_isFinite (h : x.isFinite = false) :
    x.toText.isNumeral = false ∧ IsOperand x.toText ∧ ∀ c ∈ x.toText, isSeparator c = false := by
  obtain ⟨hnumeral, hoperand, hseparator⟩ : x.toText.isNumeral = false ∧ IsOperand x.toText ∧
      x.toText.any isSeparator = false := by
    cases x with
    | nan => decide
    | infinity negative => cases negative <;> decide
    | finite negative rank => simp [isFinite] at h
  exact ⟨hnumeral, hoperand, fun c hc =>
    Bool.eq_false_iff.mpr (List.any_eq_false.mp hseparator c hc)⟩

/-- **Results are read back.**  The text of a finite number is a numeral without an exponent.  It
stands for the number, but for the sign of zero, and unless the number is zero no numeral that
stands for it has fewer significant digits.  So the value of the text is the text, whatever the
settings.  The text of a number that is not finite is no numeral, and is refused as an operand. -/
theorem toText_reads_back :
    (∀ (negative : Bool) (rank : Fin infinityRank),
      let text := (finite negative rank).toText
      text.isNumeral = true ∧ 'e' ∉ text ∧ 'E' ∉ text ∧
      Postfix.operandValue text = .ok (finite (negative && rank != 0) rank) ∧
      (rank = 0 → text = ['0']) ∧
      (rank ≠ 0 → ∀ numeral, Postfix.operandValue numeral = .ok (finite negative rank) →
        significantDigits text ≤ significantDigits numeral) ∧
      ∀ settings : Settings, settings.evaluate text = .ok text) ∧
    ∀ x : Binary64, x.isFinite = false → x.toText.isNumeral = false ∧
      ∀ settings : Settings, settings.evaluate x.toText = .error (.notAnOperand x.toText) := by
  constructor
  · intro negative rank text
    obtain ⟨hnumeral, hlower, hupper⟩ := matchesNumeral_toText negative rank
    obtain ⟨hoperand, hseparator⟩ := hnumeral.isOperand
    refine ⟨Text.isNumeral_iff.mpr hnumeral, hlower, hupper, operandValue_toText negative rank,
      fun hrank => if_pos hrank, fun hrank numeral => significantDigits_toText_le hrank,
      fun settings => ?_⟩
    rw [Settings.evaluate_operand hoperand hseparator, operandValue_toText, Except.map,
      toText_of_sign]
  · intro x hx
    obtain ⟨hnumeral, hoperand, hseparator⟩ := isOperand_toText_of_not_isFinite hx
    refine ⟨hnumeral, fun settings => ?_⟩
    rw [Settings.evaluate_operand hoperand hseparator,
      Postfix.operandValue_of_not_isNumeral hnumeral, Except.map]

/-- The sum of a tenth and two tenths is written with seventeen digits, and no numeral with fewer
stands for it.  Negative infinity is refused. -/
theorem toText_reads_back_three_tenths :
    (∀ numeral, Postfix.operandValue numeral = .ok (finite false ⟨0x3FD3333333333334, by decide⟩) →
      17 ≤ significantDigits numeral) ∧
    ∀ settings : Settings,
      settings.evaluate "-inf".toList = .error (.notAnOperand "-inf".toList) := by
  obtain ⟨hfinite, hnot⟩ := toText_reads_back
  constructor
  · intro numeral hnumeral
    obtain ⟨-, -, -, -, -, hleast, -⟩ := hfinite false ⟨0x3FD3333333333334, by decide⟩
    have hcount : significantDigits
        (finite false ⟨0x3FD3333333333334, by decide⟩).toText = 17 := by decide +kernel
    exact hcount.symm.le.trans (hleast (by decide) numeral hnumeral)
  · exact (hnot (infinity true) rfl).2

end Binary64

end PostfixCalculator
