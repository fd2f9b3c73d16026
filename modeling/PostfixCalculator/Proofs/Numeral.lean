import Mathlib.Tactic.Lemma
import PostfixCalculator.Text.Basic

/-!
# The grammar of numerals

A numeral is an optional sign, a significand and an optional exponent.  The significand is digits
with at most one point among them and at least one digit on either side of it; the exponent is the
letter `e` or `E`, an optional sign, and at least one digit.

No other characters than those of these parts occur in a numeral, and it has a digit.
-/

namespace PostfixCalculator

namespace Text

variable {text : Text}

/-! ## Parts of numerals -/

/-- Digits only, or nothing. -/
def AllDigits (text : Text) : Prop := ∀ c ∈ text, c.isDigit = true

/-- A sign, or nothing. -/
def IsSign (text : Text) : Prop := text = [] ∨ text = ['+'] ∨ text = ['-']

/-- Digits with at most one point among them and at least one digit on either side of it. -/
inductive IsSignificand : Text → Prop
  /-- Digits without a point. -/
  | whole {whole : Text} (hne : whole ≠ []) (hwhole : AllDigits whole) : IsSignificand whole
  /-- Digits with a point among or around them. -/
  | point {whole fraction : Text} (hne : whole ≠ [] ∨ fraction ≠ []) (hwhole : AllDigits whole)
      (hfraction : AllDigits fraction) : IsSignificand (whole ++ '.' :: fraction)

/-- A letter `e`, an optional sign, and at least one digit. -/
inductive IsExponent : Text → Prop
  /-- The digits of an exponent are never missing. -/
  | intro {letter : Char} {sign digits : Text} (hletter : letter = 'e' ∨ letter = 'E')
      (hsign : IsSign sign) (hne : digits ≠ []) (hdigits : AllDigits digits) :
      IsExponent (letter :: (sign ++ digits))

/-- The grammar of numerals: an optional sign, a significand, and an optional exponent. -/
inductive MatchesNumeral : Text → Prop
  /-- The three parts in this order. -/
  | intro {sign significand exponent : Text} (hsign : IsSign sign)
      (hsignificand : IsSignificand significand) (hexponent : exponent = [] ∨ IsExponent exponent) :
      MatchesNumeral (sign ++ (significand ++ exponent))

/-! ## Characters of numerals -/

/-- The characters that occur in numerals. -/
def IsNumeralChar (c : Char) : Prop :=
  c.isDigit = true ∨ c = '+' ∨ c = '-' ∨ c = '.' ∨ c = 'e' ∨ c = 'E'

/-- A sign consists of characters of numerals. -/
lemma IsSign.isNumeralChar (h : IsSign text) : ∀ c ∈ text, IsNumeralChar c := by
  rcases h with rfl | rfl | rfl <;> simp [IsNumeralChar]

/-- A significand consists of characters of numerals. -/
lemma IsSignificand.isNumeralChar (h : IsSignificand text) : ∀ c ∈ text, IsNumeralChar c := by
  intro c hc
  cases h with
  | whole hne hwhole => exact .inl (hwhole c hc)
  | point hne hwhole hfraction =>
    rcases List.mem_append.mp hc with hc | hc
    · exact .inl (hwhole c hc)
    · rcases List.mem_cons.mp hc with rfl | hc
      · simp [IsNumeralChar]
      · exact .inl (hfraction c hc)

/-- A significand has a digit. -/
lemma IsSignificand.exists_isDigit (h : IsSignificand text) : ∃ c ∈ text, c.isDigit = true := by
  cases h with
  | whole hne hwhole =>
    obtain ⟨c, hc⟩ := List.exists_mem_of_ne_nil _ hne
    exact ⟨c, hc, hwhole c hc⟩
  | point hne hwhole hfraction =>
    rcases hne with hne | hne
    · obtain ⟨c, hc⟩ := List.exists_mem_of_ne_nil _ hne
      exact ⟨c, List.mem_append_left _ hc, hwhole c hc⟩
    · obtain ⟨c, hc⟩ := List.exists_mem_of_ne_nil _ hne
      exact ⟨c, List.mem_append_right _ (List.mem_cons_of_mem _ hc), hfraction c hc⟩

/-- An exponent consists of characters of numerals. -/
lemma IsExponent.isNumeralChar (h : IsExponent text) : ∀ c ∈ text, IsNumeralChar c := by
  obtain ⟨hletter, hsign, -, hdigits⟩ := h
  intro c hc
  rcases List.mem_cons.mp hc with rfl | hc
  · rcases hletter with rfl | rfl <;> simp [IsNumeralChar]
  · rcases List.mem_append.mp hc with hc | hc
    · exact hsign.isNumeralChar c hc
    · exact .inl (hdigits c hc)

/-- A numeral consists of characters of numerals. -/
lemma MatchesNumeral.isNumeralChar (h : MatchesNumeral text) : ∀ c ∈ text, IsNumeralChar c := by
  obtain ⟨hsign, hsignificand, hexponent⟩ := h
  intro c hc
  rcases List.mem_append.mp hc with hc | hc
  · exact hsign.isNumeralChar c hc
  · rcases List.mem_append.mp hc with hc | hc
    · exact hsignificand.isNumeralChar c hc
    · rcases hexponent with rfl | hexponent
      · simp at hc
      · exact hexponent.isNumeralChar c hc

/-- A numeral has a digit. -/
lemma MatchesNumeral.exists_isDigit (h : MatchesNumeral text) : ∃ c ∈ text, c.isDigit = true := by
  obtain ⟨-, hsignificand, -⟩ := h
  obtain ⟨c, hc, hdigit⟩ := hsignificand.exists_isDigit
  exact ⟨c, List.mem_append_right _ (List.mem_append_left _ hc), hdigit⟩

end Text

end PostfixCalculator
