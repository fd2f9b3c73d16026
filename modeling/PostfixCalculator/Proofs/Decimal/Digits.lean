import Mathlib.Data.List.DropRight
import Mathlib.Data.List.TakeWhile
import Mathlib.Tactic.Ring
import PostfixCalculator.Decimal.Basic
import PostfixCalculator.Proofs.Numeral

/-!
# The digits of numerals

The digits of a numeral in front of its exponent spell a whole number, and its sign, point and
exponent say by what that is multiplied.  Zeros in front of the digits do not count, and zeros
behind them are a power of ten.  The others are the significant digits.
-/

namespace PostfixCalculator

open Text (AllDigits IsSign IsSignificand IsExponent MatchesNumeral)

variable {text text' digits whole fraction sign exponent tail numeral : Text}

/-! ## Lists of digits -/

namespace Text

/-- Digits and digits are digits. -/
lemma AllDigits.append (h : AllDigits text) (h' : AllDigits text') : AllDigits (text ++ text') := by
  intro c hc
  rcases List.mem_append.mp hc with hc | hc
  · exact h c hc
  · exact h' c hc

/-- Digits among digits are digits. -/
lemma AllDigits.of_subset (h : AllDigits text') (hsub : text ⊆ text') : AllDigits text :=
  fun c hc => h c (hsub hc)

/-- The digits of a number. -/
lemma allDigits_toDigits (n : ℕ) : AllDigits (Nat.toDigits 10 n) :=
  fun _ hc => Nat.isDigit_of_mem_toDigits (by decide) (by decide) hc

/-- Zeros are digits. -/
lemma allDigits_replicate_zero (n : ℕ) : AllDigits (List.replicate n '0') := by
  intro c hc
  rw [List.eq_of_mem_replicate hc]
  rfl

/-- Digits without the zeros in front of them and behind them. -/
def trimZeros (digits : Text) : Text := (digits.dropWhile (· == '0')).rdropWhile (· == '0')

end Text

namespace Decimal

/-- Digits behind others move them up. -/
lemma ofDigits_append (text text' : Text) :
    ofDigits (text ++ text') = ofDigits text * 10 ^ text'.length + ofDigits text' := by
  unfold ofDigits
  rw [Nat.ofDigitChars_append, Nat.ofDigitChars_eq_ofDigitChars_zero, Nat.mul_comm]

/-- Zeros spell zero. -/
lemma ofDigits_replicate_zero (n : ℕ) : ofDigits (List.replicate n '0') = 0 := by
  rw [ofDigits, Nat.ofDigitChars_replicate_zero, Nat.mul_zero]

/-- The digits of a number spell it. -/
lemma ofDigits_toDigits (n : ℕ) : ofDigits (Nat.toDigits 10 n) = n := Nat.ofDigitChars_ten_toDigits

/-- A number has no more digits than spell it. -/
lemma ofDigits_lt (h : AllDigits digits) : ofDigits digits < 10 ^ digits.length := by
  induction digits with
  | nil => decide
  | cons c digits ih =>
    have hc : ofDigits [c] ≤ 9 := by
      have := (Char.isDigit_iff_toNat.mp (h c List.mem_cons_self)).2
      have hzero : '0'.toNat = 48 := rfl
      have hnine : '9'.toNat = 57 := rfl
      rw [ofDigits, Nat.ofDigitChars_cons, Nat.ofDigitChars_nil]
      omega
    calc ofDigits ([c] ++ digits) = ofDigits [c] * 10 ^ digits.length + ofDigits digits :=
          ofDigits_append [c] digits
      _ < ofDigits [c] * 10 ^ digits.length + 10 ^ digits.length :=
          Nat.add_lt_add_left (ih (h.of_subset (List.subset_cons_self c digits))) _
      _ = (ofDigits [c] + 1) * 10 ^ digits.length := by ring
      _ ≤ 10 * 10 ^ digits.length := Nat.mul_le_mul_right _ (by omega)
      _ = 10 ^ (c :: digits).length := by rw [List.length_cons, pow_succ']

/-- A whole number is what its significant digits spell, times a power of ten. -/
lemma exists_ofDigits_eq (h : AllDigits digits) :
    ∃ m t, ofDigits digits = m * 10 ^ t ∧ m < 10 ^ digits.trimZeros.length := by
  -- The digits are zeros, those that are left, and zeros.
  have hfront : digits = digits.takeWhile (· == '0') ++ digits.dropWhile (· == '0') :=
    (List.takeWhile_append_dropWhile).symm
  have hbehind : digits.dropWhile (· == '0') =
      digits.trimZeros ++ (digits.dropWhile (· == '0')).rtakeWhile (· == '0') :=
    (List.rdropWhile_append_rtakeWhile).symm
  have hzeros : ∀ {zeros : Text}, (∀ c ∈ zeros, (c == '0') = true) → ofDigits zeros = 0 := by
    intro zeros hzeros
    rw [List.eq_replicate_of_mem fun c hc => beq_iff_eq.mp (hzeros c hc), ofDigits_replicate_zero]
  have htrimmed : AllDigits digits.trimZeros :=
    (h.of_subset (List.dropWhile_suffix _).subset).of_subset (List.rdropWhile_prefix _ _).subset
  refine ⟨ofDigits digits.trimZeros,
    ((digits.dropWhile (· == '0')).rtakeWhile (· == '0')).length, ?_, ofDigits_lt htrimmed⟩
  conv_lhs => rw [hfront, hbehind]
  rw [ofDigits_append, ofDigits_append,
    hzeros fun c hc => List.mem_takeWhile_imp (p := (· == '0')) hc,
    hzeros fun c hc => List.mem_rtakeWhile_imp (p := (· == '0')) hc, zero_mul, zero_add, add_zero]

/-- Zeros that are added do not make more digits significant. -/
lemma length_trimZeros_le (digits : Text) (a b : ℕ) :
    (Text.trimZeros (List.replicate a '0' ++ (digits ++ List.replicate b '0'))).length ≤
      digits.length := by
  have hzero : ∀ n, ∀ c ∈ List.replicate n '0', (c == '0') = true :=
    fun n c hc => beq_iff_eq.mpr (List.eq_of_mem_replicate hc)
  rw [Text.trimZeros, List.dropWhile_append_of_pos (hzero a), List.dropWhile_append]
  split
  · rw [List.dropWhile_eq_nil_iff.mpr (hzero b), List.rdropWhile_nil]
    exact Nat.zero_le _
  · rw [List.rdropWhile, List.reverse_append, List.reverse_replicate,
      List.dropWhile_append_of_pos (hzero b), List.length_reverse]
    calc ((digits.dropWhile (· == '0')).reverse.dropWhile (· == '0')).length
        ≤ (digits.dropWhile (· == '0')).reverse.length := (List.dropWhile_suffix _).length_le
      _ = (digits.dropWhile (· == '0')).length := List.length_reverse
      _ ≤ digits.length := (List.dropWhile_suffix _).length_le

end Decimal

/-! ## Reading numerals -/

namespace Text

/-- The digits of a numeral in front of its exponent. -/
def digitsOfSignificand (numeral : Text) : Text :=
  (numeral.takeWhile fun c => c != 'e' && c != 'E').filter Char.isDigit

/-- The number of significant digits of a numeral. -/
def significantDigits (numeral : Text) : ℕ := (trimZeros (digitsOfSignificand numeral)).length

/-- What follows the digits in front of the point: the point and the digits behind it, or nothing.
-/
def IsPointed (point fraction : Text) : Prop :=
  point = '.' :: fraction ∨ point = [] ∧ fraction = []

/-- A significand is digits with a point and digits behind them, or without. -/
lemma IsSignificand.exists_parts (h : IsSignificand text) :
    ∃ whole point fraction, text = whole ++ point ∧ AllDigits whole ∧ AllDigits fraction ∧
      IsPointed point fraction ∧ (whole ≠ [] ∨ point ≠ []) := by
  cases h with
  | whole hne hwhole =>
    exact ⟨text, [], [], (List.append_nil _).symm, hwhole, fun _ hc => absurd hc List.not_mem_nil,
      Or.inr ⟨rfl, rfl⟩, Or.inl hne⟩
  | @point whole fraction _ hwhole hfraction =>
    exact ⟨whole, '.' :: fraction, fraction, rfl, hwhole, hfraction, Or.inl rfl, Or.inr (by simp)⟩

/-- A digit is none of the letters that begin an exponent. -/
lemma ne_letter_of_isDigit {c : Char} (h : c.isDigit = true) : (c != 'e' && c != 'E') = true := by
  rw [Bool.and_eq_true, bne_iff_ne, bne_iff_ne]
  constructor <;> rintro rfl <;> exact absurd h (by decide)

/-- No character of a sign is a letter or a digit. -/
lemma IsSign.not_letter (h : IsSign sign) :
    (∀ c ∈ sign, (c != 'e' && c != 'E') = true) ∧ sign.filter Char.isDigit = [] := by
  rcases h with rfl | rfl | rfl
  · exact ⟨fun _ hc => absurd hc List.not_mem_nil, rfl⟩
  · exact ⟨List.forall_mem_singleton.mpr rfl, rfl⟩
  · exact ⟨List.forall_mem_singleton.mpr rfl, rfl⟩

/-- No character behind the digits in front of the point is a letter, and the digits among them are
the fraction. -/
lemma IsPointed.not_letter {point : Text} (h : IsPointed point fraction)
    (hfraction : AllDigits fraction) :
    (∀ c ∈ point, (c != 'e' && c != 'E') = true) ∧ point.filter Char.isDigit = fraction := by
  rcases h with rfl | ⟨rfl, rfl⟩
  · refine ⟨fun c hc => ?_, ?_⟩
    · rcases List.mem_cons.mp hc with rfl | hc
      · rfl
      · exact ne_letter_of_isDigit (hfraction c hc)
    · rw [List.filter_cons_of_neg (by decide), List.filter_eq_self]
      exact hfraction
  · exact ⟨fun _ hc => absurd hc List.not_mem_nil, rfl⟩

/-- The digits of a numeral in front of its exponent are those of its parts. -/
lemma digitsOfSignificand_eq {point : Text} (hsign : IsSign sign) (hwhole : AllDigits whole)
    (hfraction : AllDigits fraction) (hpoint : IsPointed point fraction)
    (hexponent : exponent = [] ∨ IsExponent exponent) :
    digitsOfSignificand (sign ++ (whole ++ point ++ exponent)) = whole ++ fraction := by
  have hletter : exponent.takeWhile (fun c => c != 'e' && c != 'E') = [] := by
    rcases hexponent with rfl | ⟨rfl | rfl, -, -, -⟩ <;> rfl
  obtain ⟨hsign, hsignDigits⟩ := hsign.not_letter
  obtain ⟨hpoint, hpointDigits⟩ := hpoint.not_letter hfraction
  rw [digitsOfSignificand, List.takeWhile_append_of_pos hsign, List.append_assoc,
    List.takeWhile_append_of_pos fun c hc => ne_letter_of_isDigit (hwhole c hc),
    List.takeWhile_append_of_pos hpoint, hletter, List.append_nil, List.filter_append,
    List.filter_append, hsignDigits, hpointDigits, List.nil_append, List.filter_eq_self.mpr hwhole]

end Text

namespace Decimal

open Text

/-- A sign that is taken off. -/
lemma takeSign_append {c : Char} (hsign : IsSign sign) (hc : c.isDigit = true ∨ c = '.') :
    takeSign (sign ++ c :: text) = (sign == ['-'], c :: text) := by
  rcases hsign with rfl | rfl | rfl
  · rw [List.nil_append, takeSign.eq_3]
    · rfl
    · rintro rest ⟨rfl, rfl⟩
      exact absurd hc (by decide)
    · rintro rest ⟨rfl, rfl⟩
      exact absurd hc (by decide)
  · rfl
  · rfl

/-- Digits that are taken off. -/
lemma takeDigits_append (h : AllDigits digits) (htail : tail.takeWhile Char.isDigit = []) :
    takeDigits (digits ++ tail) = (digits, tail) := by
  have hdrop : tail.dropWhile Char.isDigit = tail := by
    conv_rhs => rw [← List.takeWhile_append_dropWhile (p := Char.isDigit) (l := tail), htail]
    rfl
  rw [takeDigits, List.takeWhile_append_of_pos h, List.dropWhile_append_of_pos h, htail, hdrop,
    List.append_nil]

/-- The decimal that a numeral spells, by the parts of the numeral. -/
lemma ofNumeral_eq {point : Text} (hsign : IsSign sign) (hwhole : AllDigits whole)
    (hfraction : AllDigits fraction) (hpoint : IsPointed point fraction)
    (hne : whole ≠ [] ∨ point ≠ []) (hexponent : exponent = [] ∨ IsExponent exponent) :
    ofNumeral (sign ++ (whole ++ point ++ exponent)) =
      ⟨sign == ['-'], ofDigits (whole ++ fraction),
        readInt (exponent.drop 1) - fraction.length⟩ := by
  have hnone : exponent.takeWhile Char.isDigit = [] := by
    rcases hexponent with rfl | ⟨rfl | rfl, -, -, -⟩ <;> rfl
  obtain ⟨c, text, hhead, hc⟩ : ∃ c text, whole ++ point ++ exponent = c :: text ∧
      (c.isDigit = true ∨ c = '.') := by
    cases whole with
    | cons c whole => exact ⟨c, _, rfl, Or.inl (hwhole c List.mem_cons_self)⟩
    | nil =>
      rcases hpoint with rfl | ⟨rfl, -⟩
      · exact ⟨'.', _, rfl, Or.inr rfl⟩
      · exact absurd hne (by simp)
  have htaken : takeSign (sign ++ (whole ++ point ++ exponent)) =
      (sign == ['-'], whole ++ point ++ exponent) := by
    rw [hhead, takeSign_append hsign hc]
  have hpointDigits : takeDigits (whole ++ (point ++ exponent)) = (whole, point ++ exponent) := by
    refine takeDigits_append hwhole ?_
    rcases hpoint with rfl | ⟨rfl, -⟩
    · rfl
    · exact hnone
  have hfractionDigits : takeFraction (point ++ exponent) = (fraction, exponent) := by
    rcases hpoint with rfl | ⟨rfl, rfl⟩
    · exact takeDigits_append hfraction hnone
    · rcases hexponent with rfl | ⟨rfl | rfl, -, -, -⟩ <;> rfl
  rw [ofNumeral, htaken]
  dsimp only
  rw [List.append_assoc, hpointDigits]
  dsimp only
  rw [hfractionDigits]

/-- The digits of a numeral in front of its exponent spell the whole number of its decimal. -/
lemma digits_ofNumeral (h : MatchesNumeral numeral) :
    (ofNumeral numeral).digits = ofDigits (digitsOfSignificand numeral) ∧
      AllDigits (digitsOfSignificand numeral) := by
  obtain ⟨hsign, hsignificand, hexponent⟩ := h
  obtain ⟨whole, point, fraction, rfl, hwhole, hfraction, hpoint, hne⟩ := hsignificand.exists_parts
  rw [digitsOfSignificand_eq hsign hwhole hfraction hpoint hexponent,
    ofNumeral_eq hsign hwhole hfraction hpoint hne hexponent]
  exact ⟨rfl, hwhole.append hfraction⟩

/-- The whole number of a numeral is what its significant digits spell, times a power of ten. -/
lemma exists_digits_ofNumeral_eq (h : MatchesNumeral numeral) :
    ∃ m t, (ofNumeral numeral).digits = m * 10 ^ t ∧ m < 10 ^ significantDigits numeral := by
  obtain ⟨hdigits, hall⟩ := digits_ofNumeral h
  rw [hdigits]
  exact exists_ofDigits_eq hall

end Decimal

end PostfixCalculator
