import Mathlib.Data.List.TakeWhile
import PostfixCalculator.Numeral
import PostfixCalculator.Proofs.Cursor.Passing
import PostfixCalculator.Proofs.Numeral

/-!
# Maximal munch

At any cursor, scanning takes the longest numeral with which the items still to come begin, and
stays where it is if they begin with none.

A numeral is a sequence of parts: a sign, digits, a point with digits behind it, and an exponent.
Scanning passes the longest part of each kind, one after the other.  For a sequence of parts in
general this need not be the longest text of the sequence, since too much taken for one part can
be missing in the next.  Here it is, since no part has a character with which a later one can
begin: a text of the sequence either ends within a part, or goes on behind the same part
(`IsLongest.append`).

That there is a digit on either side of the point is a condition on two of the parts together.  It
is left aside until the longest sequence of parts is known.  If that has no such digit, then
neither has any other one, as these are prefixes of it.
-/

namespace PostfixCalculator

namespace Text

variable {p q : Text → Prop} {text part part' rest rest' other : Text} {c : Char}
  {sign whole fraction digits mantissa exponent : Text}

/-! ## Longest prefixes -/

/-- A part is the longest prefix of a text with a property: any other such prefix is one of the
part. -/
structure IsLongest (p : Text → Prop) (text part : Text) : Prop where
  /-- The part has the property. -/
  holds : p part
  /-- The text begins with the part. -/
  begins : part <+: text
  /-- The text begins with nothing else of the property that is longer. -/
  longest : ∀ other, p other → other <+: text → other <+: part

/-- A text of one property, and behind it a text of the other. -/
def Followed (p q : Text → Prop) (text : Text) : Prop :=
  ∃ first second, p first ∧ q second ∧ text = first ++ second

/-- The longest prefix of a sequence of two properties is the longest prefix of the first, followed
by the longest prefix of the second in what is left, if no text of the second begins with a
character from the longest prefix of the first. -/
lemma IsLongest.append (h : IsLongest p text part) (htext : text = part ++ rest)
    (h' : IsLongest q rest part') (hhead : ∀ c other, q (c :: other) → c ∉ part) :
    IsLongest (Followed p q) text (part ++ part') := by
  refine ⟨⟨part, part', h.holds, h'.holds, rfl⟩, ?_, ?_⟩
  · rw [htext]
    exact (List.prefix_append_right_inj part).mpr h'.begins
  · rintro _ ⟨first, second, hfirst, hsecond, rfl⟩ hbegins
    have hpart : first <+: part :=
      h.longest first hfirst ((List.prefix_append first second).trans hbegins)
    obtain ⟨_ | ⟨d, behind⟩, rfl⟩ := hpart
    · -- The first part is taken as a whole, and what is left decides.
      rw [List.append_nil] at htext ⊢
      rw [htext, List.prefix_append_right_inj] at hbegins
      rw [List.prefix_append_right_inj]
      exact h'.longest second hsecond hbegins
    · -- The first part is cut short, so that nothing can follow there.
      cases second with
      | nil =>
        rw [List.append_nil, List.append_assoc]
        exact List.prefix_append _ _
      | cons c second =>
        rw [htext, List.append_assoc, List.prefix_append_right_inj, List.cons_append,
          List.cons_prefix_cons] at hbegins
        obtain ⟨rfl, -⟩ := hbegins
        exact absurd (List.mem_append_right _ List.mem_cons_self) (hhead c second hsecond)

/-- What a test lets pass is the longest prefix of which every character passes it. -/
lemma isLongest_takeWhile (test : Char → Bool) (text : Text) :
    IsLongest (fun part => ∀ c ∈ part, test c = true) text (text.takeWhile test) := by
  refine ⟨fun c hc => List.mem_takeWhile_imp hc, List.takeWhile_prefix test, ?_⟩
  rintro other hother ⟨rest, rfl⟩
  rw [List.takeWhile_append_of_pos hother]
  exact List.prefix_append _ _

/-- If no text of a property that is not empty is a prefix, then the longest prefix is empty. -/
lemma isLongest_nil (hnil : p []) (h : ∀ c other, p (c :: other) → ¬ c :: other <+: text) :
    IsLongest p text [] := by
  refine ⟨hnil, List.nil_prefix, fun other hother hbegins => ?_⟩
  cases other with
  | nil => exact List.nil_prefix
  | cons c other => exact absurd hbegins (h c other hother)

/-- If the texts of a property begin with characters that pass a test, and the first character of a
text does not pass it, then the longest prefix is empty. -/
lemma isLongest_nil_of_takeWhile {test : Char → Bool} (hnone : text.takeWhile test = [])
    (hnil : p []) (htest : ∀ c other, p (c :: other) → test c = true) : IsLongest p text [] := by
  refine isLongest_nil hnil ?_
  rintro c other hother ⟨rest, rfl⟩
  rw [List.cons_append, List.takeWhile_cons_of_pos (htest c other hother)] at hnone
  exact List.cons_ne_nil _ _ hnone

/-- The longest prefix goes on as the longest one behind its first character. -/
lemma IsLongest.cons (h : IsLongest q text part) (hp : p (c :: part))
    (hcons : ∀ d other, p (d :: other) → q other) : IsLongest p (c :: text) (c :: part) := by
  refine ⟨hp, List.cons_prefix_cons.mpr ⟨rfl, h.begins⟩, fun other hother hbegins => ?_⟩
  cases other with
  | nil => exact List.nil_prefix
  | cons d other =>
    rw [List.cons_prefix_cons] at hbegins ⊢
    exact ⟨hbegins.1, h.longest other (hcons d other hother) hbegins.2⟩

/-! ## The parts of a numeral in sequence -/

/-- A point with digits behind it, or nothing. -/
def IsFraction (text : Text) : Prop := text = [] ∨ ∃ digits, AllDigits digits ∧ text = '.' :: digits

/-- An exponent, or nothing. -/
def IsOptionalExponent (text : Text) : Prop := text = [] ∨ IsExponent text

/-- An optional sign, and digits with at most one point, where the digits may be missing. -/
def IsMantissa : Text → Prop := Followed IsSign (Followed AllDigits IsFraction)

/-- Where there are only digits, there is a digit unless there is nothing. -/
lemma AllDigits.exists_isDigit_iff (h : AllDigits text) :
    (∃ c ∈ text, c.isDigit = true) ↔ text ≠ [] := by
  constructor
  · rintro ⟨c, hc, -⟩
    exact List.ne_nil_of_mem hc
  · intro hne
    obtain ⟨c, hc⟩ := List.exists_mem_of_ne_nil _ hne
    exact ⟨c, hc, h c hc⟩

/-- No sign is a digit. -/
lemma IsSign.isDigit_eq_false (h : IsSign text) : ∀ c ∈ text, c.isDigit = false := by
  rcases h with rfl | rfl | rfl <;> simp

/-- What stands behind the sign of a mantissa consists of digits and points. -/
lemma isDigit_or_of_followed (h : Followed AllDigits IsFraction text) :
    ∀ c ∈ text, c.isDigit = true ∨ c = '.' := by
  obtain ⟨whole, fraction, hwhole, hfraction, rfl⟩ := h
  intro c hc
  rcases List.mem_append.mp hc with hc | hc
  · exact .inl (hwhole c hc)
  · rcases hfraction with rfl | ⟨digits, hdigits, rfl⟩
    · simp at hc
    · rcases List.mem_cons.mp hc with rfl | hc
      · exact .inr rfl
      · exact .inl (hdigits c hc)

/-- No mantissa has the letter of an exponent. -/
lemma IsMantissa.not_mem {letter : Char} (h : IsMantissa text)
    (hletter : letter = 'e' ∨ letter = 'E') : letter ∉ text := by
  obtain ⟨sign, behind, hsign, hbehind, rfl⟩ := h
  intro hmem
  rcases List.mem_append.mp hmem with hmem | hmem
  · rcases hsign with rfl | rfl | rfl <;> rcases hletter with rfl | rfl <;> simp at hmem
  · have hclass := isDigit_or_of_followed hbehind letter hmem
    rcases hletter with rfl | rfl <;> simp at hclass

/-- A mantissa has a digit if and only if there is one on either side of the point. -/
lemma exists_isDigit_mantissa_iff (hsign : IsSign sign) (hwhole : AllDigits whole) :
    (∃ c ∈ sign ++ (whole ++ fraction), c.isDigit = true) ↔
      whole ≠ [] ∨ ∃ c ∈ fraction, c.isDigit = true := by
  have hsign' : ¬ ∃ c ∈ sign, c.isDigit = true := by
    rintro ⟨c, hc, hdigit⟩
    simp [hsign.isDigit_eq_false c hc] at hdigit
  rw [← hwhole.exists_isDigit_iff]
  simp only [List.mem_append, or_and_right, exists_or, hsign', false_or]

/-- A numeral is a mantissa with a digit, and behind it an exponent or nothing. -/
lemma matchesNumeral_iff :
    MatchesNumeral text ↔ ∃ mantissa exponent, IsMantissa mantissa ∧
      (∃ c ∈ mantissa, c.isDigit = true) ∧ IsOptionalExponent exponent ∧
      text = mantissa ++ exponent := by
  constructor
  · rintro ⟨hsign, hsignificand, hexponent⟩
    obtain ⟨c, hc, hdigit⟩ := hsignificand.exists_isDigit
    refine ⟨_, _, ⟨_, _, hsign, ?_, rfl⟩, ⟨c, List.mem_append_right _ hc, hdigit⟩, hexponent,
      (List.append_assoc _ _ _).symm⟩
    cases hsignificand with
    | whole hne hwhole => exact ⟨_, [], hwhole, .inl rfl, (List.append_nil _).symm⟩
    | point hne hwhole hfraction => exact ⟨_, _, hwhole, .inr ⟨_, hfraction, rfl⟩, rfl⟩
  · rintro ⟨_, exponent, ⟨sign, _, hsign, ⟨whole, fraction, hwhole, hfraction, rfl⟩, rfl⟩,
      hdigit, hexponent, rfl⟩
    have hany := (exists_isDigit_mantissa_iff hsign hwhole).mp hdigit
    rw [List.append_assoc]
    refine .intro hsign ?_ hexponent
    rcases hfraction with rfl | ⟨digits, hdigits, rfl⟩
    · have hne : whole ≠ [] := by simpa using hany
      rw [List.append_nil]
      exact .whole hne hwhole
    · refine .point (hany.imp_right ?_) hwhole hdigits
      rintro ⟨c, hc, hdigit⟩
      rcases List.mem_cons.mp hc with rfl | hc
      · simp at hdigit
      · exact List.ne_nil_of_mem hc

/-! ## The longest of each part -/

/-- The longest sign, the longest digits behind it and the longest fraction behind these make up the
longest mantissa. -/
lemma IsLongest.isMantissa (hsign : IsLongest IsSign text sign) (htext : text = sign ++ rest)
    (hwhole : IsLongest AllDigits rest whole) (hrest : rest = whole ++ rest')
    (hfraction : IsLongest IsFraction rest' fraction) :
    IsLongest IsMantissa text (sign ++ (whole ++ fraction)) := by
  have hbehind : IsLongest (Followed AllDigits IsFraction) rest (whole ++ fraction) := by
    refine hwhole.append hrest hfraction ?_
    rintro c other (hnil | ⟨digits, -, hpoint⟩) hmem
    · cases hnil
    · obtain ⟨rfl, -⟩ := List.cons.inj hpoint
      exact absurd (hwhole.holds '.' hmem) (by decide)
  refine hsign.append htext hbehind fun c other hother hmem => ?_
  have hclass := isDigit_or_of_followed hother c List.mem_cons_self
  rcases hsign.holds with rfl | rfl | rfl <;> simp_all

/-- The longest sign and the longest digits behind it are the longest text of a sign and digits. -/
lemma IsLongest.signedDigits (hsign : IsLongest IsSign text sign) (htext : text = sign ++ rest)
    (hdigits : IsLongest AllDigits rest digits) :
    IsLongest (Followed IsSign AllDigits) text (sign ++ digits) := by
  refine hsign.append htext hdigits fun c other hother hmem => ?_
  have hdigit := hother c List.mem_cons_self
  simp [hsign.holds.isDigit_eq_false c hmem] at hdigit

/-- Behind the letter of an exponent, the longest sign and digits make up the longest exponent, if
there is a digit. -/
lemma IsLongest.isOptionalExponent (h : IsLongest (Followed IsSign AllDigits) text (sign ++ digits))
    (hletter : c = 'e' ∨ c = 'E') (hsign : IsSign sign) (hne : digits ≠ [])
    (hdigits : AllDigits digits) :
    IsLongest IsOptionalExponent (c :: text) (c :: (sign ++ digits)) := by
  refine h.cons (.inr ⟨hletter, hsign, hne, hdigits⟩) ?_
  rintro d other (hnil | ⟨-, hsign', -, hdigits'⟩)
  · cases hnil
  · exact ⟨_, _, hsign', hdigits', rfl⟩

/-- If only a sign stands behind the letter of an exponent, then there is no exponent. -/
lemma IsLongest.isOptionalExponent_nil (h : IsLongest (Followed IsSign AllDigits) text sign)
    (hsign : IsSign sign) : IsLongest IsOptionalExponent (c :: text) [] := by
  refine isLongest_nil (.inl rfl) fun d other hexponent hbegins => ?_
  rcases hexponent with hnil | ⟨-, hsign', hne, hdigits'⟩
  · cases hnil
  · -- The digits of the exponent would be characters of the sign.
    rw [List.cons_prefix_cons] at hbegins
    have hshort := h.longest _ ⟨_, _, hsign', hdigits', rfl⟩ hbegins.2
    obtain ⟨e, he, hdigit⟩ := (AllDigits.exists_isDigit_iff hdigits').mpr hne
    have hmem : e ∈ sign := hshort.subset (List.mem_append_right _ he)
    simp [hsign.isDigit_eq_false e hmem] at hdigit

/-- Behind the longest mantissa, if it has a digit, the longest exponent completes the longest
numeral. -/
lemma IsLongest.numeral (h : IsLongest IsMantissa text mantissa) (htext : text = mantissa ++ rest)
    (hexponent : IsLongest IsOptionalExponent rest exponent)
    (hdigit : ∃ c ∈ mantissa, c.isDigit = true) :
    IsLongest MatchesNumeral text (mantissa ++ exponent) := by
  have hall : IsLongest (Followed IsMantissa IsOptionalExponent) text (mantissa ++ exponent) := by
    refine h.append htext hexponent ?_
    rintro c other (hnil | ⟨hletter, -⟩)
    · cases hnil
    · exact h.holds.not_mem hletter
  refine ⟨matchesNumeral_iff.mpr ⟨_, _, h.holds, hdigit, hexponent.holds, rfl⟩, hall.begins, ?_⟩
  intro other hother
  obtain ⟨mantissa', exponent', hmantissa', -, hexponent', hsplit⟩ := matchesNumeral_iff.mp hother
  exact hall.longest other ⟨mantissa', exponent', hmantissa', hexponent', hsplit⟩

/-- If the longest mantissa has no digit, then the text begins with no numeral. -/
lemma IsLongest.not_prefix_of_matchesNumeral (h : IsLongest IsMantissa text mantissa)
    (hdigit : ¬ ∃ c ∈ mantissa, c.isDigit = true) (hother : MatchesNumeral other) :
    ¬ other <+: text := by
  intro hbegins
  obtain ⟨mantissa', exponent', hmantissa', ⟨c, hc, hc'⟩, -, rfl⟩ := matchesNumeral_iff.mp hother
  have hshort : mantissa' <+: mantissa :=
    h.longest mantissa' hmantissa' ((List.prefix_append _ _).trans hbegins)
  exact hdigit ⟨c, hshort.subset hc, hc'⟩

end Text

namespace Cursor

open Text (AllDigits IsSign IsFraction IsMantissa IsOptionalExponent MatchesNumeral IsLongest)

variable {cursor after last : Cursor Char}

/-! ## The longest parts are passed -/

/-- Accepting a sign passes the longest sign. -/
lemma exists_passes_sign (cursor : Cursor Char) :
    ∃ sign, IsLongest IsSign cursor.remaining sign ∧
      cursor.Passes sign (cursor.acceptAny ['+', '-']).2 := by
  rcases haccept : cursor.acceptAny ['+', '-'] with ⟨_ | item, after⟩
  · obtain ⟨hpasses, hnone⟩ := passes_of_acceptIf_none haccept
    refine ⟨[], Text.isLongest_nil_of_takeWhile hnone (.inl rfl) ?_, hpasses⟩
    rintro c other (hnil | hplus | hminus)
    · cases hnil
    · simp [(List.cons.inj hplus).1]
    · simp [(List.cons.inj hminus).1]
  · obtain ⟨hpasses, htest⟩ := passes_of_acceptIf_some haccept
    have hitem : item = '+' ∨ item = '-' := by simpa using htest
    have hremaining : cursor.remaining = item :: after.remaining := hpasses.remaining_eq
    have hnil : IsLongest (· = []) after.remaining [] := Text.isLongest_nil rfl (by simp)
    refine ⟨[item], hremaining ▸ hnil.cons ?_ ?_, hpasses⟩
    · rcases hitem with rfl | rfl
      · exact .inr (.inl rfl)
      · exact .inr (.inr rfl)
    · rintro d other (h | h | h)
      · cases h
      · exact (List.cons.inj h).2
      · exact (List.cons.inj h).2

/-- A run of digits passes the longest one, and says whether there were any. -/
lemma exists_passes_digits (cursor : Cursor Char) :
    ∃ digits, IsLongest AllDigits cursor.remaining digits ∧
      cursor.Passes digits (cursor.skipAny Text.digits).2 ∧
      ((cursor.skipAny Text.digits).1 = true ↔ digits ≠ []) := by
  refine ⟨cursor.remaining.takeWhile Text.digits.contains, ?_, passes_advanceWhile _ cursor,
    skipWhile_fst⟩
  rw [funext Text.contains_digits]
  exact Text.isLongest_takeWhile Char.isDigit cursor.remaining

/-- A point and the digits behind it are the longest fraction, and it is known whether there were
any digits. -/
lemma exists_passes_fraction {point : Option Char} {hasFraction : Bool}
    (hpoint : cursor.accept '.' = (point, after))
    (hfraction : (if point.isSome then after.skipAny Text.digits else (false, after)) =
      (hasFraction, last)) :
    ∃ fraction, IsLongest IsFraction cursor.remaining fraction ∧ cursor.Passes fraction last ∧
      (hasFraction = true ↔ ∃ c ∈ fraction, c.isDigit = true) := by
  cases point with
  | none =>
    obtain ⟨rfl, rfl⟩ : false = hasFraction ∧ after = last := by simpa using hfraction
    obtain ⟨hpasses, hnone⟩ := passes_of_acceptIf_none hpoint
    refine ⟨[], Text.isLongest_nil_of_takeWhile hnone (.inl rfl) ?_, hpasses, by simp⟩
    rintro c other (hnil | ⟨digits, -, hdigits⟩)
    · cases hnil
    · simp [(List.cons.inj hdigits).1]
  | some item =>
    obtain ⟨hpasses, htest⟩ := passes_of_acceptIf_some hpoint
    obtain rfl : item = '.' := by simpa using htest
    obtain ⟨digits, hdigits, hpasses', hany⟩ := exists_passes_digits after
    have hskip : after.skipAny Text.digits = (hasFraction, last) := by simpa using hfraction
    rw [hskip] at hpasses' hany
    have hremaining : cursor.remaining = '.' :: after.remaining := hpasses.remaining_eq
    refine ⟨'.' :: digits, hremaining ▸ hdigits.cons (.inr ⟨digits, hdigits.holds, rfl⟩) ?_,
      hpasses.append hpasses', ?_⟩
    · rintro d other (h | ⟨digits', hdigits', h⟩)
      · cases h
      · rw [(List.cons.inj h).2]
        exact hdigits'
    · have hpoint' : Char.isDigit '.' = false := rfl
      rw [hany, ← hdigits.holds.exists_isDigit_iff]
      simp [hpoint']

/-- Skipping an exponent passes the longest one. -/
lemma exists_passes_exponent (cursor : Cursor Char) :
    ∃ exponent, IsLongest IsOptionalExponent cursor.remaining exponent ∧
      cursor.Passes exponent cursor.skipExponent := by
  unfold skipExponent
  rcases haccept : cursor.acceptAny ['e', 'E'] with ⟨_ | letter, after⟩
  · obtain ⟨hpasses, hnone⟩ := passes_of_acceptIf_none haccept
    refine ⟨[], Text.isLongest_nil_of_takeWhile hnone (.inl rfl) ?_, hpasses⟩
    rintro c other (hnil | ⟨hletter, -⟩)
    · cases hnil
    · simpa using hletter
  · obtain ⟨hpasses, htest⟩ := passes_of_acceptIf_some haccept
    have hletter : letter = 'e' ∨ letter = 'E' := by simpa using htest
    have hremaining : cursor.remaining = letter :: after.remaining := hpasses.remaining_eq
    obtain ⟨sign, hsign, hpasses'⟩ := exists_passes_sign after
    rcases hsigned : after.acceptAny ['+', '-'] with ⟨signed, after'⟩
    rw [hsigned] at hpasses'
    obtain ⟨digits, hdigits, hpasses'', hany⟩ := exists_passes_digits after'
    rcases hskip : after'.skipAny Text.digits with ⟨hasDigits, last⟩
    rw [hskip] at hpasses'' hany
    have hall := (hpasses.append hpasses').append hpasses''
    have hbehind := hsign.signedDigits hpasses'.remaining_eq hdigits
    simp only [hsigned, hskip]
    by_cases hdigit : hasDigits = true
    · rw [if_pos hdigit]
      refine ⟨letter :: (sign ++ digits), ?_, by simpa using hall⟩
      rw [hremaining]
      exact hbehind.isOptionalExponent hletter hsign.holds (hany.mp hdigit) hdigits.holds
    · rw [if_neg hdigit]
      obtain rfl : digits = [] := by simpa [hdigit] using hany
      rw [List.append_nil] at hbehind
      refine ⟨[], ?_, hall.seek⟩
      rw [hremaining]
      exact hbehind.isOptionalExponent_nil hsign.holds

/-! ## Scanning -/

/-- Scanning passes the longest numeral and takes it out together with what was accepted before; if
there is none, then nothing is passed. -/
lemma scanNumeral_cases (cursor : Cursor Char) :
    (∃ numeral last, IsLongest MatchesNumeral cursor.remaining numeral ∧
      cursor.Passes numeral last ∧
      cursor.scanNumeral = (some (cursor.accepted.reverse ++ numeral), last.discard)) ∨
    ((∀ other, MatchesNumeral other → ¬ other <+: cursor.remaining) ∧
      ∃ last, cursor.Passes [] last ∧ cursor.scanNumeral = (none, last)) := by
  unfold scanNumeral
  obtain ⟨sign, hsign, hpasses₁⟩ := exists_passes_sign cursor
  rcases hsigned : cursor.acceptAny ['+', '-'] with ⟨signed, c₁⟩
  rw [hsigned] at hpasses₁
  obtain ⟨whole, hwhole, hpasses₂, hany⟩ := exists_passes_digits c₁
  rcases hskip : c₁.skipAny Text.digits with ⟨hasWhole, c₂⟩
  rw [hskip] at hpasses₂ hany
  rcases hpoint : c₂.accept '.' with ⟨point, c₃⟩
  rcases hdigits : (if point.isSome then c₃.skipAny Text.digits else (false, c₃)) with
    ⟨hasFraction, c₄⟩
  obtain ⟨fraction, hfraction, hpasses₃, hany'⟩ := exists_passes_fraction hpoint hdigits
  have hmantissa : IsLongest IsMantissa cursor.remaining (sign ++ (whole ++ fraction)) :=
    hsign.isMantissa hpasses₁.remaining_eq hwhole hpasses₂.remaining_eq hfraction
  have hpassed := hpasses₁.append (hpasses₂.append hpasses₃)
  have hdigit : (hasWhole || hasFraction) = true ↔
      ∃ c ∈ sign ++ (whole ++ fraction), c.isDigit = true := by
    rw [Bool.or_eq_true_iff, hany, hany', Text.exists_isDigit_mantissa_iff hsign.holds hwhole.holds]
  obtain ⟨exponent, hexponent, hpasses₄⟩ := exists_passes_exponent c₄
  simp only [hskip, hpoint, hdigits]
  by_cases h : (hasWhole || hasFraction) = true
  · rw [if_pos h]
    have hall := hpassed.append hpasses₄
    refine .inl ⟨_, _, hmantissa.numeral hpassed.remaining_eq hexponent (hdigit.mp h), hall, ?_⟩
    simp [extract, hall.accepted_eq]
  · rw [if_neg h]
    refine .inr ⟨fun other hother => ?_, _, hpassed.seek, rfl⟩
    exact hmantissa.not_prefix_of_matchesNumeral (fun hex => h (hdigit.mpr hex)) hother

end Cursor

open Text (IsLongest MatchesNumeral)

/-- A text counts as a numeral if and only if it is one by the grammar. -/
lemma Text.isNumeral_iff {text : Text} : text.isNumeral = true ↔ MatchesNumeral text := by
  unfold isNumeral
  rcases (Cursor.ofList text).scanNumeral_cases with
    ⟨numeral, last, hlongest, hpasses, hscan⟩ | ⟨hnone, last, -, hscan⟩
  · have hremaining : text = numeral ++ last.remaining := hpasses.remaining_eq
    have hwhole : last.remaining = [] ↔ MatchesNumeral text := by
      constructor
      · intro hnil
        rw [hremaining, hnil, List.append_nil]
        exact hlongest.holds
      · intro hmatches
        have hshort : text <+: numeral := hlongest.longest text hmatches (List.prefix_refl text)
        have hlength := hshort.length_le
        rw [hremaining, List.length_append] at hlength
        exact List.length_eq_zero_iff.mp (by omega)
    simp [hscan, hwhole]
  · have hnot : ¬ MatchesNumeral text := fun h => hnone text h (List.prefix_refl text)
    simp [hscan, hnot]

/-- **Maximal munch.**  If the items still to come begin with a numeral, then scanning returns what
was accepted before and the longest such numeral; the cursor's position is then zero, and the rest
is still to come.  If they begin with none, then scanning returns nothing, and leaves the cursor
where it was.  A text counts as a numeral if and only if the whole of it is one. -/
theorem Cursor.scanNumeral_maximal_munch :
    (∀ cursor : Cursor Char,
      (∃ numeral after, IsLongest MatchesNumeral cursor.remaining numeral ∧
        cursor.scanNumeral = (some (cursor.accepted.reverse ++ numeral), after) ∧
        after.position = 0 ∧ cursor.remaining = numeral ++ after.remaining) ∨
      ((∀ other, MatchesNumeral other → ¬ other <+: cursor.remaining) ∧
        ∃ after, cursor.scanNumeral = (none, after) ∧ after.accepted = cursor.accepted ∧
          after.position = cursor.position ∧ after.remaining = cursor.remaining)) ∧
    ∀ text : Text, text.isNumeral = true ↔ MatchesNumeral text := by
  refine ⟨fun cursor => ?_, fun text => Text.isNumeral_iff⟩
  rcases cursor.scanNumeral_cases with
    ⟨numeral, last, hlongest, hpasses, hscan⟩ | ⟨hnone, last, hpasses, hscan⟩
  · refine .inl ⟨numeral, last.discard, hlongest, hscan, position_discard last, ?_⟩
    rw [remaining_discard]
    exact hpasses.remaining_eq
  · have haccepted : last.accepted = cursor.accepted := hpasses.accepted_eq
    refine .inr ⟨hnone, last, hscan, haccepted, ?_, hpasses.remaining_eq.symm⟩
    rw [position, position, haccepted]

/-- The letter and the sign of an exponent without digits are left. -/
example :
    ((Cursor.ofList ['-', '.', '5', 'e', '+', 'x']).scanNumeral).1 = some ['-', '.', '5'] := by
  decide

end PostfixCalculator
