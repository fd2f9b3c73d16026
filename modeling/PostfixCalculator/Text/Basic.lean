/-!
# Text as a list of characters

Expressions, tokens and literals are lists of characters, so that statements about them are
statements about lists.  This file fixes the four separators between tokens, the decimal
digits, the joining of words by single spaces, and the division of a text into lines.
-/

namespace PostfixCalculator

/-- A text is the list of its characters (code points). -/
abbrev Text := List Char

namespace Text

/-! ### Character classes -/

/-- Exactly space, line feed, carriage return and tab separate tokens. -/
def separators : List Char := [' ', '\n', '\r', '\t']

/-- A character separates tokens if it is one of the four `separators`. -/
def isSeparator (c : Char) : Bool := separators.contains c

/-- The ten decimal digits. -/
def digits : List Char := ['0', '1', '2', '3', '4', '5', '6', '7', '8', '9']

theorem isSeparator_iff {c : Char} :
    isSeparator c = true ↔ c = ' ' ∨ c = '\n' ∨ c = '\r' ∨ c = '\t' := by
  simp [isSeparator, separators]

/-- The digits are the characters that the standard library counts as digits. -/
theorem contains_digits (c : Char) : digits.contains c = c.isDigit := by
  rw [Bool.eq_iff_iff, Char.isDigit_iff_toNat]
  constructor
  · intro h
    simp only [digits, List.contains_iff_mem, List.mem_cons, List.not_mem_nil, or_false] at h
    rcases h with rfl | rfl | rfl | rfl | rfl | rfl | rfl | rfl | rfl | rfl <;> decide
  · rintro ⟨low, high⟩
    have : '9'.toNat = '0'.toNat + 9 := rfl
    have : c.toNat ∈ (List.range 10).map ('0'.toNat + ·) :=
      List.mem_map.mpr ⟨c.toNat - '0'.toNat, List.mem_range.mpr (by omega), by omega⟩
    rw [← Char.ofNat_toNat c]
    generalize c.toNat = n at this
    revert n
    decide

/-! ### Words -/

/-- The words in order, a single space between every two of them. -/
def unwords (words : List Text) : Text := [' '].intercalate words

@[simp] theorem unwords_nil : unwords [] = [] := rfl

@[simp] theorem unwords_singleton (word : Text) : unwords [word] = word := by
  simp [unwords]

theorem unwords_cons_cons (first second : Text) (words : List Text) :
    unwords (first :: second :: words) = first ++ ' ' :: unwords (second :: words) := by
  simp [unwords, List.intercalate]

/-! ### Lines -/

/-- A carriage return at the end of a line belongs to the line's end. -/
def dropReturn (line : Text) : Text :=
  if line.getLast? = some '\r' then line.dropLast else line

/-- The lines of a text without their ends.  A line ends with a line feed, or with a carriage
return and a line feed; what follows the last line feed is a line only if it is not empty, and
is kept as it is. -/
def lines (text : Text) : List Text :=
  let pieces := text.splitOnP (· == '\n')
  let last := pieces.getLastD []
  pieces.dropLast.map dropReturn ++ if last.isEmpty then [] else [last]

end Text

end PostfixCalculator
