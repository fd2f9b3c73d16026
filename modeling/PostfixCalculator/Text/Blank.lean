import PostfixCalculator.Text.CodePoints

/-!
# Blank text

A blank is a character with the Unicode property `White_Space`.  Blanks decide which lines of a
session are skipped; they are not the separators between tokens, of which there are only four.
-/

namespace PostfixCalculator

namespace Text

/-- The characters with the property `White_Space`. -/
def blanks : CodePoints where
  ranges :=
    [(0x09, 0x0D), (0x20, 0x20), (0x85, 0x85), (0xA0, 0xA0), (0x1680, 0x1680), (0x2000, 0x200A),
      (0x2028, 0x2029), (0x202F, 0x202F), (0x205F, 0x205F), (0x3000, 0x3000)]
  ascending := by decide

/-- A character is blank if it is one of the `blanks`. -/
def isBlank (c : Char) : Bool := blanks.contains c.toNat

theorem isBlank_iff {c : Char} : isBlank c = true ↔ c.toNat ∈ blanks := CodePoints.contains_iff

/-- The text without the blanks at its two ends. -/
def trim (text : Text) : Text :=
  ((text.dropWhile isBlank).reverse.dropWhile isBlank).reverse

end Text

end PostfixCalculator
