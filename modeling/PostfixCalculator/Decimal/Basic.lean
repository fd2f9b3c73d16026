import PostfixCalculator.Binary64.Nearest
import PostfixCalculator.Numeral

/-!
# Decimals

A decimal is a whole number of any length times a power of ten, with a sign.  It is what a
numeral spells, and it is rounded once, to the nearest binary64 number.  The sign is kept apart
from the digits, because negative zero is a number of its own.
-/

namespace PostfixCalculator

/-- The number `± digits * 10 ^ exponent`. -/
structure Decimal where
  negative : Bool
  digits : Nat
  exponent : Int
deriving DecidableEq

namespace Decimal

/-! ### Reading numerals -/

/-- A leading sign, true for minus, and the text behind it. -/
def takeSign : Text → Bool × Text
  | '-' :: text => (true, text)
  | '+' :: text => (false, text)
  | text => (false, text)

/-- The longest run of digits at the start of a text, and the text behind it. -/
def takeDigits (text : Text) : Text × Text :=
  (text.takeWhile Char.isDigit, text.dropWhile Char.isDigit)

/-- The digits behind a point, and the text behind them; no digits if there is no point. -/
def takeFraction : Text → Text × Text
  | '.' :: text => takeDigits text
  | text => ([], text)

/-- The whole number that a list of digits spells. -/
def ofDigits (digits : Text) : Nat := Nat.ofDigitChars 10 digits 0

/-- The whole number spelled by an optional sign and digits. -/
def readInt (text : Text) : Int :=
  let (negative, digits) := takeSign text
  if negative then -(ofDigits digits : Int) else ofDigits digits

/-- The decimal that a numeral spells: each digit behind the point takes one from the exponent
behind the letter. -/
def ofNumeral (numeral : Text) : Decimal :=
  let (negative, text) := takeSign numeral
  let (whole, text) := takeDigits text
  let (fraction, text) := takeFraction text
  ⟨negative, ofDigits (whole ++ fraction), readInt (text.drop 1) - fraction.length⟩

/-! ### Rounding to binary64 -/

/-- The rank of the magnitude nearest to `digits * 10 ^ exponent`, where at least
`Binary64.infinityRank` stands for infinity.

Exponents that leave no finite magnitude, and those that bring the number below half a quantum,
are answered without computing the power of ten. -/
def rank (digits : Nat) (exponent : Int) : Nat :=
  if digits = 0 then 0
  else if 310 ≤ exponent then Binary64.infinityRank
  else if exponent + digits.log2 + 1076 ≤ 0 then 0
  else
    Binary64.nearestRank (digits * Nat.pow 10 exponent.toNat * Binary64.quantaPerUnit)
      (Nat.pow 10 (-exponent).toNat)

/-- The binary64 number nearest to a decimal. -/
def toBinary64 (decimal : Decimal) : Binary64 :=
  Binary64.ofRank decimal.negative (rank decimal.digits decimal.exponent)

end Decimal

/-- The number that a numeral stands for; other texts stand for none. -/
def Binary64.ofText? (text : Text) : Option Binary64 :=
  if text.isNumeral then some (Decimal.ofNumeral text).toBinary64 else none

end PostfixCalculator
