import PostfixCalculator.Cursor.Basic
import PostfixCalculator.Text.Basic

/-!
# Numerals

A numeral is an optional sign, digits with at most one point among them and at least one digit
on either side of it, and an optional exponent: the letter `e` or `E`, an optional sign, and at
least one digit.

Scanning accepts the longest numeral that starts at the cursor.  It gives back what it accepted
in vain at two places: everything, if there is no digit on either side of the point, and the
exponent's letter and sign, if no digit follows them.
-/

namespace PostfixCalculator

namespace Cursor

/-- Accept the exponent of a numeral if there is a whole one, and nothing otherwise. -/
def skipExponent (cursor : Cursor Char) : Cursor Char :=
  match cursor.acceptAny ['e', 'E'] with
  | (none, after) => after
  | (some _, after) =>
    let (_, after) := after.acceptAny ['+', '-']
    let (hasDigits, after) := after.skipAny Text.digits
    if hasDigits then after else (after.seek cursor.position).2

/-- Accept the longest numeral at the cursor and take out all that is accepted then.  Where no
numeral starts, the cursor stays where it is. -/
def scanNumeral (cursor : Cursor Char) : Option Text × Cursor Char :=
  let (_, after) := cursor.acceptAny ['+', '-']
  let (hasWhole, after) := after.skipAny Text.digits
  let (point, after) := after.accept '.'
  let (hasFraction, after) := if point.isSome then after.skipAny Text.digits else (false, after)
  if hasWhole || hasFraction then
    let (numeral, after) := after.skipExponent.extract
    (some numeral, after)
  else (none, (after.seek cursor.position).2)

end Cursor

namespace Text

/-- A text is a numeral if scanning from its start leaves nothing of it. -/
def isNumeral (text : Text) : Bool :=
  let (numeral, after) := (Cursor.ofList text).scanNumeral
  numeral.isSome && after.remaining.isEmpty

end Text

end PostfixCalculator
