import PostfixCalculator.Cursor.Basic
import PostfixCalculator.Spacing

/-!
# Taking tokens at a cursor

A token is taken where the cursor stands, and the cursor then stands where the next one is taken.
No more of the source is looked at than it takes to know the token.

Under lenient spacing the separators in front of a token are dropped with it.  Under strict spacing
the separator behind a token is dropped, so that a cursor that stands at a separator has an empty
token in front of it, unless only separators follow.  To know that, the cursor looks for another
character behind the separators and then goes back.
-/

namespace PostfixCalculator

namespace Cursor

open Text (separators)

/-- Take the next token under lenient spacing. -/
def lenientToken (cursor : Cursor Char) : Option Text × Cursor Char :=
  let (_, after) := cursor.skipAny separators
  let (hasToken, after) := after.discard.skipUntilAny separators
  if hasToken then
    let (token, after) := after.extract
    (some token, after)
  else (none, after)

/-- Take the empty token in front of a separator, unless only separators follow. -/
def emptyToken (cursor : Cursor Char) : Option Text × Cursor Char :=
  match cursor.acceptAny separators with
  | (none, after) => (none, after)
  | (some _, after) =>
    let start := after.discard
    let (_, after) := start.skipAny separators
    match after.peek with
    | (none, after) => (none, after)
    | (some _, after) => (some [], (after.seek start.position).2)

/-- Take the next token under strict spacing. -/
def strictToken (cursor : Cursor Char) : Option Text × Cursor Char :=
  let (hasToken, after) := cursor.skipUntilAny separators
  if hasToken then
    let (token, after) := after.extract
    let (_, after) := after.acceptAny separators
    (some token, after.discard)
  else after.emptyToken

/-- Take the next token. -/
def nextToken (spacing : Spacing) (cursor : Cursor Char) : Option Text × Cursor Char :=
  match spacing with
  | .lenient => cursor.lenientToken
  | .strict => cursor.strictToken

end Cursor

end PostfixCalculator
