import PostfixCalculator.Postfix.Basic

/-!
# Conversion from infix to postfix order

The lexemes of an expression in infix order are read one by one.  Operands go to the output at
once.  An operator waits until its right operand is complete: until an operator that binds no
tighter follows in the same group, the group is closed, or the input ends.  Waiting operators
and open groups form a stack, each with its position.

Only what could not be converted at all is refused, which is an empty lexeme or a parenthesis
without a partner.  Whether operands and operators alternate is left to evaluation.
-/

namespace PostfixCalculator

/-- What waits for a later lexeme. -/
inductive Pending where
  /-- An operator that waits for its right operand. -/
  | operator (op : Operator) (position : Nat)
  /-- A group that waits for its closing parenthesis. -/
  | group (position : Nat)
deriving DecidableEq

/-- A conversion under way. -/
structure Conversion where
  /-- The tokens put out so far, the newest first. -/
  output : List Token := []
  /-- What is pending, the newest first. -/
  pending : List Pending := []
  /-- The position of the next lexeme. -/
  position : Nat := 0
deriving DecidableEq

namespace Conversion

/-! ### Releasing operators -/

/-- Put out the pending operators of the innermost group that bind at least as tight as the given
one, and return the output and what is still pending. -/
def release (op : Operator) (output : List Token) : List Pending → List Token × List Pending
  | .operator top position :: pending =>
    if op.precedence ≤ top.precedence then release op (.operator top :: output) pending
    else (output, .operator top position :: pending)
  | pending => (output, pending)

/-- Put out all operators of the innermost group and close it, unless no group is open. -/
def closeGroup? (output : List Token) : List Pending → Option (List Token × List Pending)
  | [] => none
  | .group _ :: pending => some (output, pending)
  | .operator op _ :: pending => closeGroup? (.operator op :: output) pending

/-- Put out all pending operators, unless a group is still open. -/
def releaseAll (output : List Token) : List Pending → Except Error (List Token)
  | [] => .ok output
  | .group position :: _ => .error (.unmatchedParenthesis position)
  | .operator op _ :: pending => releaseAll (.operator op :: output) pending

/-! ### Reading -/

/-- The conversion after one more token. -/
def step (conversion : Conversion) : Token → Except Error Conversion
  | .operand text =>
    .ok ⟨.operand text :: conversion.output, conversion.pending, conversion.position + 1⟩
  | .operator op =>
    let (output, pending) := release op conversion.output conversion.pending
    .ok ⟨output, .operator op conversion.position :: pending, conversion.position + 1⟩
  | .opening =>
    .ok ⟨conversion.output, .group conversion.position :: conversion.pending,
      conversion.position + 1⟩
  | .closing =>
    match closeGroup? conversion.output conversion.pending with
    | some (output, pending) => .ok ⟨output, pending, conversion.position + 1⟩
    | none => .error (.unmatchedParenthesis conversion.position)

/-- The conversion after one more lexeme. -/
def read (conversion : Conversion) (lexeme : Text) : Except Error Conversion :=
  (Token.read conversion.position lexeme).bind conversion.step

/-- The conversion after all the lexemes, or the error at the first that is refused, together with
the lexemes behind that one. -/
def run (conversion : Conversion) : List Text → Except Error Conversion × List Text
  | [] => (.ok conversion, [])
  | lexeme :: lexemes =>
    match conversion.read lexeme with
    | .ok conversion => conversion.run lexemes
    | .error error => (.error error, lexemes)

/-- The tokens in postfix order when no more lexeme follows. -/
def finish (conversion : Conversion) : Except Error Postfix :=
  (releaseAll conversion.output conversion.pending).map List.reverse

end Conversion

/-- The tokens of an expression in infix order, put in postfix order, and the lexemes that were
not read because of an earlier error. -/
def Postfix.ofLexemes (lexemes : List Text) : Except Error Postfix × List Text :=
  let (conversion, unread) := ({} : Conversion).run lexemes
  (conversion.bind Conversion.finish, unread)

end PostfixCalculator
