import PostfixCalculator.Binary64.Arithmetic
import PostfixCalculator.Text.Basic

/-!
# Operators

The four operators are written as one character each, associate to the left, and bind on two
levels: multiplication and division tighter than addition and subtraction.
-/

namespace PostfixCalculator

/-- A binary operator. -/
inductive Operator where
  | add
  | sub
  | mul
  | div
deriving DecidableEq

namespace Operator

/-- The character that an operator is written as. -/
def symbol : Operator → Char
  | add => '+'
  | sub => '-'
  | mul => '*'
  | div => '/'

/-- The lexeme of an operator is its symbol. -/
def lexeme (op : Operator) : Text := [op.symbol]

/-- The operator with the given lexeme, if there is one. -/
def ofLexeme? : Text → Option Operator
  | ['+'] => some add
  | ['-'] => some sub
  | ['*'] => some mul
  | ['/'] => some div
  | _ => none

@[simp] theorem ofLexeme?_lexeme (op : Operator) : ofLexeme? op.lexeme = some op := by
  cases op <;> rfl

theorem ofLexeme?_eq_some_iff {text : Text} {op : Operator} :
    ofLexeme? text = some op ↔ text = op.lexeme := by
  constructor
  · intro h
    unfold ofLexeme? at h
    split at h <;> cases h <;> rfl
  · rintro rfl
    exact ofLexeme?_lexeme op

/-- The operator with the greater precedence binds tighter. -/
def precedence : Operator → Nat
  | add | sub => 1
  | mul | div => 2

/-- The result of an operator on two numbers. -/
def apply : Operator → Binary64 → Binary64 → Binary64
  | add => Binary64.add
  | sub => Binary64.sub
  | mul => Binary64.mul
  | div => Binary64.div

end Operator

end PostfixCalculator
