import PostfixCalculator.Postfix.Basic

/-!
# Expression trees

An expression tree is what a well-formed sequence of tokens in postfix order stands for.  It is
written in infix order with parentheses only where precedence or association to the left demand
them: around a left operand that binds less tightly than its operator, and around a right
operand that does not bind more tightly.
-/

namespace PostfixCalculator

/-- A tree of operations over operands. -/
inductive Expr where
  | operand (text : Text)
  | operation (op : Operator) (left right : Expr)
deriving DecidableEq

namespace Expr

/-! ### Postfix order -/

/-- The tokens of a tree in postfix order. -/
def toPostfix : Expr → Postfix
  | operand text => [.operand text]
  | operation op left right => left.toPostfix ++ right.toPostfix ++ [.operator op]

/-- Trees, in which every operand stands for itself. -/
def construction : Interpretation Expr where
  operand text := .ok (operand text)
  operation := operation

/-- The tree that a sequence of tokens in postfix order stands for. -/
def ofPostfix (tokens : Postfix) : Except Error Expr := construction.reduce tokens

/-! ### Infix order -/

/-- How tight the outermost operation of a tree binds; operands bind tighter than any operation. -/
def precedence : Expr → Nat
  | operand _ => 3
  | operation op _ _ => op.precedence

/-- The tokens, in parentheses if these are needed. -/
def parenthesize (needed : Bool) (tokens : List Token) : List Token :=
  if needed then .opening :: tokens ++ [.closing] else tokens

/-- The tokens of a tree in infix order, with no more parentheses than needed. -/
def toInfix : Expr → List Token
  | operand text => [.operand text]
  | operation op left right =>
    parenthesize (left.precedence < op.precedence) left.toInfix ++
      .operator op :: parenthesize (right.precedence ≤ op.precedence) right.toInfix

end Expr

/-- A sequence of tokens in postfix order, rendered in infix order. -/
def Postfix.toInfix (tokens : Postfix) : Except Error Text :=
  (Expr.ofPostfix tokens).map fun tree => Token.text tree.toInfix

end PostfixCalculator
