import PostfixCalculator.Token

/-!
# Sequences of tokens in postfix order

In postfix order an operator stands behind its two operands, and there are no parentheses.  The
type admits every sequence of tokens: whether a sequence is in postfix order is what evaluating
and rendering it find out.

Both are the same walk over the tokens with a stack.  An operand is put on the stack, and an
operator takes the two uppermost entries, the right one first, and puts one back.  What the
entries are is left to an *interpretation*.
-/

namespace PostfixCalculator

/-- A sequence of tokens that is meant to be in postfix order. -/
abbrev Postfix := List Token

/-- What operands and operations mean. -/
structure Interpretation (α : Type) where
  /-- The entry for an operand, which may be refused. -/
  operand : Text → Except Error α
  /-- The entry for an operator on its left and its right operand. -/
  operation : Operator → α → α → α

namespace Interpretation

variable {α : Type} (meaning : Interpretation α)

/-- What the token at a position does to the stack. -/
def step (position : Nat) (stack : List α) : Token → Except Error (List α)
  | .operand text => (meaning.operand text).map (· :: stack)
  | .operator op =>
    match stack with
    | right :: left :: stack => .ok (meaning.operation op left right :: stack)
    | _ => .error (.missingOperands op position)
  | .opening => .error (.notAnOperand Token.opening.lexeme)
  | .closing => .error (.notAnOperand Token.closing.lexeme)

/-- What the tokens from a position on do to the stack, up to the first that is refused. -/
def run (position : Nat) (stack : List α) : Postfix → Except Error (List α)
  | [] => .ok stack
  | token :: tokens =>
    match meaning.step position stack token with
    | .error error => .error error
    | .ok stack => run (position + 1) stack tokens

/-- The only entry of the final stack. -/
def result : List α → Except Error α
  | [] => .error .nothingToEvaluate
  | [value] => .ok value
  | stack => .error (.severalValues stack.length)

/-- The meaning of a whole sequence. -/
def reduce (tokens : Postfix) : Except Error α := (meaning.run 0 [] tokens).bind result

/-- Two entries or more are no result. -/
theorem result_cons_cons (a b : α) (stack : List α) :
    result (a :: b :: stack) = .error (.severalValues (stack.length + 2)) := rfl

/-- A run over two parts is a run over the first and then over the second. -/
theorem run_append (position : Nat) (stack : List α) (first second : Postfix) :
    meaning.run position stack (first ++ second) =
      (meaning.run position stack first).bind
        fun stack => meaning.run (position + first.length) stack second := by
  induction first generalizing position stack with
  | nil => rfl
  | cons token first ih =>
    simp only [List.cons_append, run]
    cases meaning.step position stack token with
    | error error => rfl
    | ok stack =>
      rw [List.length_cons, Nat.add_comm first.length, ← Nat.add_assoc]
      exact ih (position + 1) stack

end Interpretation

end PostfixCalculator
