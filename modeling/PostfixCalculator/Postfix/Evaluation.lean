import PostfixCalculator.Binary64.Places
import PostfixCalculator.Decimal.Basic
import PostfixCalculator.Postfix.Basic

/-!
# Evaluation

The value of an operand is the number its numeral stands for, and it is not rounded to decimal
places; the result of every operation is.
-/

namespace PostfixCalculator

namespace Postfix

/-- The number an operand stands for. -/
def operandValue (text : Text) : Except Error Binary64 :=
  match Binary64.ofText? text with
  | some value => .ok value
  | none => .error (.notAnOperand text)

/-- Numbers, with every result rounded to the given count of decimal places. -/
def arithmetic (places : Nat) : Interpretation Binary64 where
  operand := operandValue
  operation op left right := (op.apply left right).roundPlaces places

/-- The value of an expression in postfix order. -/
def evaluate (places : Nat) (tokens : Postfix) : Except Error Binary64 :=
  (arithmetic places).reduce tokens

end Postfix

end PostfixCalculator
