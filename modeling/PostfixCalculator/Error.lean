import PostfixCalculator.Operator

/-!
# Errors

Everything that can be wrong with an expression, by its cause.  Positions count tokens from
zero.
-/

namespace PostfixCalculator

/-- The reason why an expression is not converted, evaluated or rendered. -/
inductive Error where
  /-- A lexeme that was to be an operator is none. -/
  | notAnOperator (lexeme : Text)
  /-- A token of an expression in postfix order is neither a numeral nor an operator. -/
  | notAnOperand (lexeme : Text)
  /-- The parenthesis at this position has no partner. -/
  | unmatchedParenthesis (position : Nat)
  /-- The operator at this position finds fewer than two values on the stack. -/
  | missingOperands (op : Operator) (position : Nat)
  /-- There is no token at all. -/
  | nothingToEvaluate
  /-- More than one value is left in the end. -/
  | severalValues (count : Nat)
  /-- The token at this position is empty. -/
  | emptyToken (position : Nat)
deriving DecidableEq

namespace Error

/-- The wording of an error. -/
def message : Error → String
  | notAnOperator lexeme => "`" ++ String.ofList lexeme ++ "` is not an operator"
  | notAnOperand lexeme => "The operator: " ++ String.ofList lexeme ++ " is invalid."
  | unmatchedParenthesis position => "unbalanced parenthesis at token " ++ position.repr
  | missingOperands op position =>
    "operator `" ++ String.ofList op.lexeme ++ "` at token " ++ position.repr ++
      " needs two operands"
  | nothingToEvaluate => "nothing to evaluate"
  | severalValues count => count.repr ++ " values left on the stack, expected one"
  | emptyToken position =>
    "empty token at " ++ position.repr ++ ", tokens must be separated by exactly one space"

end Error

/-- The precedence of the operator with the given lexeme. -/
def Operator.precedenceOf (lexeme : Text) : Except Error Nat :=
  match ofLexeme? lexeme with
  | some op => .ok op.precedence
  | none => .error (.notAnOperator lexeme)

end PostfixCalculator
