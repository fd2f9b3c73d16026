import PostfixCalculator.Error

/-!
# Tokens

A token is an operator, a parenthesis, or an operand.  Every lexeme that is none of the six
symbols is an operand and is kept as it is written; whether it is a numeral is asked only when
its value is needed.
-/

namespace PostfixCalculator

/-- A token of an expression. -/
inductive Token where
  | operand (text : Text)
  | operator (op : Operator)
  | opening
  | closing
deriving DecidableEq

namespace Token

/-- The token is an operand, whether or not it is a numeral. -/
def isOperand : Token → Bool
  | operand _ => true
  | _ => false

/-- The token is an operator. -/
def isOperator : Token → Bool
  | operator _ => true
  | _ => false

/-- How a token is written. -/
def lexeme : Token → Text
  | operand text => text
  | operator op => op.lexeme
  | opening => ['(']
  | closing => [')']

/-- The token that a lexeme stands for. -/
def ofLexeme : Text → Token
  | ['('] => opening
  | [')'] => closing
  | lexeme =>
    match Operator.ofLexeme? lexeme with
    | some op => operator op
    | none => operand lexeme

/-- Every token is written as the lexeme it was read from. -/
@[simp] theorem lexeme_ofLexeme (lexeme : Text) : (ofLexeme lexeme).lexeme = lexeme := by
  unfold ofLexeme
  split
  · rfl
  · rfl
  · split
    · rename_i h
      exact (Operator.ofLexeme?_eq_some_iff.mp h).symm
    · rfl

/-- The token of the lexeme at a position; empty lexemes are refused. -/
def read (position : Nat) (lexeme : Text) : Except Error Token :=
  if lexeme.isEmpty then .error (.emptyToken position) else .ok (ofLexeme lexeme)

/-- The tokens of the lexemes from a position on, up to the first that is refused. -/
def readFrom (position : Nat) : List Text → Except Error (List Token)
  | [] => .ok []
  | lexeme :: lexemes =>
    match read position lexeme with
    | .error error => .error error
    | .ok token => (readFrom (position + 1) lexemes).map (token :: ·)

/-- The lexemes of the tokens, separated by single spaces. -/
def text (tokens : List Token) : Text := Text.unwords (tokens.map lexeme)

end Token

end PostfixCalculator
