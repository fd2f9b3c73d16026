import PostfixCalculator.Expr
import PostfixCalculator.Settings
import PostfixCalculator.Text.Blank

/-!
# Sessions

In a session every line is an expression of its own in infix order, and blank lines are passed
over.  The reply to an expression is an error or a block of two lines: the expression, rendered
anew, with its value, and its postfix order.
-/

namespace PostfixCalculator

/-- The reply to one expression. -/
inductive Reply where
  /-- The expression could not be converted. -/
  | parseError (error : Error)
  /-- The expression was converted and could not be evaluated. -/
  | evaluationError (error : Error)
  /-- The expression in infix order, its value, and its tokens in postfix order. -/
  | value (rendering : Text) (result : Binary64) (tokens : Postfix)
deriving DecidableEq

/-- The reply as it is printed. -/
def Reply.text : Reply → String
  | parseError error => "Parse error: " ++ error.message ++ "\n"
  | evaluationError error => "Eval error: " ++ error.message ++ "\n"
  | value rendering result tokens =>
    String.ofList rendering ++ " = " ++ String.ofList result.toText ++ "\n  postfix: " ++
      String.ofList (Token.text tokens) ++ "\n"

namespace Settings

/-- The reply to an expression.  A value whose expression could not be rendered is shown with the
expression as it was entered. -/
def reply (settings : Settings) (expression : Text) : Reply :=
  match settings.parse expression with
  | .error error => .parseError error
  | .ok tokens =>
    match Postfix.evaluate settings.precision tokens with
    | .error error => .evaluationError error
    | .ok result =>
      match Postfix.toInfix tokens with
      | .ok rendering => .value rendering result tokens
      | .error _ => .value (Text.trim expression) result tokens

/-- The reply to a line, and none to a blank line. -/
def reply? (settings : Settings) (line : Text) : Option Reply :=
  if line.all Text.isBlank then none else some (settings.reply line)

/-- The replies to the lines of a session. -/
def replies (settings : Settings) (lines : List Text) : List Reply :=
  lines.filterMap settings.reply?

end Settings

end PostfixCalculator
