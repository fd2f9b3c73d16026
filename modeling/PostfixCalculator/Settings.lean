import PostfixCalculator.Conversion
import PostfixCalculator.Decimal.Positional
import PostfixCalculator.Postfix.Evaluation
import PostfixCalculator.Spacing

/-!
# The calculator's settings

The settings fix how a text is divided into tokens and to how many decimal places results are
rounded.  Everything the calculator does with texts is a function of its settings.
-/

namespace PostfixCalculator

/-- How texts are divided into tokens and how results are rounded. -/
structure Settings where
  /-- How separators divide a text into tokens. -/
  spacing : Spacing := .lenient
  /-- The count of decimal places to which results are rounded. -/
  precision : Nat := 4
deriving DecidableEq

namespace Settings

/-- The tokens of an expression in infix order, put in postfix order. -/
def parse (settings : Settings) (text : Text) : Except Error Postfix :=
  (Postfix.ofLexemes (settings.spacing.tokens text)).1

/-- The text in postfix order of a text in infix order. -/
def convert (settings : Settings) (text : Text) : Except Error Text :=
  (settings.parse text).map Token.text

/-- The value of a text in postfix order, as a text.  An empty token is refused before anything
is evaluated. -/
def evaluate (settings : Settings) (text : Text) : Except Error Text :=
  (Token.readFrom 0 (settings.spacing.tokens text)).bind fun tokens =>
    (Postfix.evaluate settings.precision tokens).map Binary64.toText

/-- The value of a text in infix order. -/
def evaluateInfix (settings : Settings) (text : Text) : Except Error Binary64 :=
  (settings.parse text).bind (Postfix.evaluate settings.precision)

end Settings

end PostfixCalculator
