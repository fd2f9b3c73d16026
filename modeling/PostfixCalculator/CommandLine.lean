import PostfixCalculator.Session
import PostfixCalculator.Text.Backspace

/-!
# The command line

The first argument `--strict`, wherever it stands, turns strict spacing on.  The other arguments,
joined by spaces, are one expression; without any the standard input is a session.

The lines of a session are those that the line reader makes of the standard input, which is
assumed not to be a terminal: `Text.typedLines` says what it does to them.  A session that was
given an expression keeps it as history in the home directory when it ends, and fails with the
exit code 1 only if this does.  It is broken off with the exit code 101 at a line in which a
backspace would cut a character in two.
-/

namespace PostfixCalculator

/-- What the arguments ask for. -/
structure Invocation where
  /-- The settings for all expressions. -/
  settings : Settings
  /-- The expression among the arguments; there is none for a session. -/
  expression : Option Text
deriving DecidableEq

namespace Invocation

/-- The argument that turns strict spacing on. -/
def strictFlag : String := "--strict"

/-- What the arguments ask for. -/
def ofArguments (arguments : List String) : Invocation where
  settings := { spacing := if arguments.contains strictFlag then .strict else .lenient }
  expression :=
    match arguments.erase strictFlag with
    | [] => none
    | words => some (" ".intercalate words).toList

/-- The exit code of a session: whether all lines were read, whether there were any replies, and
whether history can be kept. -/
def exitCode (complete replied keepsHistory : Bool) : Nat :=
  if !complete then 101 else if replied && !keepsHistory then 1 else 0

/-- What is printed and the exit code, given the standard input, which is not a terminal, and
whether the history of a session can be kept. -/
def run (invocation : Invocation) (input : Text) (keepsHistory : Bool) : String × Nat :=
  match invocation.expression with
  | some expression => ((invocation.settings.reply expression).text, 0)
  | none =>
    let (lines, complete) := Text.typedLines (Text.lines input)
    let replies := invocation.settings.replies lines
    (String.join (replies.map Reply.text), exitCode complete (!replies.isEmpty) keepsHistory)

end Invocation

end PostfixCalculator
