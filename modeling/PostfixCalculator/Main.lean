import PostfixCalculator.CommandLine

/-!
# The program

Reads the arguments and the standard input, and prints replies as they are found.  A session loads
the history of earlier ones from `~/.rpncalc_history` when it begins and saves it there, with its
own lines added, when it ends.
-/

namespace PostfixCalculator

/-- Answer the lines of the standard input to its end, or to a line that breaks the session off,
and return those that were answered, the blank ones left out, and whether all were read. -/
partial def converse (settings : Settings) (answered : Array String) :
    IO (Array String × Bool) := do
  let input ← (← IO.getStdin).getLine
  if input.isEmpty then
    return (answered, true)
  let (lines, complete) := Text.typedLines (Text.lines input.toList)
  let mut answered := answered
  for line in lines do
    if let some reply := settings.reply? line then
      IO.print reply.text
      answered := answered.push (String.ofList line)
  (← IO.getStdout).flush
  if complete then converse settings answered else return (answered, false)

/-- The file that keeps the history.  Without a home directory there is none. -/
def historyFile : IO (Option String) := do
  return (← IO.getEnv "HOME").map (· ++ "/.rpncalc_history")

/-- The lines of earlier sessions.  A file that cannot be read holds none. -/
def loadHistory : Option String → IO (Array String)
  | none => return #[]
  | some file => do
    try IO.FS.lines file
    catch _ => return #[]

/-- Save lines for later sessions, and say whether that was possible. -/
def saveHistory (history : Array String) : Option String → IO Bool
  | none => return true
  | some file => do
    try
      IO.FS.writeFile file (history.foldl (· ++ · ++ "\n") "")
      return true
    catch _ => return false

/-- Carry an invocation out. -/
def perform (invocation : Invocation) : IO UInt32 := do
  match invocation.expression with
  | some expression =>
    IO.print (invocation.settings.reply expression).text
    return 0
  | none =>
    let file ← historyFile
    let earlier ← loadHistory file
    let (lines, complete) ← converse invocation.settings #[]
    let replied := !lines.isEmpty
    let kept ← if complete && replied then saveHistory (earlier ++ lines) file else pure true
    return (Invocation.exitCode complete replied kept).toUInt32

end PostfixCalculator

/-- Evaluate the expression in the arguments, or the lines of the standard input. -/
def main (arguments : List String) : IO UInt32 :=
  PostfixCalculator.perform (PostfixCalculator.Invocation.ofArguments arguments)
