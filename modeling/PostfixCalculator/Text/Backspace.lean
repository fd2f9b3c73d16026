import PostfixCalculator.Text.Cluster.Basic

/-!
# Backspaces in a typed line

The lines of a session come from a line reader, a library of its own and no part of the
calculator.  At a terminal it lets a line be edited.  This file describes what it does to a line
that is not typed at a terminal but read from a file or another program; that it does so is an
assumption about that library, which `Invocation.run` relies on.

A backspace in such a line takes back the cluster that was typed last.  The clusters are those of
the whole line: what is left when one is taken back is not divided anew.

How much a cluster takes up is kept as a number of bytes modulo 256, one byte for each cluster.
A backspace takes this many bytes off the end.  It therefore takes back all of a cluster of fewer
than 256 bytes.  Of a longer one it leaves a part, unless it would have to cut a character in two,
which it cannot do.
-/

namespace PostfixCalculator

namespace Text

/-- The backspace character. -/
def backspace : Char := '\x08'

/-- The number of bytes of a text in UTF-8. -/
def byteCount (text : Text) : Nat := text.foldr (fun c bytes => c.utf8Size + bytes) 0

/-- What is kept of a line while it is typed. -/
structure Typed where
  /-- The characters, the newest first. -/
  kept : Text
  /-- The sizes of the clusters that can be taken back, the newest first. -/
  sizes : List Nat
deriving DecidableEq

namespace Typed

/-- Take characters of the given number of bytes in all off the front, unless this would cut one
in two. -/
def dropBytes : Nat → Text → Option Text
  | 0, text => some text
  | _ + 1, [] => none
  | size + 1, c :: text =>
    if c.utf8Size ≤ size + 1 then dropBytes (size + 1 - c.utf8Size) text else none

/-- The line after one more cluster, unless a character would be cut in two.  A backspace at the
start of a line does nothing. -/
def enter (typed : Typed) (cluster : Text) : Option Typed :=
  if cluster = [backspace] then
    match typed.sizes with
    | [] => some typed
    | size :: sizes => (dropBytes size typed.kept).map (⟨·, sizes⟩)
  else some ⟨cluster.reverse ++ typed.kept, byteCount cluster % 256 :: typed.sizes⟩

/-- The line after some more clusters. -/
def enterAll (typed : Typed) : List Text → Option Typed
  | [] => some typed
  | cluster :: clusters => (typed.enter cluster).bind (enterAll · clusters)

/-- Without a backspace all that is typed is kept. -/
theorem kept_enterAll {clusters : List Text} (h : [backspace] ∉ clusters) (typed : Typed) :
    (typed.enterAll clusters).map kept = some (clusters.flatten.reverse ++ typed.kept) := by
  induction clusters generalizing typed with
  | nil => rfl
  | cons cluster clusters ih =>
    rw [List.mem_cons, not_or] at h
    rw [enterAll, enter, if_neg (Ne.symm h.1), Option.bind_some, ih h.2]
    simp

end Typed

/-- A line as it is when it has been typed, unless a backspace would cut a character in two. -/
def applyBackspaces (line : Text) : Option Text :=
  ((Typed.mk [] []).enterAll line.clusters).map (·.kept.reverse)

/-- A line without a backspace stays as it is. -/
theorem applyBackspaces_of_not_mem {line : Text} (h : backspace ∉ line) :
    applyBackspaces line = some line := by
  have alone : [backspace] ∉ line.clusters := fun mem =>
    h (flatten_clusters line ▸ List.mem_flatten_of_mem mem List.mem_cons_self)
  have := congrArg (Option.map List.reverse) (Typed.kept_enterAll alone (Typed.mk [] []))
  simpa [applyBackspaces, Function.comp_def] using this

/-- Lines as they are when they have been typed, up to the first in which a backspace would cut a
character in two, and whether there is no such line. -/
def typedLines : List Text → List Text × Bool
  | [] => ([], true)
  | line :: lines =>
    match applyBackspaces line with
    | none => ([], false)
    | some line =>
      let (lines, complete) := typedLines lines
      (line :: lines, complete)

/-- Lines without backspaces stay as they are. -/
theorem typedLines_of_not_mem {lines : List Text} (h : ∀ line ∈ lines, backspace ∉ line) :
    typedLines lines = (lines, true) := by
  induction lines with
  | nil => rfl
  | cons line lines ih =>
    rw [typedLines, applyBackspaces_of_not_mem (h line List.mem_cons_self)]
    simp only [ih fun line mem => h line (List.mem_cons_of_mem _ mem)]

end Text

end PostfixCalculator
