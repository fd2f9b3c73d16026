import PostfixCalculator.CommandLine
import PostfixCalculator.Proofs.Transcript

/-!
# Replaying a session

The expressions in the blocks of what a session printed, given to a second session as its lines or
to the program one by one as its argument, are answered by the same blocks.  Whatever the first
session did, a block of it is the one of a numeric tree, and the reply to the rendering of such a
tree depends on the tree and the precision alone: not on the line in which the expression was
entered, not on the other lines and not on the spacing.

What remains is that the expressions reach the second session as they are.  They are lines when they
are printed one after the other, no one is passed over as a blank line, and no one has a backspace
or is the argument for strict spacing.
-/

namespace PostfixCalculator

open Text (unlines)

/-! ## Blocks of numeric trees -/

/-- The block that is printed for the rendering of a tree. -/
def Block.ofTree (precision : Nat) (tree : Expr) : Block :=
  ⟨Token.text tree.toInfix, (Reply.ofTree precision tree).text⟩

/-- The blocks of regular replies are those of numeric trees. -/
lemma Reply.exists_trees_of_regular {precision : Nat} {replies : List Reply}
    (h : ∀ reply ∈ replies, reply.Regular precision) :
    ∃ trees : List Expr, (∀ tree ∈ trees, tree.Numeric) ∧
      replies.filterMap block? = trees.map (Block.ofTree precision) := by
  induction replies with
  | nil => exact ⟨[], by simp, rfl⟩
  | cons reply replies ih =>
    obtain ⟨trees, htrees, hblocks⟩ := ih fun reply hreply => h reply (List.mem_cons_of_mem _ hreply)
    have hreply := h reply List.mem_cons_self
    cases hreply with
    | parseError | evaluationError => exact ⟨trees, htrees, hblocks⟩
    | @value tree htree =>
      refine ⟨tree :: trees, ?_, ?_⟩
      · exact List.forall_mem_cons.mpr ⟨htree, htrees⟩
      · rw [List.filterMap_cons_some (by rfl), hblocks, List.map_cons]
        rfl

namespace Settings

variable {settings : Settings} {trees : List Expr}

/-- The blocks in what a session prints are those of numeric trees. -/
lemma exists_trees_of_blocks (settings : Settings) (lines : List Text) :
    ∃ trees : List Expr, (∀ tree ∈ trees, tree.Numeric) ∧
      blocks (settings.transcript lines) = trees.map (Block.ofTree settings.precision) := by
  obtain ⟨trees, htrees, hblocks⟩ :=
    Reply.exists_trees_of_regular fun _ => settings.regular_of_mem_replies
  exact ⟨trees, htrees, (settings.blocks_transcript lines).trans hblocks⟩

/-- The reply to the line with the rendering of a numeric tree. -/
lemma reply?_text_toInfix {tree : Expr} (h : tree.Numeric) :
    settings.reply? (Token.text tree.toInfix) = some (.ofTree settings.precision tree) := by
  rw [reply?, h.all_isBlank, reply_text_toInfix h]
  rfl

/-- The lines with the renderings of numeric trees are answered by the blocks of the trees. -/
lemma transcript_renderings (h : ∀ tree ∈ trees, tree.Numeric) :
    settings.transcript (trees.map fun tree => Token.text tree.toInfix) =
      String.join (trees.map fun tree => (Reply.ofTree settings.precision tree).text) := by
  have hreplies : settings.replies (trees.map fun tree => Token.text tree.toInfix) =
      trees.map (Reply.ofTree settings.precision) := by
    rw [replies, List.filterMap_map, ← List.filterMap_eq_map]
    refine List.filterMap_congr fun tree htree => ?_
    exact reply?_text_toInfix (h tree htree)
  rw [transcript, hreplies, List.map_map]
  rfl

end Settings

/-! ## The second run -/

namespace Invocation

variable {trees : List Expr}

/-- The arguments that select a spacing. -/
def spacingArguments (strict : Bool) : List String := if strict then [strictFlag] else []

/-- The invocation of a session under either spacing. -/
def session (strict : Bool) : Invocation := ofArguments (spacingArguments strict)

/-- The invocation with an expression as the only argument but the one for the spacing. -/
def single (strict : Bool) (expression : Text) : Invocation :=
  ofArguments (spacingArguments strict ++ [String.ofList expression])

/-- A session has no expression among its arguments. -/
lemma expression_session (strict : Bool) : (session strict).expression = none := by
  cases strict <;> decide

/-- The rendering of a numeric tree is not the argument for strict spacing. -/
lemma rendering_ne_strictFlag {tree : Expr} (h : tree.Numeric) :
    String.ofList (Token.text tree.toInfix) ≠ strictFlag := by
  intro heq
  have hs : 's' ∉ Token.text tree.toInfix := h.not_mem_text (by decide) (by decide)
  have htext : Token.text tree.toInfix = strictFlag.toList := by
    rw [← heq, String.toList_ofList]
  rw [htext] at hs
  exact absurd hs (by decide)

/-- The rendering of a numeric tree is the expression when it is an argument. -/
lemma single_text_toInfix {tree : Expr} (h : tree.Numeric) (strict : Bool) :
    single strict (Token.text tree.toInfix) =
      { session strict with expression := some (Token.text tree.toInfix) } := by
  have hne := rendering_ne_strictFlag h
  cases strict with
  | false => simp [single, session, ofArguments, spacingArguments, hne, hne.symm]
  | true => simp [single, session, ofArguments, spacingArguments, hne.symm]

/-- The renderings of numeric trees are the lines of a session that reads them. -/
lemma run_session_renderings (h : ∀ tree ∈ trees, tree.Numeric) (strict keepsHistory : Bool) :
    ((session strict).run (unlines (trees.map fun tree => Token.text tree.toInfix))
      keepsHistory).1 =
      String.join (trees.map fun tree =>
        (Reply.ofTree (session strict).settings.precision tree).text) := by
  have hlines : Text.lines (unlines (trees.map fun tree => Token.text tree.toInfix)) =
      trees.map fun tree => Token.text tree.toInfix := by
    refine Text.lines_unlines fun line hline => ?_
    obtain ⟨tree, htree, rfl⟩ := List.mem_map.mp hline
    exact (h tree htree).isLine
  have htyped : Text.typedLines (trees.map fun tree => Token.text tree.toInfix) =
      (trees.map fun tree => Token.text tree.toInfix, true) := by
    refine Text.typedLines_of_not_mem fun line hline => ?_
    obtain ⟨tree, htree, rfl⟩ := List.mem_map.mp hline
    exact (h tree htree).not_mem_text (by decide) (by decide)
  rw [run, expression_session]
  simp only [hlines, htyped]
  exact Settings.transcript_renderings h

/-- The rendering of a numeric tree as the only argument is answered by the block of the tree. -/
lemma run_single_rendering {tree : Expr} (h : tree.Numeric) (strict keepsHistory : Bool)
    (input : Text) :
    (single strict (Token.text tree.toInfix)).run input keepsHistory =
      ((Reply.ofTree (session strict).settings.precision tree).text, 0) := by
  rw [single_text_toInfix h, run]
  simp only [Settings.reply_text_toInfix h]

/-- **Replay.**  A session can be replayed from what it printed.  What is printed for an input is
the transcript of the lines that were typed.  Whatever the lines of a session are, the blocks in its
transcript are those of the replies with a value, in order.  Their expressions, read under either
spacing by another session, are answered by these blocks and nothing else; and the program given one
of them as its only argument prints its block. -/
theorem run_replay (strict again keepsHistory : Bool) (input : Text) (lines : List Text) :
    ((session strict).run input keepsHistory).1 =
        (session strict).settings.transcript (Text.typedLines (Text.lines input)).1 ∧
      let found := blocks ((session strict).settings.transcript lines)
      found = ((session strict).settings.replies lines).filterMap Reply.block? ∧
        ((session again).run (unlines (found.map Block.expression)) keepsHistory).1 =
          String.join (found.map Block.text) ∧
        found.map (fun block => (single again block.expression).run input keepsHistory) =
          found.map fun block => (block.text, 0) := by
  refine ⟨?_, ?_⟩
  · rw [run, expression_session]
    rfl
  · intro found
    obtain ⟨trees, htrees, hblocks⟩ := (session strict).settings.exists_trees_of_blocks lines
    have hfound : found = trees.map (Block.ofTree (session again).settings.precision) := hblocks
    have hexpressions : found.map Block.expression =
        trees.map fun tree => Token.text tree.toInfix := by
      rw [hfound, List.map_map]
      rfl
    have htexts : found.map Block.text = trees.map fun tree =>
        (Reply.ofTree (session again).settings.precision tree).text := by
      rw [hfound, List.map_map]
      rfl
    refine ⟨Settings.blocks_transcript _ lines, ?_, ?_⟩
    · rw [hexpressions, htexts, run_session_renderings htrees]
    · rw [hfound, List.map_map, List.map_map]
      refine List.map_congr_left fun tree htree => ?_
      exact run_single_rendering (htrees tree htree) again keepsHistory input

end Invocation

end PostfixCalculator
