import PostfixCalculator.Proofs.Messages
import PostfixCalculator.Proofs.NumericTree

/-!
# What a session prints

A session prints one line for each error and a block of two lines for each value.  The blocks can be
found in what was printed: the second line of a block starts with the label of a postfix order, and
in front of the first equals sign that stands between spaces is the expression.

That no other two lines look like a block follows from what a reply can be.  Every line of it is one
line when it is printed, no first line starts with a space as the label does, and the expression is
the rendering of a numeric tree, which has no equals sign.
-/

namespace PostfixCalculator

open Text (IsLine unlines)

/-! ## Blocks in a text -/

/-- What stands between an expression and its value. -/
def equalsSign : Text := [' ', '=', ' ']

/-- What stands in front of a postfix order. -/
def postfixLabel : Text := "  postfix: ".toList

/-- The text in front of the first equals sign between spaces, if there is one. -/
def beforeEquals : Text → Option Text
  | [] => none
  | c :: text =>
    if equalsSign.isPrefixOf (c :: text) then some [] else (beforeEquals text).map (c :: ·)

/-- A block of two lines with an expression, its value and its postfix order. -/
structure Block where
  /-- The expression in front of the equals sign. -/
  expression : Text
  /-- Both lines with their ends. -/
  text : String
deriving DecidableEq

namespace Block

/-- The block that two lines are, if the first has an equals sign and the second is labelled as a
postfix order. -/
def ofLines? (first second : Text) : Option Block :=
  if postfixLabel.isPrefixOf second then
    (beforeEquals first).map (⟨·, String.ofList (unlines [first, second])⟩)
  else none

/-- The blocks among lines, from the first line on. -/
def ofLines : List Text → List Block
  | first :: second :: lines =>
    match ofLines? first second with
    | some block => block :: ofLines lines
    | none => ofLines (second :: lines)
  | _ => []

end Block

/-- The blocks in a printed text. -/
def blocks (output : String) : List Block := Block.ofLines (Text.lines output.toList)

/-! ## The lines of a reply -/

namespace Reply

/-- The lines in which a reply is printed. -/
def lines : Reply → List Text
  | parseError error => [("Parse error: " ++ error.message).toList]
  | evaluationError error => [("Eval error: " ++ error.message).toList]
  | value rendering result tokens =>
    [rendering ++ equalsSign ++ result.toText, postfixLabel ++ Token.text tokens]

/-- The block in which a value is printed. -/
def block? : Reply → Option Block
  | value rendering result tokens => some ⟨rendering, (value rendering result tokens).text⟩
  | _ => none

/-- A reply is printed as its lines. -/
lemma toList_text (reply : Reply) : reply.text.toList = unlines reply.lines := by
  cases reply with
  | parseError error => exact Text.toList_append_lineFeed _
  | evaluationError error => exact Text.toList_append_lineFeed _
  | value rendering result tokens =>
    have hequals : " = ".toList = equalsSign := by decide
    have hlabel : "\n  postfix: ".toList = '\n' :: postfixLabel := by decide
    refine (Text.toList_append_lineFeed _).trans ?_
    -- The literals are made opaque, so that they are not evaluated character by character.
    generalize " = " = equals at *
    generalize "\n  postfix: " = label at *
    simp [hequals, hlabel, lines, unlines]

/-- Replies are printed as their lines. -/
lemma toList_join_text (replies : List Reply) :
    (String.join (replies.map text)).toList = unlines (replies.flatMap lines) := by
  simp only [String.toList_join, List.flatMap_map, toList_text, unlines, List.flatMap_assoc]

/-- What a reply can be: an error whose message fits in a line, or the value of a numeric tree. -/
inductive Regular (precision : Nat) : Reply → Prop where
  /-- An expression that was not converted. -/
  | parseError {error : Error} (h : IsLine error.quoted) : Regular precision (.parseError error)
  /-- An expression that was not evaluated. -/
  | evaluationError {error : Error} (h : IsLine error.quoted) :
    Regular precision (.evaluationError error)
  /-- An expression with a value. -/
  | value {tree : Expr} (h : tree.Numeric) : Regular precision (ofTree precision tree)

variable {precision : Nat} {reply : Reply} {replies : List Reply}

/-- Everything in a reply is printed in lines. -/
lemma Regular.isLine (h : reply.Regular precision) : ∀ line ∈ reply.lines, IsLine line := by
  intro line hline
  cases h with
  | parseError h =>
    obtain rfl := List.mem_singleton.mp hline
    have hbefore : IsLine "Parse error: ".toList := by decide
    exact hbefore.toList_append (Error.isLine_message h)
  | evaluationError h =>
    obtain rfl := List.mem_singleton.mp hline
    have hbefore : IsLine "Eval error: ".toList := by decide
    exact hbefore.toList_append (Error.isLine_message h)
  | value h =>
    simp only [ofTree, lines, List.mem_cons, List.not_mem_nil, or_false] at hline
    rcases hline with rfl | rfl
    · have hequals : IsLine equalsSign := by decide
      exact (h.isLine.append hequals).append (Binary64.isLine_toText _)
    · have hlabel : IsLine postfixLabel := by decide
      exact hlabel.append (Token.isLine_text h.printable)

/-- The first line of a reply is not labelled as a postfix order. -/
lemma Regular.exists_lines_eq_cons (h : reply.Regular precision) :
    ∃ first behind, reply.lines = first :: behind ∧ postfixLabel.isPrefixOf first = false := by
  have hlabel : postfixLabel = ' ' :: postfixLabel.tail := by decide
  cases h with
  | parseError | evaluationError =>
    refine ⟨_, _, rfl, ?_⟩
    rw [String.toList_append]
    rfl
  | @value tree h =>
    refine ⟨_, _, rfl, ?_⟩
    obtain ⟨c, text, htext, hc⟩ := h.exists_text_eq_cons
    have hspace : ' ' ≠ c := by
      rintro rfl
      exact absurd hc (by decide)
    rw [hlabel, htext]
    simp [List.isPrefixOf, hspace]

end Reply

/-! ## Finding the blocks -/

/-- The text in front of the first equals sign is found if it has no equals sign itself. -/
lemma beforeEquals_append {text : Text} (h : '=' ∉ text) (behind : Text) :
    beforeEquals (text ++ equalsSign ++ behind) = some text := by
  induction text with
  | nil => simp [beforeEquals, equalsSign, List.isPrefixOf]
  | cons c text ih =>
    rw [List.mem_cons, not_or] at h
    have hprefix : equalsSign.isPrefixOf (c :: (text ++ equalsSign ++ behind)) = false := by
      cases text with
      | nil => simp [equalsSign, List.isPrefixOf]
      | cons d text =>
        have hd : '=' ≠ d := fun heq => h.2 (heq ▸ List.mem_cons_self)
        simp [equalsSign, List.isPrefixOf, hd]
    rw [List.cons_append, List.cons_append, beforeEquals, hprefix, ih h.2]
    rfl

namespace Reply

variable {precision : Nat} {reply : Reply} {replies : List Reply}

/-- The lines in which the value of a numeric tree is printed are the block of the value. -/
lemma ofLines?_value {rendering : Text} (h : '=' ∉ rendering) (result : Binary64)
    (tokens : Postfix) :
    Block.ofLines? (rendering ++ equalsSign ++ result.toText) (postfixLabel ++ Token.text tokens) =
      some ⟨rendering, (value rendering result tokens).text⟩ := by
  have htext : String.ofList (unlines (value rendering result tokens).lines) =
      (value rendering result tokens).text := by
    rw [← toList_text, String.ofList_toList]
  have hlabel : postfixLabel.isPrefixOf (postfixLabel ++ Token.text tokens) = true :=
    List.isPrefixOf_iff_prefix.mpr (List.prefix_append _ _)
  rw [Block.ofLines?, hlabel, beforeEquals_append h, ← htext]
  rfl

/-- A line is skipped if the next line is not labelled as a postfix order. -/
lemma ofLines_cons {line : Text} {replies : List Reply}
    (h : ∀ reply ∈ replies, reply.Regular precision) :
    Block.ofLines (line :: replies.flatMap lines) = Block.ofLines (replies.flatMap lines) := by
  cases replies with
  | nil => rfl
  | cons reply replies =>
    obtain ⟨first, behind, hlines, hlabel⟩ := (h reply List.mem_cons_self).exists_lines_eq_cons
    simp [hlines, Block.ofLines, Block.ofLines?, hlabel]

/-- The blocks among the lines of replies are those of the replies with a value. -/
lemma ofLines_flatMap_lines (h : ∀ reply ∈ replies, reply.Regular precision) :
    Block.ofLines (replies.flatMap lines) = replies.filterMap block? := by
  induction replies with
  | nil => rfl
  | cons reply replies ih =>
    have hreplies : ∀ reply ∈ replies, reply.Regular precision :=
      fun reply hreply => h reply (List.mem_cons_of_mem _ hreply)
    have hreply := h reply List.mem_cons_self
    cases hreply with
    | parseError | evaluationError =>
      rw [List.filterMap_cons_none (by rfl), ← ih hreplies]
      exact ofLines_cons hreplies
    | @value tree htree =>
      have hequals : '=' ∉ Token.text tree.toInfix :=
        htree.not_mem_text (by decide) (by decide)
      have hblock := ofLines?_value hequals (tree.value precision) tree.toPostfix
      rw [List.append_assoc] at hblock
      simp [lines, ofTree, Block.ofLines, hblock, block?, ih hreplies]

/-- The blocks in what is printed for replies are those of the replies with a value. -/
theorem blocks_join_text (h : ∀ reply ∈ replies, reply.Regular precision) :
    blocks (String.join (replies.map text)) = replies.filterMap block? := by
  have hlines : ∀ line ∈ replies.flatMap lines, IsLine line := by
    intro line hline
    obtain ⟨reply, hreply, hline⟩ := List.mem_flatMap.mp hline
    exact (h reply hreply).isLine line hline
  rw [blocks, toList_join_text, Text.lines_unlines hlines, ofLines_flatMap_lines h]

example : (blocks "Parse error: unbalanced parenthesis at token 0\n1 + 2 = 3\n  postfix: 1 2 +\n").map
    Block.expression = [['1', ' ', '+', ' ', '2']] := by
  decide

end Reply

/-! ## The replies of a session -/

namespace Settings

variable {settings : Settings}

/-- What an error of an evaluation quotes fits in a line, since it is a token of the expression. -/
lemma isLine_quoted_of_evaluate {expression : Text} {tokens : Postfix} {error : Error}
    (hparse : settings.parse expression = .ok tokens)
    (h : Postfix.evaluate settings.precision tokens = .error error) : IsLine error.quoted := by
  rcases Postfix.quoted_of_evaluate h with hquoted | ⟨token, htoken, hquoted⟩
  · rw [hquoted]
    decide
  · rw [hquoted]
    have hprintable := printable_of_parse hparse token htoken
    exact Text.isLine_of_not_separator hprintable.isWord.not_separator

/-- The reply to an expression is an error whose message fits in a line, or the value of a numeric
tree. -/
theorem regular_reply (settings : Settings) (expression : Text) :
    (settings.reply expression).Regular settings.precision := by
  unfold reply
  cases hparse : settings.parse expression with
  | error error =>
    refine .parseError ?_
    rw [quoted_of_parse hparse]
    decide
  | ok tokens =>
    cases hvalue : Postfix.evaluate settings.precision tokens with
    | error error =>
      simp only [hvalue]
      exact .evaluationError (isLine_quoted_of_evaluate hparse hvalue)
    | ok value =>
      -- Whatever can be evaluated can be rendered.
      obtain ⟨tree, rfl, htree⟩ := Interpretation.reduce_eq_ok_iff.mp hvalue
      obtain ⟨hnumeric, rfl⟩ := Postfix.hasValue_arithmetic_iff.mp htree
      simp only [hvalue, toInfix_toPostfix]
      exact .value hnumeric

/-- What a session prints for its lines. -/
def transcript (settings : Settings) (lines : List Text) : String :=
  String.join ((settings.replies lines).map Reply.text)

/-- The replies of a session are errors whose messages fit in a line, and values of numeric trees. -/
lemma regular_of_mem_replies {lines : List Text} {reply : Reply}
    (h : reply ∈ settings.replies lines) : reply.Regular settings.precision := by
  obtain ⟨line, -, hline⟩ := List.mem_filterMap.mp h
  obtain ⟨-, rfl⟩ : _ ∧ settings.reply line = reply := by simpa [reply?] using hline
  exact settings.regular_reply line

/-- The blocks in what a session prints are those of its replies with a value. -/
theorem blocks_transcript (settings : Settings) (lines : List Text) :
    blocks (settings.transcript lines) = (settings.replies lines).filterMap Reply.block? :=
  Reply.blocks_join_text fun _ => regular_of_mem_replies

end Settings

end PostfixCalculator
