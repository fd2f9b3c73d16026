import PostfixCalculator.Proofs.Evaluation
import PostfixCalculator.Proofs.Lines
import PostfixCalculator.Proofs.MaximalMunch
import PostfixCalculator.Proofs.Rendering
import PostfixCalculator.Session
import PostfixCalculator.Text.Backspace

/-!
# Renderings of numeric trees

An expression that has a value is the postfix order of a numeric tree.  Its rendering is written
with the characters of numerals, operators, parentheses and spaces, and at least one digit, so that
it can stand in a line of a session and is not passed over there.  The reply to it is the same
rendering again, with the value and the postfix order of the tree, whatever the spacing.
-/

namespace PostfixCalculator

open Text (isSeparator isBlank IsNumeralChar IsLine MatchesNumeral)

/-! ## Characters of renderings -/

/-- The characters that occur in renderings of numeric trees. -/
def Text.IsRenderingChar (c : Char) : Prop :=
  IsNumeralChar c ∨ c = '*' ∨ c = '/' ∨ c = '(' ∨ c = ')' ∨ c = ' '

open Text (IsRenderingChar)

namespace Text

variable {text : Text} {c d : Char}

/-- A character of a numeral is none of the characters that are neither digits nor among the five
others. -/
lemma IsNumeralChar.ne (h : IsNumeralChar c) (hdigit : d.isDigit = false)
    (hd : d ∉ ['+', '-', '.', 'e', 'E']) : c ≠ d := by
  rintro rfl
  simp only [List.mem_cons, List.not_mem_nil, or_false, not_or] at hd
  rcases h with h | rfl | rfl | rfl | rfl | rfl <;> simp_all

/-- A character of a rendering is none of the characters that are neither digits nor among the ten
others. -/
lemma IsRenderingChar.ne (h : IsRenderingChar c) (hdigit : d.isDigit = false)
    (hd : d ∉ ['+', '-', '.', 'e', 'E', '*', '/', '(', ')', ' ']) : c ≠ d := by
  rintro rfl
  simp only [List.mem_cons, List.not_mem_nil, or_false, not_or] at hd
  rcases h with h | rfl | rfl | rfl | rfl | rfl
  · exact h.ne hdigit (by simp [hd]) rfl
  all_goals simp_all

/-- A digit is not blank: every range of blanks lies below the digits or above them. -/
lemma isBlank_of_isDigit (h : c.isDigit = true) : isBlank c = false := by
  have hapart : ∀ range ∈ blanks.ranges, range.2 < '0'.toNat ∨ '9'.toNat < range.1 := by decide
  have hc : '0'.toNat ≤ c.toNat ∧ c.toNat ≤ '9'.toNat := Char.isDigit_iff_toNat.mp h
  rw [Bool.eq_false_iff]
  intro hblank
  obtain ⟨range, hrange, hlow, hhigh⟩ := isBlank_iff.mp hblank
  have := hapart range hrange
  omega

/-- A numeral is an operand, and no character of it is a separator. -/
lemma MatchesNumeral.isOperand (h : MatchesNumeral text) :
    IsOperand text ∧ ∀ c ∈ text, isSeparator c = false := by
  obtain ⟨d, hd, hdigit⟩ := h.exists_isDigit
  refine ⟨⟨List.ne_nil_of_mem hd, fun hmem => ?_⟩, fun c hc => ?_⟩
  · simp only [symbols, List.mem_cons, List.not_mem_nil, or_false] at hmem
    rcases hmem with rfl | rfl | rfl | rfl | rfl | rfl <;>
      obtain rfl := List.mem_singleton.mp hd <;> simp at hdigit
  · rw [Bool.eq_false_iff]
    intro hsep
    rcases isSeparator_iff.mp hsep with rfl | rfl | rfl | rfl <;>
      exact (h.isNumeralChar _ hc).ne (by decide) (by decide) rfl

end Text

/-! ## Tokens of numeric trees -/

namespace Expr

variable {tree : Expr} {text : Text} {token : Token}

/-- The operands of a numeric tree are numerals. -/
lemma Numeric.matchesNumeral (h : tree.Numeric) (hmem : Token.operand text ∈ tree.toPostfix) :
    MatchesNumeral text := by
  induction tree with
  | operand x =>
    obtain rfl : text = x := by simpa [toPostfix] using hmem
    exact Text.isNumeral_iff.mp h
  | operation op left right ihl ihr =>
    simp only [toPostfix, List.mem_append, List.mem_singleton, reduceCtorEq, or_false] at hmem
    rcases hmem with hmem | hmem
    · exact ihl h.1 hmem
    · exact ihr h.2 hmem

/-- The tokens of a numeric tree can be printed and read back. -/
lemma Numeric.printable (h : tree.Numeric) : ∀ token ∈ tree.toPostfix, token.Printable := by
  intro token htoken
  cases token with
  | operand x =>
    obtain ⟨hoperand, hsep⟩ := (h.matchesNumeral htoken).isOperand
    exact Token.printable_operand hoperand hsep
  | operator | opening | closing => exact Token.printable_of_not_operand (by simp)

/-- The tokens of the rendering of a numeric tree can be printed and read back. -/
lemma Numeric.printable_toInfix (h : tree.Numeric) : ∀ token ∈ tree.toInfix, token.Printable := by
  intro token htoken
  rcases mem_toInfix htoken with htoken | rfl | rfl
  · exact h.printable token htoken
  · exact Token.printable_of_not_operand (by simp)
  · exact Token.printable_of_not_operand (by simp)

/-- Every tree is rendered with at least one operand. -/
lemma exists_operand_mem_toInfix (tree : Expr) : ∃ text, Token.operand text ∈ tree.toInfix := by
  induction tree with
  | operand text => exact ⟨text, List.mem_singleton.mpr rfl⟩
  | operation op left right ihl ihr =>
    obtain ⟨text, htext⟩ := ihl
    refine ⟨text, List.mem_append_left _ ?_⟩
    unfold parenthesize
    split
    · exact List.mem_append_left _ (List.mem_cons_of_mem _ htext)
    · exact htext

/-- The rendering of a numeric tree consists of characters of numerals, operators, parentheses and
spaces. -/
lemma Numeric.isRenderingChar (h : tree.Numeric) :
    ∀ c ∈ Token.text tree.toInfix, IsRenderingChar c := by
  intro c hc
  rcases Text.mem_unwords hc with rfl | ⟨word, hword, hc⟩
  · simp [IsRenderingChar]
  · obtain ⟨token, htoken, rfl⟩ := List.mem_map.mp hword
    cases token with
    | operand x =>
      have hx : Token.operand x ∈ tree.toPostfix := by simpa using mem_toInfix htoken
      exact .inl ((h.matchesNumeral hx).isNumeralChar c hc)
    | operator op =>
      obtain rfl : c = op.symbol := List.mem_singleton.mp hc
      cases op <;> simp [IsRenderingChar, IsNumeralChar, Operator.symbol]
    | opening | closing =>
      obtain rfl := List.mem_singleton.mp hc
      simp [IsRenderingChar]

/-- The rendering of a numeric tree has a digit. -/
lemma Numeric.exists_isDigit (h : tree.Numeric) :
    ∃ c ∈ Token.text tree.toInfix, c.isDigit = true := by
  obtain ⟨x, hx⟩ := tree.exists_operand_mem_toInfix
  have hx' : Token.operand x ∈ tree.toPostfix := by simpa using mem_toInfix hx
  obtain ⟨c, hc, hdigit⟩ := (h.matchesNumeral hx').exists_isDigit
  exact ⟨c, Text.mem_unwords_of_mem (List.mem_map_of_mem hx) hc, hdigit⟩

/-- The rendering of a numeric tree has none of the characters that are neither digits nor among the
ten others of renderings. -/
lemma Numeric.not_mem_text (h : tree.Numeric) {d : Char} (hdigit : d.isDigit = false)
    (hd : d ∉ ['+', '-', '.', 'e', 'E', '*', '/', '(', ')', ' ']) :
    d ∉ Token.text tree.toInfix :=
  fun hmem => (h.isRenderingChar d hmem).ne hdigit hd rfl

/-- The rendering of a numeric tree can be printed as a line. -/
lemma Numeric.isLine (h : tree.Numeric) : IsLine (Token.text tree.toInfix) :=
  ⟨h.not_mem_text (by decide) (by decide), h.not_mem_text (by decide) (by decide)⟩

/-- The rendering of a numeric tree starts with a character that is no separator. -/
lemma Numeric.exists_text_eq_cons (h : tree.Numeric) :
    ∃ c text, Token.text tree.toInfix = c :: text ∧ isSeparator c = false := by
  have hprintable := h.printable_toInfix
  obtain ⟨x, hx⟩ := tree.exists_operand_mem_toInfix
  obtain ⟨token, tokens, htokens⟩ := List.exists_cons_of_ne_nil (List.ne_nil_of_mem hx)
  rw [htokens] at hprintable ⊢
  have hword := (hprintable token List.mem_cons_self).isWord
  obtain ⟨c, word, hlexeme⟩ := List.exists_cons_of_ne_nil hword.ne_nil
  obtain ⟨behind, hbehind⟩ := Text.exists_unwords_eq_cons c word (tokens.map Token.lexeme)
  refine ⟨c, behind, ?_, hword.not_separator c (by simp [hlexeme])⟩
  rw [Token.text, List.map_cons, hlexeme, hbehind]

/-- The rendering of a numeric tree is not blank. -/
lemma Numeric.all_isBlank (h : tree.Numeric) :
    (Token.text tree.toInfix).all isBlank = false := by
  obtain ⟨c, hc, hdigit⟩ := h.exists_isDigit
  rw [List.all_eq_false]
  exact ⟨c, hc, by simp [Text.isBlank_of_isDigit hdigit]⟩

end Expr

/-! ## Replies with a value -/

/-- The reply with the rendering, the value and the postfix order of a tree. -/
def Reply.ofTree (precision : Nat) (tree : Expr) : Reply :=
  .value (Token.text tree.toInfix) (tree.value precision) tree.toPostfix

namespace Settings

variable {settings : Settings} {tree : Expr}

/-- The rendering of a numeric tree is converted to its postfix order under either spacing. -/
lemma parse_text_toInfix (h : tree.Numeric) :
    settings.parse (Token.text tree.toInfix) = .ok tree.toPostfix := by
  have hoperand : ∀ x, Token.operand x ∈ tree.toPostfix → IsOperand x :=
    fun x hx => (h.matchesNumeral hx).isOperand.1
  have hderives := Expr.derives_toInfix hoperand .sum tree.level_sum_le_precedence
  rw [parse, Token.tokens_text settings.spacing h.printable_toInfix,
    (Conversion.reads_of_derives hderives).ofLexemes]

/-- The postfix order of a numeric tree is evaluated to the value of the tree. -/
lemma evaluate_toPostfix (h : tree.Numeric) (places : Nat) :
    Postfix.evaluate places tree.toPostfix = .ok (tree.value places) := by
  rw [Postfix.evaluate, Interpretation.reduce_toPostfix]
  exact Postfix.hasValue_arithmetic_iff.mpr ⟨h, rfl⟩

/-- The postfix order of a tree is rendered as the tree is. -/
lemma toInfix_toPostfix (tree : Expr) :
    Postfix.toInfix tree.toPostfix = .ok (Token.text tree.toInfix) := by
  rw [Postfix.toInfix, Expr.ofPostfix_toPostfix]
  rfl

/-- The reply to the rendering of a numeric tree is the rendering, the value and the postfix order
of the tree. -/
lemma reply_text_toInfix (h : tree.Numeric) :
    settings.reply (Token.text tree.toInfix) = .ofTree settings.precision tree := by
  simp only [reply, parse_text_toInfix h, evaluate_toPostfix h, toInfix_toPostfix, Reply.ofTree]

end Settings

end PostfixCalculator
