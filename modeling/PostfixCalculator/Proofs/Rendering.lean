import PostfixCalculator.Proofs.Postorder
import PostfixCalculator.Proofs.Reading
import PostfixCalculator.Settings

/-!
# Renderings in infix order

A tree is rendered with parentheses around an operand exactly where the grammar expects a
nonterminal that does not produce the outermost operation of that operand otherwise.  So the
rendering is derived from the grammar, with the tree itself as the tree of the derivation, and
what is known about reading derivations applies: the rendering is read back as the postfix order
it was made from.
-/

namespace PostfixCalculator

open Text (isSeparator)

/-! ## Derivations of renderings -/

namespace Expr

/-- The lexemes of a tree where the nonterminal is expected: in parentheses if the nonterminal
does not produce the outermost operation of the tree otherwise. -/
def lexemesAs (n : Nonterminal) (tree : Expr) : List Text :=
  (parenthesize (tree.precedence < n.level) tree.toInfix).map Token.lexeme

/-- A tree needs no parentheses where its precedence suffices. -/
lemma lexemesAs_of_le {n : Nonterminal} {tree : Expr} (h : n.level ≤ tree.precedence) :
    tree.lexemesAs n = tree.toInfix.map Token.lexeme := by
  simp [lexemesAs, parenthesize, Nat.not_lt.mpr h]

/-- A tree is put in parentheses where its precedence does not suffice. -/
lemma lexemesAs_of_lt {n : Nonterminal} {tree : Expr} (h : tree.precedence < n.level) :
    tree.lexemesAs n = ['('] :: tree.toInfix.map Token.lexeme ++ [[')']] := by
  simp [lexemesAs, parenthesize, h, Token.lexeme]

/-- An operation is written as its left operand, its operator and its right operand.  The left
operand stands where the nonterminal `n` is expected and the right one where `m` is. -/
lemma lexemes_toInfix_operation {op : Operator} {left right : Expr} (n m : Nonterminal)
    (hn : op.precedence = n.level) (hm : m.level = n.level + 1) :
    (operation op left right).toInfix.map Token.lexeme =
      left.lexemesAs n ++ op.lexeme :: right.lexemesAs m := by
  have hleft : left.precedence < op.precedence ↔ left.precedence < n.level := by rw [hn]
  have hright : right.precedence ≤ op.precedence ↔ right.precedence < m.level := by omega
  simp only [toInfix, lexemesAs, hleft, hright, List.map_append, List.map_cons, Token.lexeme]

/-- The lexemes of a tree where `n` is expected are derived from `n`, if those without parentheses
are derived from every nonterminal that needs none. -/
lemma derives_lexemesAs {tree : Expr}
    (h : ∀ n, n.level ≤ tree.precedence → Derives n (tree.toInfix.map Token.lexeme) tree)
    (n : Nonterminal) : Derives n (tree.lexemesAs n) tree := by
  by_cases hlt : tree.precedence < n.level
  · rw [lexemesAs_of_lt hlt]
    exact .of_factor (.group (h .sum tree.level_sum_le_precedence))
  · rw [lexemesAs_of_le (Nat.not_lt.mp hlt)]
    exact h n (Nat.not_lt.mp hlt)

/-- The rendering of a tree is derived from every nonterminal that needs no parentheses. -/
lemma derives_toInfix {tree : Expr}
    (htree : ∀ text, .operand text ∈ tree.toPostfix → IsOperand text) (n : Nonterminal)
    (hn : n.level ≤ tree.precedence) : Derives n (tree.toInfix.map Token.lexeme) tree := by
  induction tree generalizing n with
  | operand text => exact .of_factor (.operand (htree text (by simp [toPostfix])))
  | operation op left right ihl ihr =>
    have hleft := derives_lexemesAs
      (ihl fun text h => htree text (by simp [toPostfix, h]))
    have hright := derives_lexemesAs
      (ihr fun text h => htree text (by simp [toPostfix, h]))
    rcases op.additive_or_multiplicative with hop | hop
    · have hprec := Operator.precedence_of_additive hop
      have hsum := Derives.sum hop (hleft .sum) (hright .product)
      rw [lexemes_toInfix_operation .sum .product hprec rfl]
      exact hsum.of_le (hprec ▸ hn)
    · have hprec := Operator.precedence_of_multiplicative hop
      have hproduct := Derives.product hop (hleft .product) (hright .factor)
      rw [lexemes_toInfix_operation .product .factor hprec rfl]
      exact hproduct.of_le (hprec ▸ hn)

end Expr

/-! ## Texts of renderings -/

/-- Parenthesizing adds nothing but parentheses. -/
lemma Expr.mem_parenthesize {needed : Bool} {tokens : List Token} {token : Token}
    (h : token ∈ parenthesize needed tokens) :
    token ∈ tokens ∨ token = .opening ∨ token = .closing := by
  cases needed with
  | false => exact .inl h
  | true =>
    simp only [parenthesize, if_true, List.cons_append, List.mem_cons, List.mem_append,
      List.not_mem_nil, or_false] at h
    rcases h with h | h | h
    · exact .inr (.inl h)
    · exact .inl h
    · exact .inr (.inr h)

/-- A rendering consists of the tokens of the tree and of parentheses. -/
lemma Expr.mem_toInfix {tree : Expr} {token : Token} (h : token ∈ tree.toInfix) :
    token ∈ tree.toPostfix ∨ token = .opening ∨ token = .closing := by
  induction tree with
  | operand text => exact .inl h
  | operation op left right ihl ihr =>
    simp only [toInfix, List.mem_append, List.mem_cons] at h
    simp only [toPostfix, List.mem_append, List.mem_singleton]
    rcases h with h | h | h
    · exact (mem_parenthesize h).elim (fun h => (ihl h).imp_left fun h => .inl (.inl h)) .inr
    · exact .inl (.inr h)
    · exact (mem_parenthesize h).elim (fun h => (ihr h).imp_left fun h => .inl (.inr h)) .inr

namespace Postfix

variable {tokens : Postfix} {text : Text}

/-- A sequence of tokens is rendered if it is the postfix order of a tree, as the text of that
tree. -/
lemma toInfix_eq_ok_iff : tokens.toInfix = .ok text ↔
    ∃ tree, Expr.ofPostfix tokens = .ok tree ∧ Token.text tree.toInfix = text := by
  rw [toInfix]
  cases Expr.ofPostfix tokens <;> simp [Except.map]

/-- The lexemes of a rendering are derived from the grammar, and the tokens are the postfix order
of the tree of the derivation. -/
lemma exists_derives_of_toInfix
    (hop : ∀ x, Token.operand x ∈ tokens → IsOperand x ∧ ∀ c ∈ x, isSeparator c = false)
    (h : tokens.toInfix = .ok text) :
    ∃ tree : Expr, tree.toPostfix = tokens ∧
      Derives .sum (tree.toInfix.map Token.lexeme) tree ∧
      ∀ spacing : Spacing, spacing.tokens text = tree.toInfix.map Token.lexeme := by
  obtain ⟨tree, htree, rfl⟩ := toInfix_eq_ok_iff.mp h
  obtain rfl := Expr.toPostfix_of_ofPostfix htree
  have hprintable : ∀ token ∈ tree.toInfix, token.Printable := by
    intro token htoken
    cases token with
    | operand x =>
      have hx : Token.operand x ∈ tree.toPostfix := by simpa using Expr.mem_toInfix htoken
      exact Token.printable_operand (hop x hx).1 (hop x hx).2
    | operator | opening | closing => exact Token.printable_of_not_operand (by simp)
  exact ⟨tree, rfl,
    Expr.derives_toInfix (fun x hx => (hop x hx).1) .sum tree.level_sum_le_precedence,
    fun spacing => Token.tokens_text spacing hprintable⟩

/-- **Round trip of renderings.**  If a sequence of tokens, whose operands can be read back, is
rendered in infix order, then the rendering is converted to the same sequence, under either
spacing. -/
theorem parse_toInfix
    (hop : ∀ x, Token.operand x ∈ tokens → IsOperand x ∧ ∀ c ∈ x, isSeparator c = false)
    (h : tokens.toInfix = .ok text) (settings : Settings) : settings.parse text = .ok tokens := by
  obtain ⟨tree, rfl, hderives, htokens⟩ := exists_derives_of_toInfix hop h
  rw [Settings.parse, htokens, (Conversion.reads_of_derives hderives).ofLexemes]

/-- The tokens `8 4 - x 2 * x - -` are rendered as `8 - 4 - ( x * 2 - x )`, with parentheses around
the right difference alone, and are read back from it. -/
theorem parse_toInfix_differences :
    (∀ x, Token.operand x ∈ [Token.operand ['8'], .operand ['4'], .operator .sub, .operand ['x'],
        .operand ['2'], .operator .mul, .operand ['x'], .operator .sub, .operator .sub] →
        IsOperand x ∧ ∀ c ∈ x, isSeparator c = false) ∧
      Postfix.toInfix [.operand ['8'], .operand ['4'], .operator .sub, .operand ['x'],
        .operand ['2'], .operator .mul, .operand ['x'], .operator .sub, .operator .sub] =
        .ok "8 - 4 - ( x * 2 - x )".toList ∧
      ({ spacing := .strict } : Settings).parse "8 - 4 - ( x * 2 - x )".toList =
        .ok [.operand ['8'], .operand ['4'], .operator .sub, .operand ['x'], .operand ['2'],
          .operator .mul, .operand ['x'], .operator .sub, .operator .sub] := by
  have hop : ∀ x, Token.operand x ∈ [Token.operand ['8'], .operand ['4'], .operator .sub,
      .operand ['x'], .operand ['2'], .operator .mul, .operand ['x'], .operator .sub,
      .operator .sub] → IsOperand x ∧ ∀ c ∈ x, isSeparator c = false := by
    intro x hx
    simp only [List.mem_cons, Token.operand.injEq, reduceCtorEq, List.not_mem_nil, or_false,
      false_or] at hx
    rcases hx with rfl | rfl | rfl | rfl | rfl <;>
      exact ⟨by decide, (Text.isWord_singleton rfl).not_separator⟩
  exact ⟨hop, rfl, parse_toInfix hop rfl { spacing := .strict }⟩

end Postfix

end PostfixCalculator
