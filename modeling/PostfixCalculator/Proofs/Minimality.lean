import PostfixCalculator.Proofs.Alternation
import PostfixCalculator.Proofs.Rendering

/-!
# Renderings have the fewest parentheses

Among all grammatical ways to write an expression, its rendering is the one that is left when
every pair of parentheses is removed that can be.

The proof follows the derivation of an arbitrary grammatical sequence.  If each operand of an
operation reduces to its own lexemes as they stand where its nonterminal is expected, then the
operation reduces to its rendering, since a rendering has parentheses around an operand exactly
where the nonterminal expected there cannot do without.  Where a derivation passes to a weaker
nonterminal, or puts a sum in parentheses, at most the outermost pair is removed.

A removal keeps a sequence grammatical.  So if a pair could be removed from the rendering without
a change to the conversion, then the result would again reduce to the rendering, although it has
fewer parentheses.
-/

namespace PostfixCalculator

open Relation
open Text (isSeparator)

variable {n m : Nonterminal} {lexemes lexemes' left left' right right' : List Text} {tree : Expr}

/-! ## Reductions to renderings -/

/-- The operands of a derived tree are operands. -/
lemma Derives.isOperand (h : Derives n lexemes tree) :
    ∀ text, Token.operand text ∈ tree.toPostfix → IsOperand text := by
  induction h with
  | sum _ _ _ ihl ihr | product _ _ _ ihl ihr =>
    intro text htext
    simp only [Expr.toPostfix, List.mem_append, List.mem_singleton, reduceCtorEq, or_false] at htext
    exact htext.elim (ihl text) (ihr text)
  | ofProduct _ ih | ofFactor _ ih | group _ ih => exact ih
  | operand hx =>
    intro text htext
    obtain rfl : text = _ := by simpa [Expr.toPostfix] using htext
    exact hx

/-- The rendering of a derived tree is balanced. -/
lemma Derives.balanced_toInfix (h : Derives n lexemes tree) :
    Balanced (tree.toInfix.map Token.lexeme) :=
  (Expr.derives_toInfix h.isOperand .sum tree.level_sum_le_precedence).balanced

/-- Pairs can be removed on either side of a lexeme. -/
lemma removesPairs_sides (x : Text) (hleft : ReflTransGen RemovesPair left left')
    (hright : ReflTransGen RemovesPair right right') :
    ReflTransGen RemovesPair (left ++ x :: right) (left' ++ x :: right') := by
  have hl := removesPairs_append hleft [] (x :: right)
  have hr := removesPairs_append hright (left' ++ [x]) []
  simp only [List.nil_append, List.append_nil, List.append_assoc, List.singleton_append] at hl hr
  exact hl.trans hr

/-- The parentheses around a rendering are removed where the nonterminal that is expected does not
need them. -/
lemma removesPairs_parenthesized (htree : Balanced (tree.toInfix.map Token.lexeme))
    (n : Nonterminal) :
    ReflTransGen RemovesPair (['('] :: tree.toInfix.map Token.lexeme ++ [[')']])
      (tree.lexemesAs n) := by
  by_cases hlt : tree.precedence < n.level
  · rw [Expr.lexemesAs_of_lt hlt]
  · rw [Expr.lexemesAs_of_le (Nat.not_lt.mp hlt)]
    have hpair := RemovesPair.intro [] [] htree
    simp only [List.nil_append, List.append_nil] at hpair
    exact .single hpair

/-- A weaker nonterminal needs no more parentheses. -/
lemma removesPairs_lexemesAs (htree : Balanced (tree.toInfix.map Token.lexeme))
    (hle : n.level ≤ m.level) :
    ReflTransGen RemovesPair (tree.lexemesAs m) (tree.lexemesAs n) := by
  by_cases hlt : tree.precedence < m.level
  · rw [Expr.lexemesAs_of_lt hlt]
    exact removesPairs_parenthesized htree n
  · have hm : m.level ≤ tree.precedence := Nat.not_lt.mp hlt
    rw [Expr.lexemesAs_of_le hm, Expr.lexemesAs_of_le (hle.trans hm)]

/-- An operation reduces to its lexemes if its operands reduce to theirs, each as it stands where
its nonterminal is expected. -/
lemma removesPairs_operation {op : Operator} {a b : Expr} (hn : op.precedence = n.level)
    (hm : m.level = n.level + 1) (hleft : ReflTransGen RemovesPair left (a.lexemesAs n))
    (hright : ReflTransGen RemovesPair right (b.lexemesAs m)) :
    ReflTransGen RemovesPair (left ++ op.lexeme :: right)
      ((Expr.operation op a b).lexemesAs n) := by
  have hle : n.level ≤ (Expr.operation op a b).precedence := hn.ge
  rw [Expr.lexemesAs_of_le hle, Expr.lexemes_toInfix_operation n m hn hm]
  exact removesPairs_sides op.lexeme hleft hright

/-- Derived lexemes reduce to the lexemes of their tree as they stand where the nonterminal is
expected. -/
theorem Derives.removesPairs (h : Derives n lexemes tree) :
    ReflTransGen RemovesPair lexemes (tree.lexemesAs n) := by
  induction h with
  | sum hop _ _ ihl ihr =>
    exact removesPairs_operation (Operator.precedence_of_additive hop) rfl ihl ihr
  | ofProduct h ih => exact ih.trans (removesPairs_lexemesAs h.balanced_toInfix (by decide))
  | product hop _ _ ihl ihr =>
    exact removesPairs_operation (Operator.precedence_of_multiplicative hop) rfl ihl ihr
  | ofFactor h ih => exact ih.trans (removesPairs_lexemesAs h.balanced_toInfix (by decide))
  | operand hx => exact .refl
  | @group lexemes tree h ih =>
    rw [Expr.lexemesAs_of_le tree.level_sum_le_precedence] at ih
    exact (removesPairs_append ih [['(']] [[')']]).trans
      (removesPairs_parenthesized h.balanced_toInfix .factor)

/-- Grammatical lexemes stay grammatical when matched pairs of parentheses are removed. -/
lemma Grammatical.removePairs (h : Grammatical lexemes)
    (hpairs : ReflTransGen RemovesPair lexemes lexemes') : Grammatical lexemes' := by
  induction hpairs with
  | refl => exact h
  | tail _ hpair ih => exact ih.removePair hpair

/-! ## The rendering among all spellings -/

namespace Postfix

variable {tokens : Postfix} {text : Text}

/-- Grammatical lexemes reduce to the rendering of what they are converted to. -/
lemma removesPairs_of_ofLexemes (h : Grammatical lexemes)
    (hconv : (ofLexemes lexemes).1 = .ok tree.toPostfix) :
    ReflTransGen RemovesPair lexemes (tree.toInfix.map Token.lexeme) := by
  obtain ⟨tree', hderives⟩ := h
  have hsame : tree' = tree := by
    rw [(Conversion.reads_of_derives hderives).ofLexemes, Except.ok.injEq] at hconv
    have hfound := Expr.ofPostfix_toPostfix tree'
    rw [hconv, Expr.ofPostfix_toPostfix] at hfound
    exact (Except.ok.inj hfound).symm
  rw [← Expr.lexemesAs_of_le tree.level_sum_le_precedence, ← hsame]
  exact hderives.removesPairs

/-- **Least parentheses.**  If a sequence of tokens, whose operands can be read back, is rendered
in infix order, then the lexemes of the rendering are grammatical and are converted to the
sequence.  Any other grammatical lexemes that are converted to it reduce to them by the removal of
matched pairs of parentheses, and have more parentheses.  No pair can be removed from the
rendering itself without a change to what it is converted to. -/
theorem toInfix_least_parentheses
    (hop : ∀ x, Token.operand x ∈ tokens → IsOperand x ∧ ∀ c ∈ x, isSeparator c = false)
    (h : tokens.toInfix = .ok text) (spacing : Spacing) :
    (Grammatical (spacing.tokens text) ∧
      (ofLexemes (spacing.tokens text)).1 = .ok tokens) ∧
    (∀ lexemes, Grammatical lexemes → (ofLexemes lexemes).1 = .ok tokens →
      ReflTransGen RemovesPair lexemes (spacing.tokens text) ∧
      (lexemes ≠ spacing.tokens text →
        parentheses (spacing.tokens text) < parentheses lexemes)) ∧
    ∀ lexemes, TransGen RemovesPair (spacing.tokens text) lexemes →
      (ofLexemes lexemes).1 ≠ .ok tokens := by
  obtain ⟨tree, rfl, hderives, htokens⟩ := exists_derives_of_toInfix hop h
  rw [htokens spacing]
  have hreads := (Conversion.reads_of_derives hderives).ofLexemes
  refine ⟨⟨⟨tree, hderives⟩, by rw [hreads]⟩, ?_, ?_⟩
  · intro lexemes hgrammatical hconv
    have hpairs := removesPairs_of_ofLexemes hgrammatical hconv
    refine ⟨hpairs, fun hne => ?_⟩
    rcases eq_or_parentheses_lt hpairs with heq | hlt
    · exact absurd heq.symm hne
    · exact hlt
  · intro lexemes hremoved hconv
    have hgrammatical : Grammatical lexemes :=
      Grammatical.removePairs ⟨tree, hderives⟩ hremoved.to_reflTransGen
    have hlt := parentheses_lt_of_transGen hremoved
    rcases eq_or_parentheses_lt (removesPairs_of_ofLexemes hgrammatical hconv) with heq | hlt'
    · rw [heq] at hlt
      exact lt_irrefl _ hlt
    · exact lt_asymm hlt hlt'

/-- The tokens `8 4 x - -` are rendered as `8 - ( 4 - x )`, and the pair around the `8` can be
removed from the spelling `( 8 ) - ( 4 - x )`. -/
theorem toInfix_least_parentheses_difference :
    (∀ x, Token.operand x ∈ [Token.operand ['8'], .operand ['4'], .operand ['x'], .operator .sub,
        .operator .sub] → IsOperand x ∧ ∀ c ∈ x, isSeparator c = false) ∧
      Postfix.toInfix [.operand ['8'], .operand ['4'], .operand ['x'], .operator .sub,
        .operator .sub] = .ok "8 - ( 4 - x )".toList ∧
      Grammatical [['('], ['8'], [')'], ['-'], ['('], ['4'], ['-'], ['x'], [')']] ∧
      (ofLexemes [['('], ['8'], [')'], ['-'], ['('], ['4'], ['-'], ['x'], [')']]).1 =
        .ok [.operand ['8'], .operand ['4'], .operand ['x'], .operator .sub, .operator .sub] ∧
      ReflTransGen RemovesPair [['('], ['8'], [')'], ['-'], ['('], ['4'], ['-'], ['x'], [')']]
        (Spacing.strict.tokens "8 - ( 4 - x )".toList) := by
  have hop : ∀ x, Token.operand x ∈ [Token.operand ['8'], .operand ['4'], .operand ['x'],
      .operator .sub, .operator .sub] → IsOperand x ∧ ∀ c ∈ x, isSeparator c = false := by
    intro x hx
    simp only [List.mem_cons, Token.operand.injEq, reduceCtorEq, List.not_mem_nil, or_false] at hx
    rcases hx with rfl | rfl | rfl <;>
      exact ⟨by decide, (Text.isWord_singleton rfl).not_separator⟩
  have hgrammatical :
      Grammatical [['('], ['8'], [')'], ['-'], ['('], ['4'], ['-'], ['x'], [')']] := by
    rw [grammatical_iff_alternates]
    exact .opening (.operand (by decide) (.closing (.operator .sub rfl (.opening
      (.operand (by decide) (.operator .sub rfl (.operand (by decide) (.closing .nil))))))))
  exact ⟨hop, rfl, hgrammatical, rfl,
    ((toInfix_least_parentheses hop rfl .strict).2.1 _ hgrammatical rfl).1⟩

end Postfix

end PostfixCalculator
