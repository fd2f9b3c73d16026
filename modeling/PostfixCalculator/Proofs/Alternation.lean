import PostfixCalculator.Proofs.Parentheses

/-!
# Grammatical expressions as alternating sequences

The grammar can be read off a sequence of lexemes from left to right, without building a tree.
Operands and operators alternate, an opening parenthesis stands where an operand may stand, a
closing one where an operator may stand, and the parentheses are balanced.  `Alternates` states
this of the lexemes that are still to come, given what is expected next and how many groups are
open, and `grammatical_iff_alternates` says that it characterises the grammar.

In this form it is plain that a grammatical sequence stays grammatical when a matched pair of
parentheses is removed: what is expected next is the same on both sides of either parenthesis,
and the lexemes in between are balanced.
-/

namespace PostfixCalculator

/-- The lexemes complete an expression of which `depth` groups are open, and in which an operand
is expected next, or an operator if `operandNext` is false. -/
inductive Alternates : (operandNext : Bool) → (depth : Nat) → List Text → Prop
  /-- An expression may end where an operator may stand and no group is open. -/
  | nil : Alternates false 0 []
  /-- An operator may follow an operand. -/
  | operand {depth : Nat} {x : Text} {rest : List Text} (hx : IsOperand x)
      (h : Alternates false depth rest) : Alternates true depth (x :: rest)
  /-- An operand is expected at the start of a group. -/
  | opening {depth : Nat} {rest : List Text} (h : Alternates true (depth + 1) rest) :
      Alternates true depth (['('] :: rest)
  /-- An operand is expected behind an operator. -/
  | operator {depth : Nat} (op : Operator) {x : Text} {rest : List Text} (hx : x = op.lexeme)
      (h : Alternates true depth rest) : Alternates false depth (x :: rest)
  /-- An operator may follow a group. -/
  | closing {depth : Nat} {rest : List Text} (h : Alternates false depth rest) :
      Alternates false (depth + 1) ([')'] :: rest)

variable {left right lexemes rest : List Text} {a b tree : Expr} {op : Operator} {depth : Nat}

/-! ## Grammatical expressions alternate -/

/-- Derived lexemes stand where an operand is expected, and an operator may follow them. -/
lemma Derives.alternates {n : Nonterminal} (h : Derives n lexemes tree)
    (hrest : Alternates false depth rest) : Alternates true depth (lexemes ++ rest) := by
  induction h generalizing depth rest with
  | sum _ _ _ ihl ihr | product _ _ _ ihl ihr =>
    rw [List.append_assoc, List.cons_append]
    exact ihl (.operator _ rfl (ihr hrest))
  | ofProduct _ ih | ofFactor _ ih => exact ih hrest
  | operand hx => exact .operand hx hrest
  | group _ ih =>
    rw [List.cons_append, List.cons_append, List.append_assoc]
    exact .opening (ih (.closing hrest))

/-! ## Alternating expressions are grammatical -/

/-- A factor in front of a product, with a multiplicative operator in between, is a product. -/
lemma exists_derives_product (hop : op = .mul ∨ op = .div) (hleft : Derives .factor left a)
    (hright : Derives .product right b) :
    ∃ tree, Derives .product (left ++ op.lexeme :: right) tree := by
  generalize hn : Nonterminal.product = n at hright
  induction hright with
  | product hop' _ hfactor ihl _ =>
    obtain ⟨tree, htree⟩ := ihl rfl
    exact ⟨_, by simpa using Derives.product hop' htree hfactor⟩
  | ofFactor hfactor => exact ⟨_, .product hop (.ofFactor hleft) hfactor⟩
  | sum | ofProduct | operand | group => cases hn

/-- A factor in front of a sum, with an operator in between, is a sum. -/
lemma exists_derives_sum (op : Operator) (hleft : Derives .factor left a)
    (hright : Derives .sum right b) :
    ∃ tree, Derives .sum (left ++ op.lexeme :: right) tree := by
  generalize hn : Nonterminal.sum = n at hright
  induction hright with
  | sum hop _ hproduct ihl _ =>
    obtain ⟨tree, htree⟩ := ihl rfl
    exact ⟨_, by simpa using Derives.sum hop htree hproduct⟩
  | ofProduct hproduct =>
    rcases op.additive_or_multiplicative with hop | hop
    · exact ⟨_, .sum hop (.of_factor hleft) hproduct⟩
    · obtain ⟨tree, htree⟩ := exists_derives_product hop hleft hproduct
      exact ⟨tree, .ofProduct htree⟩
  | product | ofFactor | operand | group => cases hn

/-- The lexemes begin with a grammatical sequence that ends where they do, or before a closing
parenthesis. -/
def BeginsGrammatical (depth : Nat) (lexemes : List Text) : Prop :=
  ∃ first rest, lexemes = first ++ rest ∧ Grammatical first ∧ Alternates false depth rest ∧
    ∀ x ∈ rest.head?, x = [')']

/-- What follows a factor continues a grammatical sequence that begins with it, if this is so of
all that follows an operator there. -/
lemma beginsGrammatical_factor (hleft : Derives .factor left a)
    (hrest : Alternates false depth rest)
    (ih : ∀ lexemes depth, lexemes.length < rest.length → Alternates true depth lexemes →
      BeginsGrammatical depth lexemes) : BeginsGrammatical depth (left ++ rest) := by
  cases hrest with
  | nil => exact ⟨left, [], rfl, ⟨a, .of_factor hleft⟩, .nil, by simp⟩
  | closing h => exact ⟨left, _, rfl, ⟨a, .of_factor hleft⟩, .closing h, by simp⟩
  | operator op hx h =>
    subst hx
    obtain ⟨first, rest, rfl, ⟨b, hfirst⟩, hrest, hhead⟩ := ih _ _ (by simp) h
    obtain ⟨tree, htree⟩ := exists_derives_sum op hleft hfirst
    exact ⟨_, rest, by simp, ⟨tree, htree⟩, hrest, hhead⟩

/-- Lexemes that complete an expression where an operand is expected begin with a grammatical
sequence. -/
lemma Alternates.beginsGrammatical (h : Alternates true depth lexemes) :
    BeginsGrammatical depth lexemes := by
  -- Behind a group the rest is not a part of the derivation at hand, so the induction is on the
  -- length.
  induction hn : lexemes.length using Nat.strongRecOn generalizing depth lexemes with
  | ind n ih =>
    subst hn
    cases h with
    | operand hx h =>
      refine beginsGrammatical_factor (.operand hx) h fun l d hl hd => ih _ ?_ hd rfl
      rw [List.length_cons]
      omega
    | opening h =>
      obtain ⟨first, rest, rfl, ⟨b, hfirst⟩, hrest, hhead⟩ := ih _ (by simp) h rfl
      cases hrest with
      | operator op hx _ => exact absurd (hhead _ rfl) (hx ▸ op.lexeme_ne_closing)
      | @closing _ rest hrest =>
        have hsplit : ['('] :: (first ++ [')'] :: rest) =
            (['('] :: first ++ [[')']]) ++ rest := by simp
        rw [hsplit]
        refine beginsGrammatical_factor (.group hfirst) hrest fun l d hl hd => ih _ ?_ hd rfl
        rw [List.length_cons, List.length_append, List.length_cons]
        omega

/-- **Grammatical expressions alternate.**  Lexemes are grammatical exactly if operands and
operators alternate, groups standing for operands, and the parentheses are balanced. -/
theorem grammatical_iff_alternates : Grammatical lexemes ↔ Alternates true 0 lexemes := by
  constructor
  · rintro ⟨tree, h⟩
    simpa using h.alternates .nil
  · intro h
    obtain ⟨first, rest, rfl, hfirst, hrest, hhead⟩ := h.beginsGrammatical
    cases hrest with
    | nil => simpa using hfirst
    | operator op hx _ => exact absurd (hhead _ rfl) (hx ▸ op.lexeme_ne_closing)

/-! ## Removal of a pair -/

/-- The closing parenthesis of a group may be left out if the group was never opened. -/
lemma Alternates.remove_closing {operandNext : Bool} {inner after : List Text} {inside : Nat}
    (hinner : depthAfter inside inner = some 0)
    (h : Alternates operandNext (inside + depth + 1) (inner ++ [')'] :: after)) :
    Alternates operandNext (inside + depth) (inner ++ after) := by
  induction inner generalizing inside operandNext with
  | nil =>
    obtain rfl : inside = 0 := by simpa using hinner
    cases h with
    | operand hx _ => exact absurd rfl hx.ne_closing
    | operator op hx _ => exact absurd hx.symm op.lexeme_ne_closing
    | closing h => exact h
  | cons x inner ih =>
    rw [List.cons_append] at h ⊢
    have hother (hopening : x ≠ ['(']) (hclosing : x ≠ [')']) :
        depthAfter inside inner = some 0 := by
      rwa [depthAfter_other hopening hclosing] at hinner
    cases h with
    | operand hx h =>
      exact .operand hx (ih (hother hx.ne_opening hx.ne_closing) h)
    | operator op hx h =>
      exact .operator op hx (ih (hother (hx ▸ op.lexeme_ne_opening) (hx ▸ op.lexeme_ne_closing)) h)
    | opening h =>
      rw [depthAfter_opening] at hinner
      have hdepth : inside + depth + 1 = inside + 1 + depth := by omega
      rw [hdepth] at h
      have hrest : Alternates true (inside + 1 + depth) (inner ++ after) := ih hinner h
      exact .opening (hdepth ▸ hrest)
    | closing h =>
      cases inside with
      | zero => simp [depthAfter, depthNext] at hinner
      | succ inside =>
        rw [depthAfter_closing] at hinner
        have hdepth : inside + 1 + depth = inside + depth + 1 := by omega
        rw [hdepth] at h ⊢
        exact .closing (ih hinner h)

/-- Lexemes still complete an expression after a matched pair is removed from them. -/
lemma Alternates.removePair {operandNext : Bool} {before inner after : List Text}
    (hinner : Balanced inner)
    (h : Alternates operandNext depth (before ++ ['('] :: (inner ++ [')'] :: after))) :
    Alternates operandNext depth (before ++ (inner ++ after)) := by
  induction before generalizing operandNext depth with
  | nil =>
    cases h with
    | operand hx _ => exact absurd rfl hx.ne_opening
    | operator op hx _ => exact absurd hx.symm op.lexeme_ne_opening
    | opening h =>
      have h' : Alternates true (0 + depth + 1) (inner ++ [')'] :: after) := by rwa [Nat.zero_add]
      simpa using h'.remove_closing hinner
  | cons x before ih =>
    cases h with
    | operand hx h => exact .operand hx (ih h)
    | operator op hx h => exact .operator op hx (ih h)
    | opening h => exact .opening (ih h)
    | closing h => exact .closing (ih h)

/-- Grammatical lexemes stay grammatical when a matched pair of parentheses is removed. -/
theorem Grammatical.removePair {lexemes' : List Text} (h : Grammatical lexemes)
    (hpair : RemovesPair lexemes lexemes') : Grammatical lexemes' := by
  obtain ⟨before, after, hinner⟩ := hpair
  rw [grammatical_iff_alternates] at h ⊢
  exact h.removePair hinner

end PostfixCalculator
