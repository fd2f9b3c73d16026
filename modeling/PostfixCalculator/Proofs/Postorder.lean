import Mathlib.Data.Set.Function
import PostfixCalculator.Expr

/-!
# Trees and their postfix order

Every sequence of tokens is the postfix order of at most one tree, and the walk with a stack of
trees finds it.  In one direction, what the tokens of a tree do to the stack of any
interpretation is to put the value of the tree on top.  In the other, the trees on the stack,
from the bottom to the top, always list the tokens that have been taken.  Together the two make
the sequences that stand for a tree and the trees correspond one to one.
-/

namespace PostfixCalculator

namespace Interpretation

variable {α : Type} (meaning : Interpretation α)

/-- The value of a tree: that of an operand is given, and that of an operation is the operation on
the values of its operands. -/
def value : Expr → Except Error α
  | .operand text => meaning.operand text
  | .operation op left right =>
    (value left).bind fun a => (value right).map fun b => meaning.operation op a b

/-- The tokens of a tree put its value on the stack. -/
lemma run_toPostfix (tree : Expr) (position : Nat) (stack : List α) :
    meaning.run position stack tree.toPostfix = (meaning.value tree).map (· :: stack) := by
  induction tree generalizing position stack with
  | operand text =>
    rw [Expr.toPostfix, run, step, value]
    cases meaning.operand text <;> rfl
  | operation op left right ihl ihr =>
    rw [Expr.toPostfix, run_append, run_append, ihl, value]
    cases meaning.value left with
    | error error => rfl
    | ok a =>
      simp only [Except.map, Except.bind, ihr]
      cases meaning.value right <;> rfl

/-- A sequence in postfix order means the value of its tree. -/
lemma reduce_toPostfix (tree : Expr) : meaning.reduce tree.toPostfix = meaning.value tree := by
  rw [reduce, run_toPostfix]
  cases meaning.value tree <;> rfl

end Interpretation

namespace Expr

/-- The value of a tree as a tree is the tree. -/
lemma value_construction (tree : Expr) : construction.value tree = .ok tree := by
  induction tree with
  | operand text => rfl
  | operation op left right ihl ihr =>
    rw [Interpretation.value, ihl, ihr]
    rfl

/-- A tree is found from its postfix order. -/
lemma ofPostfix_toPostfix (tree : Expr) : ofPostfix tree.toPostfix = .ok tree := by
  rw [ofPostfix, Interpretation.reduce_toPostfix, value_construction]

/-! ## The tokens of the trees on a stack -/

/-- The tokens of the trees on a stack, from the bottom to the top. -/
def stackPostfix (stack : List Expr) : Postfix := stack.reverse.flatMap toPostfix

/-- The tokens of the uppermost tree come last. -/
@[simp] lemma stackPostfix_cons (tree : Expr) (stack : List Expr) :
    stackPostfix (tree :: stack) = stackPostfix stack ++ tree.toPostfix := by
  simp [stackPostfix]

/-- A token that is taken is added to those of the stack. -/
lemma stackPostfix_step {position : Nat} {stack stack' : List Expr} {token : Token}
    (h : construction.step position stack token = .ok stack') :
    stackPostfix stack' = stackPostfix stack ++ [token] := by
  cases token with
  | operand text =>
    obtain rfl := Except.ok.inj h
    simp [toPostfix]
  | operator op =>
    match stack, h with
    | right :: left :: stack, h =>
      obtain rfl := Except.ok.inj h
      simp [construction, toPostfix]
    | [], h | [_], h => simp [Interpretation.step] at h
  | opening => simp [Interpretation.step] at h
  | closing => simp [Interpretation.step] at h

/-- The tokens of the stack after a run are those before it and those of the run. -/
lemma stackPostfix_run {position : Nat} {stack stack' : List Expr} {tokens : Postfix}
    (h : construction.run position stack tokens = .ok stack') :
    stackPostfix stack' = stackPostfix stack ++ tokens := by
  induction tokens generalizing position stack with
  | nil =>
    obtain rfl := Except.ok.inj h
    simp
  | cons token tokens ih =>
    rw [Interpretation.run] at h
    split at h
    · simp at h
    · next next hstep =>
      rw [ih h, stackPostfix_step hstep, List.append_assoc, List.singleton_append]

/-- A tree that is found from a sequence of tokens has it as its postfix order. -/
lemma toPostfix_of_ofPostfix {tokens : Postfix} {tree : Expr} (h : ofPostfix tokens = .ok tree) :
    tree.toPostfix = tokens := by
  rw [ofPostfix, Interpretation.reduce] at h
  cases hrun : construction.run 0 [] tokens with
  | error error => simp [hrun, Except.bind] at h
  | ok stack =>
    have hresult : Interpretation.result stack = .ok tree := by simpa [hrun, Except.bind] using h
    match stack, hresult with
    | [_], hresult =>
      obtain rfl := Except.ok.inj hresult
      simpa [stackPostfix] using stackPostfix_run hrun

/-! ## Unique readability -/

/-- No two trees have the same postfix order. -/
lemma toPostfix_injective : Function.Injective toPostfix := by
  intro tree tree' h
  have htree : ofPostfix tree'.toPostfix = .ok tree := h ▸ ofPostfix_toPostfix tree
  exact Except.ok.inj (htree.symm.trans (ofPostfix_toPostfix tree'))

/-- **Unique readability.**  The tree that is found from a sequence of tokens is the one whose
postfix order the sequence is, and it is found whenever there is such a tree.  So taking the postfix
order is a bijection between all trees, whatever their operands, and the sequences from which a tree
is found. -/
theorem ofPostfix_inverts_toPostfix :
    (∀ (tokens : Postfix) (tree : Expr),
      ofPostfix tokens = .ok tree ↔ tree.toPostfix = tokens) ∧
    Set.BijOn toPostfix Set.univ {tokens | ∃ tree, ofPostfix tokens = .ok tree} := by
  have hread (tokens : Postfix) (tree : Expr) :
      ofPostfix tokens = .ok tree ↔ tree.toPostfix = tokens := by
    constructor
    · exact toPostfix_of_ofPostfix
    · rintro rfl
      exact ofPostfix_toPostfix tree
  refine ⟨hread, ?_, toPostfix_injective.injOn, ?_⟩
  · intro tree _
    exact ⟨tree, ofPostfix_toPostfix tree⟩
  · rintro tokens ⟨tree, htree⟩
    exact ⟨tree, Set.mem_univ tree, (hread tokens tree).mp htree⟩

end Expr

end PostfixCalculator
