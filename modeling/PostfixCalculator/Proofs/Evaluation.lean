import Mathlib.Data.List.Forall2
import PostfixCalculator.Postfix.Evaluation
import PostfixCalculator.Proofs.Postorder

/-!
# Evaluation is the value of a tree

The stack of values holds, at any moment, the values of the trees that a stack of trees would hold
at the same moment.  So a sequence of tokens can only be evaluated if it is the postfix order of a
tree, which it is of no other tree, and the result is the value of that tree: what its numerals
stand for, combined by rounded operations from the leaves to the root.

The invariant is stated for every interpretation of operands and operations, and only its last
use is about numbers.
-/

namespace PostfixCalculator

namespace Interpretation

variable {α : Type} {meaning : Interpretation α} {position : Nat} {token : Token}
  {tokens : Postfix} {stack stack' : List α} {trees : List Expr} {a : α}

/-! ## Stacks of values and stacks of trees -/

/-- A tree has a value if it has one in the interpretation. -/
def HasValue (meaning : Interpretation α) (tree : Expr) (a : α) : Prop :=
  meaning.value tree = .ok a

/-- The value of an operation is the operation on the values of its operands. -/
lemma hasValue_operation {op : Operator} {left right : Expr} :
    meaning.HasValue (.operation op left right) a ↔
      ∃ b c, meaning.HasValue left b ∧ meaning.HasValue right c ∧
        meaning.operation op b c = a := by
  unfold HasValue
  rw [value]
  cases meaning.value left <;> cases meaning.value right <;> simp [Except.bind, Except.map]

/-- A stack of values represents a stack of trees if its entries are the values of the trees, in
the same order. -/
def Represents (meaning : Interpretation α) : List Expr → List α → Prop :=
  List.Forall₂ meaning.HasValue

/-- A token that is taken by a stack of values is taken by the trees that it represents, and
afterwards represents them again. -/
lemma Represents.step (hstack : meaning.Represents trees stack)
    (h : meaning.step position stack token = .ok stack') :
    ∃ trees', Expr.construction.step position trees token = .ok trees' ∧
      meaning.Represents trees' stack' := by
  cases token with
  | operand text =>
    rw [Interpretation.step] at h
    cases hvalue : meaning.operand text with
    | error error => simp [hvalue, Except.map] at h
    | ok a =>
      obtain rfl : a :: stack = stack' := by simpa [hvalue, Except.map] using h
      have hleaf : meaning.HasValue (.operand text) a := hvalue
      exact ⟨.operand text :: trees, rfl, .cons hleaf hstack⟩
  | operator op =>
    -- The right operand was put on the stack last, so it is the uppermost entry of both stacks.
    cases hstack with
    | nil => simp [Interpretation.step] at h
    | @cons right c _ _ hright htail =>
      cases htail with
      | nil => simp [Interpretation.step] at h
      | @cons left b trees stack hleft hrest =>
        obtain rfl := Except.ok.inj h
        have hnode : meaning.HasValue (.operation op left right) (meaning.operation op b c) :=
          hasValue_operation.mpr ⟨b, c, hleft, hright, rfl⟩
        exact ⟨.operation op left right :: trees, rfl, .cons hnode hrest⟩
  | opening => simp [Interpretation.step] at h
  | closing => simp [Interpretation.step] at h

/-- Tokens that are taken by a stack of values are taken by the trees that it represents. -/
lemma Represents.run (hstack : meaning.Represents trees stack)
    (h : meaning.run position stack tokens = .ok stack') :
    ∃ trees', Expr.construction.run position trees tokens = .ok trees' ∧
      meaning.Represents trees' stack' := by
  induction tokens generalizing position stack trees with
  | nil =>
    obtain rfl := Except.ok.inj h
    exact ⟨trees, rfl, hstack⟩
  | cons token tokens ih =>
    rw [Interpretation.run] at h
    cases hstep : meaning.step position stack token with
    | error error => simp [hstep] at h
    | ok next =>
      obtain ⟨trees₁, htrees, hnext⟩ := hstack.step hstep
      have hrun : meaning.run (position + 1) next tokens = .ok stack' := by simpa [hstep] using h
      obtain ⟨trees₂, hrun', hstack'⟩ := ih hnext hrun
      refine ⟨trees₂, ?_, hstack'⟩
      rw [Interpretation.run, htrees]
      exact hrun'

/-- A walk ends well if it ends with a single entry. -/
lemma reduce_eq_ok_iff_run : meaning.reduce tokens = .ok a ↔ meaning.run 0 [] tokens = .ok [a] := by
  rw [reduce]
  cases meaning.run 0 [] tokens with
  | error error => simp [Except.bind]
  | ok stack =>
    obtain _ | ⟨b, _ | ⟨c, stack⟩⟩ := stack
    · simp [Except.bind, result]
    · simp [Except.bind, result]
    · simp [Except.bind, result]

/-- A sequence of tokens has a meaning exactly if it is the postfix order of a tree that has a
value, and this value is its meaning. -/
lemma reduce_eq_ok_iff : meaning.reduce tokens = .ok a ↔
    ∃ tree : Expr, tree.toPostfix = tokens ∧ meaning.HasValue tree a := by
  constructor
  · intro h
    have hempty : meaning.Represents [] [] := List.Forall₂.nil
    obtain ⟨trees, hrun, hstack⟩ := hempty.run (reduce_eq_ok_iff_run.mp h)
    match trees, hstack with
    | [tree], .cons hvalue .nil =>
      have htree : Expr.ofPostfix tokens = .ok tree := reduce_eq_ok_iff_run.mpr hrun
      exact ⟨tree, Expr.toPostfix_of_ofPostfix htree, hvalue⟩
  · rintro ⟨tree, rfl, hvalue⟩
    rw [reduce_toPostfix]
    exact hvalue

end Interpretation

namespace Expr

/-! ## Numeric trees -/

/-- A tree is numeric if all its operands are numerals. -/
def Numeric : Expr → Prop
  | operand text => text.isNumeral = true
  | operation _ left right => left.Numeric ∧ right.Numeric

/-- The value of a numeric tree.  A numeral has the value that it spells, and the result of an
operation is rounded to the given count of decimal places. -/
def value (places : Nat) : Expr → Binary64
  | operand text => (Decimal.ofNumeral text).toBinary64
  | operation op left right =>
    (op.apply (left.value places) (right.value places)).roundPlaces places

end Expr

namespace Postfix

variable {text : Text} {v : Binary64} {places : Nat}

/-- An operand has a value if it is a numeral, and then the one that it spells. -/
lemma operandValue_eq_ok_iff : operandValue text = .ok v ↔
    text.isNumeral = true ∧ (Decimal.ofNumeral text).toBinary64 = v := by
  unfold operandValue Binary64.ofText?
  by_cases h : text.isNumeral = true <;> simp [h]

/-- The value of a single operand is the number that it stands for. -/
lemma evaluate_operand (places : Nat) (text : Text) :
    evaluate places [.operand text] = operandValue text :=
  (arithmetic places).reduce_toPostfix (.operand text)

/-- The trees with a value are the numeric ones. -/
lemma hasValue_arithmetic_iff {tree : Expr} :
    (arithmetic places).HasValue tree v ↔ tree.Numeric ∧ tree.value places = v := by
  induction tree generalizing v with
  | operand text => exact operandValue_eq_ok_iff
  | operation op left right ihl ihr =>
    rw [Interpretation.hasValue_operation]
    constructor
    · rintro ⟨b, c, hleft, hright, rfl⟩
      obtain ⟨hnumeric, rfl⟩ := ihl.mp hleft
      obtain ⟨hnumeric', rfl⟩ := ihr.mp hright
      exact ⟨⟨hnumeric, hnumeric'⟩, rfl⟩
    · rintro ⟨⟨hnumeric, hnumeric'⟩, rfl⟩
      have hleft := ihl.mpr ⟨hnumeric, rfl⟩
      have hright := ihr.mpr ⟨hnumeric', rfl⟩
      exact ⟨left.value places, right.value places, hleft, hright, rfl⟩

/-- **Evaluation.**  A sequence of tokens is the postfix order of at most one tree.  It is
evaluated exactly if it is that of a tree whose operands are all numerals, and the result is the
value of the tree. -/
theorem evaluate_eq_ok_iff_tree : Function.Injective Expr.toPostfix ∧
    ∀ (places : Nat) (tokens : Postfix) (v : Binary64),
      evaluate places tokens = .ok v ↔
        ∃ tree : Expr, tree.toPostfix = tokens ∧ tree.Numeric ∧ tree.value places = v := by
  refine ⟨Expr.toPostfix_injective, fun places tokens v => ?_⟩
  rw [evaluate, Interpretation.reduce_eq_ok_iff]
  constructor
  · rintro ⟨tree, htree, hvalue⟩
    exact ⟨tree, htree, hasValue_arithmetic_iff.mp hvalue⟩
  · rintro ⟨tree, htree, hnumeric⟩
    exact ⟨tree, htree, hasValue_arithmetic_iff.mpr hnumeric⟩

end Postfix

end PostfixCalculator
