import PostfixCalculator.Proofs.Evaluation
import PostfixCalculator.Session

/-!
# Evaluation and rendering in lock step

Evaluating a sequence of tokens and rendering it are two walks with a stack, one of numbers and one
of trees.  Which tokens a walk takes, and how it ends, depends on the height of its stack and on the
operands that it refuses, and on nothing else.  So two walks whose stacks have the same height at
the start have stacks of the same height throughout, and the first token that one of them refuses
is refused by the other one with the same error, as long as they agree on the operands.

Rendering refuses no operand, and evaluation refuses those that are no numerals.  Up to the first
such operand the two therefore do the same, and there evaluation ends.
-/

namespace PostfixCalculator

universe u v

/-- Two results are alike if both are the same error, or if both are no errors and are related. -/
inductive Alike {α : Type u} {β : Type v} (r : α → β → Prop) :
    Except Error α → Except Error β → Prop
  /-- Both fail, and for the same reason. -/
  | error (error : Error) : Alike r (.error error) (.error error)
  /-- Both succeed with related results. -/
  | ok {a : α} {b : β} (h : r a b) : Alike r (.ok a) (.ok b)

namespace Alike

variable {α : Type u} {β : Type v} {r : α → β → Prop} {x : Except Error α} {y : Except Error β}

/-- A result is like itself. -/
lemma refl (x : Except Error α) : Alike (fun _ _ => True) x x := by
  cases x with
  | error error => exact .error error
  | ok a => exact .ok trivial

/-- Of two results that are alike, one is an error exactly if the other one is this error. -/
lemma error_iff (h : Alike r x y) (error : Error) : x = .error error ↔ y = .error error := by
  cases h <;> simp

/-- Of two results that are alike, one is no error exactly if the other one is none. -/
lemma ok_iff (h : Alike r x y) : (∃ a, x = .ok a) ↔ ∃ b, y = .ok b := by
  cases h <;> simp

end Alike

/-! ## Two walks over the same tokens -/

namespace Interpretation

variable {α β : Type} {meaning : Interpretation α} {meaning' : Interpretation β} {position : Nat}
  {stack : List α} {stack' : List β} {token : Token} {tokens : Postfix}

/-- Two interpretations agree on an operand if both accept it, or both refuse it with the same
error. -/
def AgreeOn (meaning : Interpretation α) (meaning' : Interpretation β) (text : Text) : Prop :=
  Alike (fun _ _ => True) (meaning.operand text) (meaning'.operand text)

/-- Two stacks have the same height. -/
def SameHeight (stack : List α) (stack' : List β) : Prop := stack.length = stack'.length

/-- A stack of the same height as one with two entries on top has two entries on top. -/
lemma SameHeight.exists_cons_cons {a b : α} (h : SameHeight (a :: b :: stack) stack') :
    ∃ a' b' rest, stack' = a' :: b' :: rest ∧ SameHeight stack rest := by
  rcases stack' with _ | ⟨a', _ | ⟨b', rest⟩⟩
  · simp [SameHeight] at h
  · simp [SameHeight] at h
  · exact ⟨a', b', rest, rfl, by simpa [SameHeight] using h⟩

/-- A token changes stacks of the same height into stacks of the same height, or is refused by both
with the same error, if the interpretations agree on it. -/
lemma alike_step (hstack : SameHeight stack stack')
    (hagree : ∀ text, token = .operand text → AgreeOn meaning meaning' text) :
    Alike SameHeight (meaning.step position stack token) (meaning'.step position stack' token) := by
  cases token with
  | operand text =>
    have htext : AgreeOn meaning meaning' text := hagree text rfl
    unfold AgreeOn at htext
    rw [step, step]
    generalize meaning.operand text = x at htext
    generalize meaning'.operand text = y at htext
    cases htext with
    | error error => exact .error error
    | ok _ => exact .ok (congrArg (· + 1) hstack)
  | operator op =>
    -- The heights tell how many operands there are, so both stacks have two, or neither has.
    rcases stack with _ | ⟨right, _ | ⟨left, stack⟩⟩
    · obtain rfl := List.length_eq_zero_iff.mp hstack.symm
      exact .error _
    · obtain ⟨right', rfl⟩ := List.length_eq_one_iff.mp hstack.symm
      exact .error _
    · obtain ⟨right', left', rest, rfl, hrest⟩ := hstack.exists_cons_cons
      exact .ok (congrArg (· + 1) hrest)
  | opening => exact .error _
  | closing => exact .error _

/-- Tokens change stacks of the same height into stacks of the same height, or both walks fail with
the same error, if the interpretations agree on the operands. -/
lemma alike_run (hstack : SameHeight stack stack')
    (hagree : ∀ text, Token.operand text ∈ tokens → AgreeOn meaning meaning' text) :
    Alike SameHeight (meaning.run position stack tokens) (meaning'.run position stack' tokens) := by
  induction tokens generalizing position stack stack' with
  | nil => exact .ok hstack
  | cons token tokens ih =>
    have hstep : Alike SameHeight (meaning.step position stack token)
        (meaning'.step position stack' token) := by
      refine alike_step hstack fun text htext => hagree text ?_
      exact htext ▸ List.mem_cons_self
    rw [run, run]
    generalize meaning.step position stack token = x at hstep
    generalize meaning'.step position stack' token = y at hstep
    cases hstep with
    | error error => exact .error error
    | ok hnext => exact ih hnext fun text htext => hagree text (List.mem_cons_of_mem _ htext)

/-- Stacks of the same height end a walk in the same way. -/
lemma alike_result (hstack : SameHeight stack stack') :
    Alike (fun _ _ => True) (result stack) (result stack') := by
  rcases stack with _ | ⟨a, _ | ⟨b, stack⟩⟩
  · obtain rfl := List.length_eq_zero_iff.mp hstack.symm
    exact .error _
  · obtain ⟨a', rfl⟩ := List.length_eq_one_iff.mp hstack.symm
    exact .ok trivial
  · obtain ⟨a', b', rest, rfl, hrest⟩ := hstack.exists_cons_cons
    rw [result_cons_cons, result_cons_cons, hrest]
    exact .error _

/-- A sequence of tokens has a meaning in both interpretations, or in both it fails with the same
error, if they agree on its operands. -/
lemma alike_reduce
    (hagree : ∀ text, Token.operand text ∈ tokens → AgreeOn meaning meaning' text) :
    Alike (fun _ _ => True) (meaning.reduce tokens) (meaning'.reduce tokens) := by
  have hrun : Alike SameHeight (meaning.run 0 [] tokens) (meaning'.run 0 [] tokens) :=
    alike_run rfl hagree
  rw [reduce, reduce]
  generalize meaning.run 0 [] tokens = x at hrun
  generalize meaning'.run 0 [] tokens = y at hrun
  cases hrun with
  | error error => exact .error error
  | ok hstack => exact alike_result hstack

end Interpretation

/-! ## Evaluation and rendering -/

namespace Postfix

variable {places : Nat} {tokens before after : Postfix} {x : Text}

/-- A numeral is accepted by evaluation and by rendering. -/
lemma agreeOn_of_isNumeral (h : x.isNumeral = true) :
    Interpretation.AgreeOn (arithmetic places) Expr.construction x := by
  have hvalue : operandValue x = .ok (Decimal.ofNumeral x).toBinary64 :=
    operandValue_eq_ok_iff.mpr ⟨h, rfl⟩
  have hboth : Alike (fun _ _ => True) (operandValue x) (Expr.construction.operand x) := by
    rw [hvalue]
    exact .ok trivial
  exact hboth

/-- What is no numeral is refused by evaluation. -/
lemma operandValue_of_not_isNumeral (h : x.isNumeral = false) :
    operandValue x = .error (.notAnOperand x) := by
  simp [operandValue, Binary64.ofText?, h]

/-- If all operands are numerals, then evaluation and rendering do the same. -/
lemma alike_evaluate_toInfix (h : ∀ x, Token.operand x ∈ tokens → x.isNumeral = true) :
    Alike (fun _ _ => True) (evaluate places tokens) tokens.toInfix := by
  have hreduce : Alike (fun _ _ => True) (evaluate places tokens) (Expr.ofPostfix tokens) :=
    Interpretation.alike_reduce fun x hx => agreeOn_of_isNumeral (h x hx)
  rw [toInfix]
  generalize evaluate places tokens = value at hreduce
  generalize Expr.ofPostfix tokens = tree at hreduce
  cases hreduce with
  | error error => exact .error error
  | ok _ => exact .ok trivial

/-- The operands of what can be evaluated are numerals. -/
lemma isNumeral_of_evaluate {v : Binary64} (h : evaluate places tokens = .ok v) :
    ∀ x, Token.operand x ∈ tokens → x.isNumeral = true := by
  obtain ⟨tree, rfl, hvalue⟩ := Interpretation.reduce_eq_ok_iff.mp h
  have hnumeric : tree.Numeric := (hasValue_arithmetic_iff.mp hvalue).1
  clear h hvalue
  induction tree with
  | operand text =>
    intro x hx
    obtain rfl : x = text := by simpa [Expr.toPostfix] using hx
    exact hnumeric
  | operation op left right ihl ihr =>
    intro x hx
    simp only [Expr.toPostfix, List.mem_append, List.mem_singleton, reduceCtorEq, or_false] at hx
    exact hx.elim (ihl hnumeric.1 x) (ihr hnumeric.2 x)

/-- At the first operand that is no numeral evaluation fails, unless building the tree has failed on
the tokens in front of it. -/
lemma evaluate_append_of_not_isNumeral
    (hbefore : ∀ y, Token.operand y ∈ before → y.isNumeral = true) (hx : x.isNumeral = false) :
    match Expr.construction.run 0 [] before with
    | .error error =>
      toInfix (before ++ .operand x :: after) = .error error ∧
        evaluate places (before ++ .operand x :: after) = .error error
    | .ok _ => evaluate places (before ++ .operand x :: after) = .error (.notAnOperand x) := by
  have hrun : Alike Interpretation.SameHeight ((arithmetic places).run 0 [] before)
      (Expr.construction.run 0 [] before) :=
    Interpretation.alike_run rfl fun y hy => agreeOn_of_isNumeral (hbefore y hy)
  rw [evaluate, toInfix, Expr.ofPostfix, Interpretation.reduce, Interpretation.reduce,
    Interpretation.run_append, Interpretation.run_append]
  generalize (arithmetic places).run 0 [] before = values at hrun
  generalize Expr.construction.run 0 [] before = trees at hrun
  cases hrun with
  | error error => exact ⟨rfl, rfl⟩
  | ok _ =>
    have hrefused : (arithmetic places).operand x = .error (.notAnOperand x) :=
      operandValue_of_not_isNumeral hx
    simp [Except.bind, Interpretation.run, Interpretation.step, hrefused, Except.map]

/-- **Lock step.**  A sequence of tokens can be evaluated exactly if it can be rendered and all its
operands are numerals.  If they are, then evaluation and rendering fail with the same error.  At the
first operand that is no numeral evaluation fails, unless building the tree to be rendered has
failed on the tokens in front of it; then both fail with the error found there.  So the reply to
an expression that has a value shows it as it is rendered. -/
theorem evaluate_alike_toInfix (places : Nat) (tokens : Postfix) :
    ((∃ v, evaluate places tokens = .ok v) ↔
      (∃ text, tokens.toInfix = .ok text) ∧
        ∀ x, Token.operand x ∈ tokens → x.isNumeral = true) ∧
    ((∀ x, Token.operand x ∈ tokens → x.isNumeral = true) →
      ∀ error, evaluate places tokens = .error error ↔ tokens.toInfix = .error error) ∧
    (∀ before x after, tokens = before ++ .operand x :: after →
      (∀ y, Token.operand y ∈ before → y.isNumeral = true) → x.isNumeral = false →
        match Expr.construction.run 0 [] before with
        | .error error => tokens.toInfix = .error error ∧ evaluate places tokens = .error error
        | .ok _ => evaluate places tokens = .error (.notAnOperand x)) ∧
    ∀ (settings : Settings) (expression : Text) (v : Binary64),
      settings.parse expression = .ok tokens → evaluate settings.precision tokens = .ok v →
        ∃ text, tokens.toInfix = .ok text ∧
          settings.reply expression = .value text v tokens := by
  refine ⟨?_, ?_, ?_, ?_⟩
  · constructor
    · rintro ⟨v, hv⟩
      have hnumerals := isNumeral_of_evaluate hv
      exact ⟨(alike_evaluate_toInfix hnumerals).ok_iff.mp ⟨v, hv⟩, hnumerals⟩
    · rintro ⟨htext, hnumerals⟩
      exact (alike_evaluate_toInfix hnumerals).ok_iff.mpr htext
  · intro hnumerals error
    exact (alike_evaluate_toInfix hnumerals).error_iff error
  · rintro before x after rfl hbefore hx
    exact evaluate_append_of_not_isNumeral hbefore hx
  · intro settings expression v hparse hv
    obtain ⟨text, htext⟩ :=
      (alike_evaluate_toInfix (isNumeral_of_evaluate hv)).ok_iff.mp ⟨v, hv⟩
    refine ⟨text, htext, ?_⟩
    simp only [Settings.reply, hparse, hv, htext]

/-- In `1 + x` the operator stands in front of the word and finds one operand, so both fail there;
in `1 2 + *`, where all operands are numerals, both fail at the last operator; and the value of
`1 + 2` is shown with its rendering. -/
theorem evaluate_alike_toInfix_underflows :
    evaluate 4 [.operand ['1'], .operator .add, .operand ['x']] =
        .error (.missingOperands .add 1) ∧
      evaluate 4 [.operand ['1'], .operand ['2'], .operator .add, .operator .mul] =
        .error (.missingOperands .mul 3) ∧
      ∃ v, ({} : Settings).reply "1 + 2".toList =
        .value "1 + 2".toList v [.operand ['1'], .operand ['2'], .operator .add] := by
  have hnumerals (tokens : Postfix) (h : ∀ token ∈ tokens, token = .operand ['1'] ∨
      token = .operand ['2'] ∨ token = .operator .add ∨ token = .operator .mul) :
      ∀ x, Token.operand x ∈ tokens → x.isNumeral = true := by
    intro x hx
    obtain h | h | h | h := h _ hx <;> cases h <;> decide
  refine ⟨?_, ?_, ?_⟩
  · have hboth := (evaluate_alike_toInfix 4 _).2.2.1 [.operand ['1'], .operator .add] ['x'] [] rfl
      (hnumerals _ (by simp)) (by decide)
    exact hboth.2
  · exact ((evaluate_alike_toInfix 4 _).2.1 (hnumerals _ (by simp)) _).mpr rfl
  · have hparse : ({} : Settings).parse "1 + 2".toList =
        .ok [.operand ['1'], .operand ['2'], .operator .add] := by cbv
    obtain ⟨v, hv⟩ : ∃ v, evaluate 4 [.operand ['1'], .operand ['2'], .operator .add] = .ok v :=
      (evaluate_alike_toInfix 4 _).1.mpr ⟨⟨_, rfl⟩, hnumerals _ (by simp)⟩
    obtain ⟨text, htext, hreply⟩ := (evaluate_alike_toInfix 4 _).2.2.2 {} "1 + 2".toList v hparse hv
    obtain rfl := Except.ok.inj htext
    exact ⟨v, hreply⟩

end Postfix

end PostfixCalculator
