import PostfixCalculator.Proofs.LockStep

/-!
# Where a sequence in postfix order fails

Whether a sequence of tokens can be evaluated is seen without evaluating it.  A token is a fault if
it is a parenthesis or an operand that is not accepted, or if it is an operator in front of which
the operands do not exceed the operators by two.  The first fault is where a walk with a stack ends,
and a walk over tokens without a fault ends with as many entries as there are more operands than
operators.

The invariant ties the height of the stack to this surplus over the tokens taken so far.  After the
first token there is always an entry on the stack, which is why only the empty sequence leaves
nothing to evaluate.
-/

namespace PostfixCalculator

/-- A token is invalid in postfix order if it is a parenthesis, or an operand that is not
accepted. -/
def Token.Invalid (accepts : Text → Bool) : Token → Prop
  | operand text => accepts text = false
  | operator _ => False
  | opening => True
  | closing => True

namespace Postfix

variable {accepts : Text → Bool} {tokens first rest : Postfix} {token : Token} {i : Nat}
  {error : Error}

/-! ## The surplus of operands -/

/-- The number of operands less the number of operators. -/
def surplus (tokens : Postfix) : Int :=
  tokens.countP Token.isOperand - tokens.countP Token.isOperator

/-- The surplus is counted token by token. -/
lemma surplus_append (first second : Postfix) :
    surplus (first ++ second) = surplus first + surplus second := by
  simp only [surplus, List.countP_append]
  omega

/-- An operand is one more. -/
@[simp] lemma surplus_operand (text : Text) : surplus [.operand text] = 1 := rfl

/-- An operator is one less. -/
@[simp] lemma surplus_operator (op : Operator) : surplus [.operator op] = -1 := rfl

/-! ## Faults -/

/-- The token at a position is a fault of the sequence, and the error says why. -/
inductive Fault (accepts : Text → Bool) (tokens : Postfix) (i : Nat) : Error → Prop
  /-- An invalid token is a fault wherever it stands. -/
  | invalid {token : Token} (htoken : tokens[i]? = some token) (h : token.Invalid accepts) :
      Fault accepts tokens i (.notAnOperand token.lexeme)
  /-- An operator is a fault if fewer than two values are left in front of it. -/
  | underflow {op : Operator} (hop : tokens[i]? = some (.operator op))
      (h : surplus (tokens.take i) < 2) : Fault accepts tokens i (.missingOperands op i)

/-- The token at a position is the first fault of the sequence. -/
def FirstFault (accepts : Text → Bool) (tokens : Postfix) (i : Nat) (error : Error) : Prop :=
  Fault accepts tokens i error ∧ ∀ j < i, ∀ error', ¬ Fault accepts tokens j error'

/-- No token has a fault. -/
def Faultless (accepts : Text → Bool) (tokens : Postfix) : Prop :=
  ∀ i error, ¬ Fault accepts tokens i error

/-- A fault is a fault of some token. -/
lemma Fault.lt_length (h : Fault accepts tokens i error) : i < tokens.length := by
  cases h with
  | invalid htoken => exact (List.getElem?_eq_some_iff.mp htoken).1
  | underflow hop => exact (List.getElem?_eq_some_iff.mp hop).1

/-- Whether a token is a fault depends on it and on the tokens in front of it. -/
lemma fault_append_cons_iff :
    Fault accepts (first ++ token :: rest) first.length error ↔
      (token.Invalid accepts ∧ error = .notAnOperand token.lexeme) ∨
        ∃ op, token = .operator op ∧ surplus first < 2 ∧
          error = .missingOperands op first.length := by
  have hget : (first ++ token :: rest)[first.length]? = some token := by simp
  have htake : (first ++ token :: rest).take first.length = first := List.take_left
  constructor
  · intro h
    cases h with
    | @invalid token' htoken hinvalid =>
      obtain rfl : token = token' := Option.some.inj (hget.symm.trans htoken)
      exact .inl ⟨hinvalid, rfl⟩
    | @underflow op hop hfew =>
      obtain rfl : token = .operator op := Option.some.inj (hget.symm.trans hop)
      exact .inr ⟨op, rfl, htake ▸ hfew, rfl⟩
  · rintro (⟨hinvalid, rfl⟩ | ⟨op, rfl, hfew, rfl⟩)
    · exact .invalid hget hinvalid
    · exact .underflow hget (htake.symm ▸ hfew)

end Postfix

/-! ## The height of the stack -/

namespace Interpretation

open Postfix (surplus Fault FirstFault Faultless)

variable {α : Type} {meaning : Interpretation α} {accepts : Text → Bool}
  {first : Postfix} {stack : List α}

/-- The interpretation refuses the operands that are not accepted, and refuses them as no
operands. -/
def Accepts (meaning : Interpretation α) (accepts : Text → Bool) : Prop :=
  ∀ text, (accepts text = true ∧ ∃ a, meaning.operand text = .ok a) ∨
    accepts text = false ∧ meaning.operand text = .error (.notAnOperand text)

/-- The entries of a stack are the surplus of the tokens that were taken, and there are none only if
no token was taken. -/
structure Counts (first : Postfix) (stack : List α) : Prop where
  /-- There are as many entries as there are more operands than operators. -/
  length_eq : (stack.length : Int) = surplus first
  /-- Every token leaves an entry on the stack. -/
  eq_nil : stack = [] → first = []

/-- At the start nothing was taken. -/
lemma counts_nil : Counts [] ([] : List α) := ⟨rfl, fun _ => rfl⟩

/-- A token is refused exactly if it is a fault, and otherwise the stack counts it. -/
lemma Counts.step (hmeaning : meaning.Accepts accepts) (h : Counts first stack) (token : Token)
    (rest : Postfix) :
    match meaning.step first.length stack token with
    | .error error => Fault accepts (first ++ token :: rest) first.length error
    | .ok stack' => (∀ error, ¬ Fault accepts (first ++ token :: rest) first.length error) ∧
        Counts (first ++ [token]) stack' := by
  simp only [Postfix.fault_append_cons_iff]
  have hlength := h.length_eq
  cases token with
  | operand text =>
    rw [Interpretation.step]
    rcases hmeaning text with ⟨haccepts, a, hvalue⟩ | ⟨hrefuses, hvalue⟩
    · rw [hvalue]
      refine ⟨?_, ?_, by simp⟩
      · rintro error (⟨hinvalid, -⟩ | ⟨op, hop, -⟩)
        · exact Bool.noConfusion (hinvalid.symm.trans haccepts)
        · simp at hop
      · rw [Postfix.surplus_append, Postfix.surplus_operand, ← hlength]
        rfl
    · rw [hvalue]
      exact .inl ⟨hrefuses, rfl⟩
  | operator op =>
    have hfew (hshort : stack.length < 2) : surplus first < 2 := by omega
    rcases stack with _ | ⟨right, _ | ⟨left, stack⟩⟩
    · exact .inr ⟨op, rfl, hfew Nat.zero_lt_two, rfl⟩
    · exact .inr ⟨op, rfl, hfew Nat.one_lt_two, rfl⟩
    · rw [List.length_cons, List.length_cons] at hlength
      refine ⟨?_, ?_, by simp⟩
      · rintro error (⟨hinvalid, -⟩ | ⟨-, -, hfew, -⟩)
        · exact hinvalid
        · omega
      · rw [Postfix.surplus_append, Postfix.surplus_operator, List.length_cons]
        omega
  | opening => exact .inl ⟨trivial, rfl⟩
  | closing => exact .inl ⟨trivial, rfl⟩

/-- A walk ends at the first fault, and otherwise its stack counts all tokens. -/
lemma Counts.run (hmeaning : meaning.Accepts accepts) (h : Counts first stack) (rest : Postfix)
    (hfirst : ∀ j < first.length, ∀ error, ¬ Fault accepts (first ++ rest) j error) :
    match meaning.run first.length stack rest with
    | .error error => ∃ i, FirstFault accepts (first ++ rest) i error
    | .ok stack' => Faultless accepts (first ++ rest) ∧ Counts (first ++ rest) stack' := by
  induction rest generalizing first stack with
  | nil =>
    rw [List.append_nil] at hfirst ⊢
    exact ⟨fun i error hfault => hfirst i hfault.lt_length error hfault, h⟩
  | cons token rest ih =>
    have hstep := h.step hmeaning token rest
    rw [Interpretation.run]
    cases hresult : meaning.step first.length stack token with
    | error error =>
      rw [hresult] at hstep
      exact ⟨first.length, hstep, hfirst⟩
    | ok stack' =>
      rw [hresult] at hstep
      obtain ⟨hnone, hcounts⟩ := hstep
      have happend : first ++ token :: rest = first ++ [token] ++ rest := by simp
      have hlength : (first ++ [token]).length = first.length + 1 := by simp
      have hfirst' : ∀ j < (first ++ [token]).length, ∀ error,
          ¬ Fault accepts (first ++ [token] ++ rest) j error := by
        intro j hj error
        rw [hlength] at hj
        rw [← happend]
        rcases Nat.lt_succ_iff_lt_or_eq.mp hj with hlt | rfl
        · exact hfirst j hlt error
        · exact hnone error
      have hnext := ih hcounts hfirst'
      rwa [hlength, ← happend] at hnext

/-- A sequence of tokens fails at its first fault.  If it has none, then it has a meaning if its
surplus is one, leaves several values if the surplus is greater, and nothing only if there are no
tokens. -/
lemma reduce_of_accepts (hmeaning : meaning.Accepts accepts) (tokens : Postfix) :
    (∃ i error, FirstFault accepts tokens i error ∧ meaning.reduce tokens = .error error) ∨
      Faultless accepts tokens ∧
        ((surplus tokens = 1 ∧ ∃ a, meaning.reduce tokens = .ok a) ∨
          (∃ d : Nat, 2 ≤ d ∧ surplus tokens = d ∧
            meaning.reduce tokens = .error (.severalValues d)) ∨
          (surplus tokens = 0 ∧ tokens = [] ∧
            meaning.reduce tokens = .error .nothingToEvaluate)) := by
  have hrun := counts_nil.run hmeaning tokens (by simp)
  rw [List.nil_append, List.length_nil] at hrun
  rw [reduce]
  cases hresult : meaning.run 0 [] tokens with
  | error error =>
    rw [hresult] at hrun
    obtain ⟨i, hfault⟩ := hrun
    exact .inl ⟨i, error, hfault, rfl⟩
  | ok stack =>
    rw [hresult] at hrun
    obtain ⟨hfaultless, hcounts⟩ := hrun
    refine .inr ⟨hfaultless, ?_⟩
    rcases stack with _ | ⟨a, _ | ⟨b, stack⟩⟩
    · exact .inr (.inr ⟨hcounts.length_eq.symm, hcounts.eq_nil rfl, rfl⟩)
    · exact .inl ⟨hcounts.length_eq.symm, a, rfl⟩
    · refine .inr (.inl ⟨stack.length + 2, by omega, hcounts.length_eq.symm, ?_⟩)
      exact result_cons_cons a b stack

end Interpretation

/-! ## Evaluation -/

namespace Postfix

/-- Evaluation accepts numerals. -/
lemma accepts_arithmetic (places : Nat) : (arithmetic places).Accepts Text.isNumeral := by
  intro text
  cases hnumeral : text.isNumeral with
  | false => exact .inr ⟨rfl, operandValue_of_not_isNumeral hnumeral⟩
  | true => exact .inl ⟨rfl, _, operandValue_eq_ok_iff.mpr ⟨hnumeral, rfl⟩⟩

/-- **How evaluation fails.**  Evaluation fails at the first fault of a sequence of tokens.  If there
is none, then it has a result if the operands exceed the operators by one, is left with several
values if they exceed them by more, and with nothing only if there are no tokens.  How it fails
does not depend on the count of decimal places, nor on what is computed: it fails in the same way if
any other numbers are the results of the operations. -/
theorem evaluate_firstFault_or_surplus (places : Nat) (tokens : Postfix) :
    ((∃ i error, FirstFault Text.isNumeral tokens i error ∧
        evaluate places tokens = .error error) ∨
      Faultless Text.isNumeral tokens ∧
        ((surplus tokens = 1 ∧ ∃ v, evaluate places tokens = .ok v) ∨
          (∃ d : Nat, 2 ≤ d ∧ surplus tokens = d ∧
            evaluate places tokens = .error (.severalValues d)) ∨
          (surplus tokens = 0 ∧ tokens = [] ∧
            evaluate places tokens = .error .nothingToEvaluate))) ∧
    (∀ places' error, evaluate places' tokens = .error error ↔
      evaluate places tokens = .error error) ∧
    ∀ (operation : Operator → Binary64 → Binary64 → Binary64) (error : Error),
      Interpretation.reduce ⟨operandValue, operation⟩ tokens = .error error ↔
        evaluate places tokens = .error error := by
  have hsame (operation : Operator → Binary64 → Binary64 → Binary64) (error : Error) :
      Interpretation.reduce ⟨operandValue, operation⟩ tokens = .error error ↔
        evaluate places tokens = .error error := by
    refine (Interpretation.alike_reduce fun text _ => ?_).error_iff error
    exact Alike.refl _
  refine ⟨Interpretation.reduce_of_accepts (accepts_arithmetic places) tokens, ?_, hsame⟩
  intro places' error
  exact hsame (arithmetic places').operation error

/-- In `1 2 + * inf` the second operator is the first fault, in front of the word. -/
example : evaluate 4 [.operand ['1'], .operand ['2'], .operator .add, .operator .mul,
    .operand "inf".toList] = .error (.missingOperands .mul 3) := rfl

end Postfix

end PostfixCalculator
