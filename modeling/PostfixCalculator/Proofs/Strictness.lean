import PostfixCalculator.Proofs.EmptyTokens
import PostfixCalculator.Proofs.OpenGroups
import PostfixCalculator.Proofs.Pipeline

/-!
# Strict spacing only refuses empty tokens

In front of the first empty token strict and lenient spacing give the same tokens.  A computation
under strict spacing therefore either ends in front of that token, just as under lenient spacing,
or it comes to the token and refuses it; and if there is no empty token, then it reads the same
tokens.

Evaluation takes all tokens before it computes anything, so that it always comes to the empty
token.  Conversion takes them one by one and comes to it unless a closing parenthesis without a
partner stands in front of it.
-/

namespace PostfixCalculator

/-! ## Conversion up to an empty lexeme -/

namespace Postfix

variable {first second second' : List Text} {depth : Nat}

/-- A conversion refuses the first empty lexeme if it comes to it. -/
lemma ofLexemes_append_nil (hne : ∀ x ∈ first, x ≠ []) (h : depthAfter 0 first = some depth) :
    (ofLexemes (first ++ [] :: second)).1 = .error (.emptyToken first.length) := by
  obtain ⟨c, hrun, -, hposition⟩ := Conversion.exists_run_of_depthAfter (c := {}) hne h
  have hempty : c.run ([] :: second) = (.error (.emptyToken first.length), second) := by
    simp [Conversion.run, Conversion.read, Token.read, Except.bind, hposition]
  simp only [ofLexemes, Conversion.run_append hrun, hempty, Except.bind]

/-- What stands behind a closing parenthesis without a partner does not matter to a conversion. -/
lemma ofLexemes_append_of_depthAfter (hne : ∀ x ∈ first, x ≠ []) (h : depthAfter 0 first = none) :
    (ofLexemes (first ++ second)).1 = (ofLexemes (first ++ second')).1 := by
  obtain ⟨position, unread, hrun⟩ := Conversion.run_of_depthAfter (c := {}) hne h
  simp only [ofLexemes, Conversion.run_append_of_error hrun, Except.bind]

end Postfix

/-! ## Errors of evaluation -/

namespace Interpretation

variable {α : Type} {meaning : Interpretation α} {position k : Nat} {stack : List α}
  {tokens : Postfix}

/-- A walk with a stack finds no empty token if no operand is refused as one. -/
lemma run_ne_emptyToken (h : ∀ text, meaning.operand text ≠ .error (.emptyToken k)) :
    meaning.run position stack tokens ≠ .error (.emptyToken k) := by
  induction tokens generalizing position stack with
  | nil => simp [run]
  | cons token tokens ih =>
    have hstep : meaning.step position stack token ≠ .error (.emptyToken k) := by
      cases token with
      | operand text =>
        have htext := h text
        cases hvalue : meaning.operand text <;> simp_all [step, Except.map]
      | operator op =>
        obtain _ | ⟨a, _ | ⟨b, stack⟩⟩ := stack
        · simp [step]
        · simp [step]
        · simp [step]
      | opening | closing => simp [step]
    rw [run]
    cases hresult : meaning.step position stack token with
    | error error => simpa [hresult] using hstep
    | ok stack => exact ih

/-- A sequence of tokens is not refused as an empty token if no operand is. -/
lemma reduce_ne_emptyToken (h : ∀ text, meaning.operand text ≠ .error (.emptyToken k)) :
    meaning.reduce tokens ≠ .error (.emptyToken k) := by
  have hrun : meaning.run 0 [] tokens ≠ .error (.emptyToken k) := run_ne_emptyToken h
  rw [reduce]
  cases hstack : meaning.run 0 [] tokens with
  | error error => simpa [Except.bind, hstack] using hrun
  | ok stack =>
    rw [Except.bind]
    unfold result
    split <;> simp

end Interpretation

/-- Evaluation finds no empty token. -/
lemma Postfix.evaluate_ne_emptyToken {places k : Nat} {tokens : Postfix} :
    Postfix.evaluate places tokens ≠ .error (.emptyToken k) := by
  refine Interpretation.reduce_ne_emptyToken fun text => ?_
  change operandValue text ≠ _
  unfold operandValue
  split <;> simp

/-! ## Computations under both spacings -/

namespace Settings

variable {settings : Settings} {text : Text}

/-- Under lenient spacing a text is evaluated as its tokens are. -/
lemma evaluate_lenient : ({ settings with spacing := .lenient } : Settings).evaluate text =
    (Postfix.evaluate settings.precision ((Spacing.lenient.tokens text).map Token.ofLexeme)).map
      Binary64.toText := by
  rw [evaluate, Token.readFrom_of_ne_nil Spacing.ne_nil_of_mem_tokens_lenient]
  rfl

/-- Under strict spacing the first empty token is refused before anything is evaluated. -/
lemma evaluate_strict : ({ settings with spacing := .strict } : Settings).evaluate text =
    (Spacing.firstEmpty? text).elim
      (({ settings with spacing := .lenient } : Settings).evaluate text)
      fun k => .error (.emptyToken k) := by
  cases hempty : Spacing.firstEmpty? text with
  | none =>
    rw [evaluate, evaluate, Option.elim_none, Spacing.tokens_of_firstEmpty?_eq_none hempty]
  | some position =>
    obtain ⟨first, second, rest, -, hlength, hne, hstrict, -⟩ :=
      Spacing.exists_tokens_of_firstEmpty?_eq_some hempty
    rw [evaluate, hstrict, Token.readFrom_append_nil hne, hlength, Nat.zero_add]
    rfl

/-- Under strict spacing the first empty token is refused if the conversion comes to it. -/
lemma parse_strict : ({ settings with spacing := .strict } : Settings).parse text =
    (Spacing.firstEmptyReached? text).elim
      (({ settings with spacing := .lenient } : Settings).parse text)
      fun k => .error (.emptyToken k) := by
  rw [parse, parse, Spacing.firstEmptyReached?]
  cases hempty : Spacing.firstEmpty? text with
  | none =>
    rw [Spacing.tokens_of_firstEmpty?_eq_none hempty]
    rfl
  | some position =>
    obtain ⟨first, second, rest, hfirst, hlength, hne, hstrict, hlenient⟩ :=
      Spacing.exists_tokens_of_firstEmpty?_eq_some hempty
    rw [Option.filter_some, ← hfirst, hstrict, hlenient]
    cases hdepth : depthAfter 0 first with
    | none => exact Postfix.ofLexemes_append_of_depthAfter hne hdepth
    | some depth => exact hlength ▸ Postfix.ofLexemes_append_nil hne hdepth

/-- Under lenient spacing a conversion finds no empty token. -/
lemma parse_lenient_ne_emptyToken {k : Nat} :
    ({ settings with spacing := .lenient } : Settings).parse text ≠ .error (.emptyToken k) := by
  intro h
  obtain ⟨position, hposition⟩ :=
    Postfix.exists_of_ofLexemes_eq_error Spacing.ne_nil_of_mem_tokens_lenient h
  simp at hposition

/-- Under lenient spacing an evaluation finds no empty token. -/
lemma evaluate_lenient_ne_emptyToken {k : Nat} :
    ({ settings with spacing := .lenient } : Settings).evaluate text ≠ .error (.emptyToken k) := by
  intro h
  rw [evaluate_lenient] at h
  cases hvalue : Postfix.evaluate settings.precision
      ((Spacing.lenient.tokens text).map Token.ofLexeme) with
  | ok value => simp [hvalue, Except.map] at h
  | error error =>
    obtain rfl : error = .emptyToken k := by simpa [hvalue, Except.map] using h
    exact Postfix.evaluate_ne_emptyToken hvalue

/-- Under lenient spacing the value of a text in infix order is not refused for an empty token. -/
lemma evaluateInfix_lenient_ne_emptyToken {k : Nat} :
    ({ settings with spacing := .lenient } : Settings).evaluateInfix text ≠
      .error (.emptyToken k) := by
  intro h
  rw [evaluateInfix] at h
  cases hparse : ({ settings with spacing := .lenient } : Settings).parse text with
  | error error =>
    obtain rfl : error = .emptyToken k := by simpa [hparse, Except.bind] using h
    exact parse_lenient_ne_emptyToken hparse
  | ok tokens =>
    rw [hparse] at h
    exact Postfix.evaluate_ne_emptyToken h

/-- **Strict spacing only refuses empty tokens.**  Under strict spacing a text in postfix order is
refused at its first empty token if it has one, and is otherwise evaluated as under lenient spacing.
A text in infix order is refused there unless a closing parenthesis without a partner stands in
front, and is otherwise converted and evaluated as under lenient spacing.  Under lenient spacing
there are no empty tokens. -/
theorem strict_eq_lenient_or_emptyToken (settings : Settings) (text : Text) :
    let strict : Settings := { settings with spacing := .strict }
    let lenient : Settings := { settings with spacing := .lenient }
    strict.evaluate text =
        (Spacing.firstEmpty? text).elim (lenient.evaluate text) (fun k => .error (.emptyToken k)) ∧
      strict.convert text =
        (Spacing.firstEmptyReached? text).elim (lenient.convert text)
          (fun k => .error (.emptyToken k)) ∧
      strict.evaluateInfix text =
        (Spacing.firstEmptyReached? text).elim (lenient.evaluateInfix text)
          (fun k => .error (.emptyToken k)) ∧
      ∀ k, lenient.evaluate text ≠ .error (.emptyToken k) ∧
        lenient.convert text ≠ .error (.emptyToken k) ∧
        lenient.evaluateInfix text ≠ .error (.emptyToken k) := by
  refine ⟨evaluate_strict, ?_, ?_, fun k => ⟨evaluate_lenient_ne_emptyToken, ?_,
    evaluateInfix_lenient_ne_emptyToken⟩⟩
  · rw [convert, convert, parse_strict]
    cases Spacing.firstEmptyReached? text <;> rfl
  · rw [evaluateInfix, evaluateInfix, parse_strict]
    cases Spacing.firstEmptyReached? text <;> rfl
  · intro h
    exact parse_lenient_ne_emptyToken (convert_eq_error_iff.mp h)

/-- In `1 )  2` the closing parenthesis stands in front of the empty token.  It is what a conversion
refuses, and the empty token is what an evaluation refuses. -/
example :
    ({ spacing := .strict } : Settings).convert "1 )  2".toList =
        .error (.unmatchedParenthesis 1) ∧
      ({ spacing := .strict } : Settings).evaluate "1 )  2".toList = .error (.emptyToken 2) := by
  constructor <;> cbv

end Settings

end PostfixCalculator
