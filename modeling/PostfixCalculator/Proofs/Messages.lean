import PostfixCalculator.Proofs.Lines
import PostfixCalculator.Proofs.OpenGroups
import PostfixCalculator.Proofs.Pipeline

/-!
# What is printed stands in lines

Numbers, tokens and error messages are printed as parts of lines, and none of them has a line break
in it.  For messages this is a matter of where an error comes from: a message may quote a lexeme,
and what it quotes is always a token of the expression, which holds no separator.
-/

namespace PostfixCalculator

open Text (IsLine isSeparator)

/-! ## Numbers and tokens -/

/-- The digits of a whole number can be printed in a line. -/
lemma isLine_toDigits (n : Nat) : IsLine (Nat.toDigits 10 n) := by
  have hdigit : ∀ c ∈ Nat.toDigits 10 n, c.isDigit = true :=
    fun c hc => Nat.isDigit_of_mem_toDigits (by decide) (by decide) hc
  refine ⟨fun hmem => ?_, fun hmem => ?_⟩
  · exact absurd (hdigit _ hmem) (by decide)
  · exact absurd (hdigit _ hmem) (by decide)

/-- Zeros can be printed in a line. -/
lemma isLine_replicate_zero (n : Nat) : IsLine (List.replicate n '0') := by
  constructor <;> simp

/-- Digits with a point can be printed in a line. -/
lemma Decimal.isLine_withPoint (digits places : Nat) : IsLine (withPoint digits places) := by
  let spelled := Nat.toDigits 10 digits
  let padded := List.replicate (places + 1 - spelled.length) '0' ++ spelled
  have hpadded : IsLine padded := (isLine_replicate_zero _).append (isLine_toDigits digits)
  have hwhole := hpadded.of_subset (List.take_subset (padded.length - places) padded)
  have hfraction := hpadded.of_subset (List.drop_subset (padded.length - places) padded)
  have hpoint : IsLine ['.'] := by decide
  exact hwhole.append (hpoint.append hfraction)

/-- A decimal can be printed in a line. -/
lemma Decimal.isLine_positional (decimal : Decimal) : IsLine decimal.positional := by
  have hsign : IsLine (if decimal.negative then ['-'] else []) := by
    split <;> decide
  unfold positional
  refine hsign.append ?_
  split
  · exact (isLine_toDigits _).append (isLine_replicate_zero _)
  · exact isLine_withPoint _ _

/-- A number can be printed in a line. -/
lemma Binary64.isLine_toText (x : Binary64) : IsLine x.toText := by
  unfold toText
  split
  · decide
  · decide
  · decide
  · split
    · decide
    · exact Decimal.isLine_positional _

/-- The text of printable tokens can be printed in a line. -/
lemma Token.isLine_text {tokens : List Token} (h : ∀ token ∈ tokens, token.Printable) :
    IsLine (text tokens) := by
  have hc : ∀ c ∈ text tokens, c = ' ' ∨ isSeparator c = false := by
    intro c hc
    refine (Text.mem_unwords hc).imp_right ?_
    rintro ⟨word, hword, hmem⟩
    obtain ⟨token, htoken, rfl⟩ := List.mem_map.mp hword
    exact (h token htoken).isWord.not_separator c hmem
  refine ⟨fun hmem => ?_, fun hmem => ?_⟩
  · rcases hc _ hmem with hspace | hsep
    · exact absurd hspace (by decide)
    · exact absurd hsep (by decide)
  · rcases hc _ hmem with hspace | hsep
    · exact absurd hspace (by decide)
    · exact absurd hsep (by decide)

/-! ## Errors -/

/-- The lexeme that the message of an error quotes, if it is not that of an operator. -/
def Error.quoted : Error → Text
  | notAnOperator lexeme => lexeme
  | notAnOperand lexeme => lexeme
  | _ => []

/-- The message of an error can be printed in a line if what it quotes can. -/
lemma Error.isLine_message {error : Error} (h : IsLine error.quoted) :
    IsLine error.message.toList := by
  have hnumber (n : Nat) : IsLine n.repr.toList := by
    rw [Nat.toList_repr]
    exact isLine_toDigits n
  have hlexeme {lexeme : Text} (hlexeme : IsLine lexeme) : IsLine (String.ofList lexeme).toList := by
    rwa [String.toList_ofList]
  cases error with
  | notAnOperator lexeme =>
    have hquote : IsLine "`".toList := by decide
    have hbehind : IsLine "` is not an operator".toList := by decide
    exact (hquote.toList_append (hlexeme h)).toList_append hbehind
  | notAnOperand lexeme =>
    have hbefore : IsLine "The operator: ".toList := by decide
    have hbehind : IsLine " is invalid.".toList := by decide
    exact (hbefore.toList_append (hlexeme h)).toList_append hbehind
  | unmatchedParenthesis position =>
    have hbefore : IsLine "unbalanced parenthesis at token ".toList := by decide
    exact hbefore.toList_append (hnumber position)
  | missingOperands op position =>
    have hop : IsLine op.lexeme := by cases op <;> decide
    have hbefore : IsLine "operator `".toList := by decide
    have hbetween : IsLine "` at token ".toList := by decide
    have hbehind : IsLine " needs two operands".toList := by decide
    exact (((hbefore.toList_append (hlexeme hop)).toList_append hbetween).toList_append
      (hnumber position)).toList_append hbehind
  | nothingToEvaluate => decide
  | severalValues count =>
    have hbehind : IsLine " values left on the stack, expected one".toList := by decide
    exact (hnumber count).toList_append hbehind
  | emptyToken position =>
    have hbefore : IsLine "empty token at ".toList := by decide
    have hbehind : IsLine ", tokens must be separated by exactly one space".toList := by decide
    exact (hbefore.toList_append (hnumber position)).toList_append hbehind

namespace Conversion

variable {c : Conversion} {x : Text} {token : Token} {lexemes unread : List Text} {error : Error}

/-- An error of a conversion quotes nothing. -/
lemma quoted_of_step (h : c.step token = .error error) : error.quoted = [] := by
  cases token with
  | operand | operator | opening => simp [step] at h
  | closing =>
    rw [step] at h
    split at h
    · simp at h
    · obtain rfl := Except.error.inj h
      rfl

/-- An error of a conversion quotes nothing. -/
lemma quoted_of_read (h : c.read x = .error error) : error.quoted = [] := by
  unfold read Token.read at h
  cases x with
  | nil =>
    obtain rfl : .emptyToken c.position = error := by simpa [Except.bind] using h
    rfl
  | cons d x => exact quoted_of_step (by simpa [Except.bind] using h)

/-- An error of a conversion quotes nothing. -/
lemma quoted_of_run (h : c.run lexemes = (.error error, unread)) : error.quoted = [] := by
  induction lexemes generalizing c with
  | nil => simp [run] at h
  | cons x lexemes ih =>
    rw [run] at h
    cases hread : c.read x with
    | ok next => exact ih (by simpa [hread] using h)
    | error error' =>
      obtain ⟨rfl, -⟩ : error' = error ∧ _ := by simpa [hread] using h
      exact quoted_of_read hread

end Conversion

/-- An error of a conversion quotes nothing. -/
lemma Settings.quoted_of_parse {settings : Settings} {text : Text} {error : Error}
    (h : settings.parse text = .error error) : error.quoted = [] := by
  unfold parse Postfix.ofLexemes at h
  rcases hrun : ({} : Conversion).run (settings.spacing.tokens text) with ⟨_ | c, unread⟩
  · obtain rfl : _ = error := by simpa [hrun, Except.bind] using h
    exact Conversion.quoted_of_run hrun
  · have hfinish : c.finish = .error error := by simpa [hrun, Except.bind] using h
    obtain ⟨position, rfl⟩ := Conversion.exists_of_finish_eq_error hfinish
    rfl

namespace Interpretation

variable {α : Type} {meaning : Interpretation α} {position : Nat} {stack : List α}
  {token : Token} {tokens : Postfix} {error : Error}

/-- An error at a token quotes nothing or the token, if an error at an operand quotes the operand. -/
lemma quoted_of_step (hoperand : ∀ text, meaning.operand text = .error error → error.quoted = text)
    (h : meaning.step position stack token = .error error) :
    error.quoted = [] ∨ error.quoted = token.lexeme := by
  cases token with
  | operand text =>
    rw [step] at h
    cases hvalue : meaning.operand text with
    | ok a => simp [hvalue, Except.map] at h
    | error error' =>
      obtain rfl : error' = error := by simpa [hvalue, Except.map] using h
      exact .inr (hoperand text hvalue)
  | operator op =>
    match stack, h with
    | [], h | [_], h =>
      obtain rfl := Except.error.inj h
      exact .inl rfl
    | _ :: _ :: _, h => simp [step] at h
  | opening | closing =>
    obtain rfl := Except.error.inj h
    exact .inr rfl

/-- An error of a walk with a stack quotes nothing or a token. -/
lemma quoted_of_run (hoperand : ∀ text, meaning.operand text = .error error → error.quoted = text)
    (h : meaning.run position stack tokens = .error error) :
    error.quoted = [] ∨ ∃ token ∈ tokens, error.quoted = token.lexeme := by
  induction tokens generalizing position stack with
  | nil => simp [run] at h
  | cons token tokens ih =>
    rw [run] at h
    cases hstep : meaning.step position stack token with
    | ok next =>
      refine (ih (by simpa [hstep] using h)).imp_right ?_
      rintro ⟨token', hmem, hquoted⟩
      exact ⟨token', List.mem_cons_of_mem _ hmem, hquoted⟩
    | error error' =>
      obtain rfl : error' = error := by simpa [hstep] using h
      refine (quoted_of_step hoperand hstep).imp_right fun hquoted => ?_
      exact ⟨token, List.mem_cons_self, hquoted⟩

end Interpretation

/-- An error of an evaluation quotes nothing or a token. -/
lemma Postfix.quoted_of_evaluate {places : Nat} {tokens : Postfix} {error : Error}
    (h : Postfix.evaluate places tokens = .error error) :
    error.quoted = [] ∨ ∃ token ∈ tokens, error.quoted = token.lexeme := by
  have hoperand : ∀ text, (arithmetic places).operand text = .error error → error.quoted = text := by
    intro text htext
    change operandValue text = .error error at htext
    unfold operandValue at htext
    split at htext
    · simp at htext
    · obtain rfl := Except.error.inj htext
      rfl
  rw [evaluate, Interpretation.reduce] at h
  cases hrun : (arithmetic places).run 0 [] tokens with
  | error error' =>
    obtain rfl : error' = error := by simpa [hrun, Except.bind] using h
    exact Interpretation.quoted_of_run hoperand hrun
  | ok stack =>
    have hresult : Interpretation.result stack = .error error := by
      simpa [hrun, Except.bind] using h
    match stack, hresult with
    | [], hresult | _ :: _ :: _, hresult =>
      obtain rfl := Except.error.inj hresult
      exact .inl rfl
    | [_], hresult => simp [Interpretation.result] at hresult

end PostfixCalculator
