import PostfixCalculator.Proofs.Output
import PostfixCalculator.Settings

/-!
# Conversion and evaluation by way of text

An expression in infix order can be evaluated in one go, or converted to a text in postfix order
which is then evaluated on its own.  The two agree because every token in the result of a
conversion is printable, so that the text in between is read back as the tokens it was printed
from, whatever the spacing.  Nothing has to be assumed of the expression: an operand may be any
text, and the tokens need not be in an order that can be evaluated.
-/

namespace PostfixCalculator

namespace Settings

variable {settings : Settings} {text written : Text} {tokens : Postfix}

/-- The tokens that a text is converted to are printable. -/
lemma printable_of_parse (h : settings.parse text = .ok tokens) :
    ∀ token ∈ tokens, token.Printable := by
  refine Postfix.forall_mem_ofLexemes ?_ ?_ h
  · exact fun op => Token.printable_of_not_operand (by simp)
  · exact fun x hx hoperand =>
      Token.printable_operand hoperand (Spacing.not_separator_of_mem_tokens hx)

/-- A text is converted to the text of its tokens. -/
lemma convert_eq_ok_iff : settings.convert text = .ok written ↔
    ∃ tokens, settings.parse text = .ok tokens ∧ Token.text tokens = written := by
  rw [convert]
  cases settings.parse text <;> simp [Except.map]

/-- A text is not converted if its tokens are not. -/
lemma convert_eq_error_iff {error : Error} :
    settings.convert text = .error error ↔ settings.parse text = .error error := by
  rw [convert]
  cases settings.parse text <;> simp [Except.map]

/-- The value of the text of printable tokens is the value of the tokens. -/
lemma evaluate_text (h : ∀ token ∈ tokens, token.Printable) :
    settings.evaluate (Token.text tokens) =
      (Postfix.evaluate settings.precision tokens).map Binary64.toText := by
  rw [evaluate, Token.readFrom_tokens_text settings.spacing h, Except.bind]

/-- **The textual pipeline.**  If a text cannot be converted, then it cannot be evaluated, for the
same reason.  If it is converted, then under either spacing the result is read back as the tokens
that it was printed from, and evaluating it gives what evaluating the text in one go gives. -/
theorem evaluate_convert (settings : Settings) (text : Text) :
    (∀ error, settings.convert text = .error error →
      settings.evaluateInfix text = .error error) ∧
    ∀ written, settings.convert text = .ok written → ∀ spacing : Spacing,
      (∃ tokens, settings.parse text = .ok tokens ∧
        Token.readFrom 0 (spacing.tokens written) = .ok tokens) ∧
      { settings with spacing }.evaluate written =
        (settings.evaluateInfix text).map Binary64.toText := by
  constructor
  · intro error h
    rw [evaluateInfix, convert_eq_error_iff.mp h, Except.bind]
  · intro written h spacing
    obtain ⟨tokens, hparse, rfl⟩ := convert_eq_ok_iff.mp h
    have hprintable := printable_of_parse hparse
    refine ⟨⟨tokens, hparse, Token.readFrom_tokens_text spacing hprintable⟩, ?_⟩
    rw [evaluateInfix, hparse, Except.bind, evaluate_text hprintable]

/-- The text ` ( 1  - 2 )  x`, which is neither grammatical nor evaluated, is converted to
`1 2 - x`, and this is refused for the same reason under strict spacing. -/
theorem evaluate_convert_leftover :
    ({} : Settings).convert " ( 1  - 2 )  x".toList = .ok "1 2 - x".toList ∧
      ({ spacing := .strict } : Settings).evaluate "1 2 - x".toList =
        (({} : Settings).evaluateInfix " ( 1  - 2 )  x".toList).map Binary64.toText := by
  have h : ({} : Settings).convert " ( 1  - 2 )  x".toList = .ok "1 2 - x".toList := by cbv
  exact ⟨h, ((evaluate_convert {} _).2 _ h .strict).2⟩

end Settings

end PostfixCalculator
