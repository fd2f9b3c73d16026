import PostfixCalculator.Proofs.Words
import PostfixCalculator.Token

/-!
# Tokens that can be read back

A token is written as its lexeme, and reading the lexeme should give the token again.  The type of
tokens admits operands for which this fails: an operand may be empty, may be one of the six
symbols, or may hold a separator.  The tokens that occur in expressions read from a text are not
of this kind, and a text printed from them divides into exactly their lexemes.
-/

namespace PostfixCalculator

open Text (IsWord isSeparator)

/-! ## Operands -/

/-- The lexemes with a meaning of their own: the four operators and the two parentheses. -/
def symbols : List Text := [['+'], ['-'], ['*'], ['/'], ['('], [')']]

/-- An operand is any non-empty lexeme that is none of the six symbols. -/
structure IsOperand (lexeme : Text) : Prop where
  /-- An operand has a character. -/
  ne_nil : lexeme ≠ []
  /-- An operand is no symbol. -/
  not_mem_symbols : lexeme ∉ symbols

/-- Whether a lexeme is an operand can be decided. -/
instance (lexeme : Text) : Decidable (IsOperand lexeme) :=
  decidable_of_iff (lexeme ≠ [] ∧ lexeme ∉ symbols) ⟨fun h => ⟨h.1, h.2⟩, fun h => ⟨h.1, h.2⟩⟩

/-- An operand is no opening parenthesis. -/
lemma IsOperand.ne_opening {x : Text} (h : IsOperand x) : x ≠ ['('] :=
  fun he => h.not_mem_symbols (he ▸ by decide)

/-- An operand is no closing parenthesis. -/
lemma IsOperand.ne_closing {x : Text} (h : IsOperand x) : x ≠ [')'] :=
  fun he => h.not_mem_symbols (he ▸ by decide)

namespace Operator

/-- The lexeme of an operator is a symbol. -/
lemma lexeme_mem_symbols (op : Operator) : op.lexeme ∈ symbols := by
  cases op <;> decide

/-- An operator is no opening parenthesis. -/
lemma lexeme_ne_opening (op : Operator) : op.lexeme ≠ ['('] := by
  cases op <;> decide

/-- An operator is no closing parenthesis. -/
lemma lexeme_ne_closing (op : Operator) : op.lexeme ≠ [')'] := by
  cases op <;> decide

end Operator

/-- An operand is no operator. -/
lemma IsOperand.ne_operator {x : Text} (h : IsOperand x) (op : Operator) : x ≠ op.lexeme :=
  fun he => h.not_mem_symbols (he ▸ op.lexeme_mem_symbols)

namespace Token

variable {token : Token} {tokens : List Token} {x : Text} {position : Nat}

/-! ## Reading a lexeme back -/

/-- A token is legible if its text, should it be an operand, is the text of an operand. -/
def Legible : Token → Prop
  | operand text => IsOperand text
  | _ => True

/-- An operand is read as it is written. -/
lemma ofLexeme_of_isOperand (h : IsOperand x) : ofLexeme x = operand x := by
  have hop : Operator.ofLexeme? x = none := by
    rw [Option.eq_none_iff_forall_ne_some]
    intro op he
    exact h.ne_operator op (Operator.ofLexeme?_eq_some_iff.mp he)
  unfold ofLexeme
  split
  · exact absurd (by decide) h.not_mem_symbols
  · exact absurd (by decide) h.not_mem_symbols
  · rw [hop]

/-- An operator is read from its lexeme. -/
@[simp] lemma ofLexeme_operator (op : Operator) : ofLexeme op.lexeme = operator op := by
  cases op <;> rfl

/-- Only an operand is read as an operand. -/
lemma not_mem_symbols_of_ofLexeme {text : Text} (h : ofLexeme x = operand text) :
    x ∉ symbols := by
  intro hmem
  simp only [symbols, List.mem_cons, List.not_mem_nil, or_false] at hmem
  rcases hmem with rfl | rfl | rfl | rfl | rfl | rfl <;> simp [ofLexeme, Operator.ofLexeme?] at h

/-- Whatever is read from a lexeme is legible, if only the lexeme is not empty. -/
lemma legible_ofLexeme (h : x ≠ []) : (ofLexeme x).Legible := by
  cases hread : ofLexeme x with
  | operand text =>
    have htext : text = x := (congrArg lexeme hread).symm.trans (lexeme_ofLexeme x)
    exact htext ▸ ⟨h, not_mem_symbols_of_ofLexeme hread⟩
  | operator op => trivial
  | opening => trivial
  | closing => trivial

/-- A legible token is what its lexeme is read as. -/
lemma ofLexeme_lexeme (h : token.Legible) : ofLexeme token.lexeme = token := by
  cases token with
  | operand text => exact ofLexeme_of_isOperand h
  | operator op => exact ofLexeme_operator op
  | opening => rfl
  | closing => rfl

/-- The lexeme of a legible token is not empty. -/
lemma lexeme_ne_nil (h : token.Legible) : token.lexeme ≠ [] := by
  cases token with
  | operand text => exact h.ne_nil
  | operator op => simp [lexeme, Operator.lexeme]
  | opening => simp [lexeme]
  | closing => simp [lexeme]

/-- A legible token is read from its lexeme at any position. -/
@[simp] lemma read_lexeme (h : token.Legible) : read position token.lexeme = .ok token := by
  simp [read, lexeme_ne_nil h, ofLexeme_lexeme h]

/-- Legible tokens are read from their lexemes. -/
lemma readFrom_lexemes (h : ∀ token ∈ tokens, token.Legible) :
    readFrom position (tokens.map lexeme) = .ok tokens := by
  induction tokens generalizing position with
  | nil => rfl
  | cons token tokens ih =>
    have htoken : token.Legible := h token List.mem_cons_self
    have htokens : readFrom (position + 1) (tokens.map lexeme) = .ok tokens :=
      ih fun t ht => h t (List.mem_cons_of_mem _ ht)
    simp [readFrom, read_lexeme htoken, htokens, Except.map]

/-! ## Reading a text back -/

/-- A token is printable if it is legible and its lexeme is a word. -/
structure Printable (token : Token) : Prop where
  /-- The token is read back from its lexeme. -/
  legible : token.Legible
  /-- The lexeme is not divided by separators. -/
  isWord : IsWord token.lexeme

/-- An operand is printable if it is one and no character of it is a separator. -/
lemma printable_operand {text : Text} (h : IsOperand text)
    (hc : ∀ c ∈ text, isSeparator c = false) : (operand text).Printable :=
  ⟨h, h.ne_nil, hc⟩

/-- Every token but an operand is printable. -/
lemma printable_of_not_operand (h : ∀ text, token ≠ operand text) : token.Printable := by
  cases token with
  | operand text => exact absurd rfl (h text)
  | operator op => exact ⟨trivial, by cases op <;> exact Text.isWord_singleton rfl⟩
  | opening => exact ⟨trivial, Text.isWord_singleton rfl⟩
  | closing => exact ⟨trivial, Text.isWord_singleton rfl⟩

/-- The text of printable tokens divides into their lexemes under either spacing. -/
lemma tokens_text (spacing : Spacing) (h : ∀ token ∈ tokens, token.Printable) :
    spacing.tokens (text tokens) = tokens.map lexeme := by
  apply Spacing.tokens_unwords
  intro word hword
  obtain ⟨token, htoken, rfl⟩ := List.mem_map.mp hword
  exact (h token htoken).isWord

/-- Printable tokens are read back from their text under either spacing. -/
theorem readFrom_tokens_text (spacing : Spacing) (h : ∀ token ∈ tokens, token.Printable) :
    readFrom position (spacing.tokens (text tokens)) = .ok tokens := by
  rw [tokens_text spacing h]
  exact readFrom_lexemes fun token htoken => (h token htoken).legible

end Token

end PostfixCalculator
