import PostfixCalculator.Proofs.Legible
import PostfixCalculator.Proofs.Parentheses

/-!
# Empty tokens

A text has the same tokens under both spacings, except that strict spacing adds empty ones.  In
front of the first empty token there is no difference at all, and where there is none, both
spacings give the same tokens.

The proof goes along the text.  A separator at the start of a text is passed over by lenient
spacing and stands behind an empty token under strict spacing; a text that starts otherwise starts
with a word, which is a token under both.
-/

namespace PostfixCalculator

open Text (isSeparator IsWord)

namespace Spacing

variable {text : Text}

/-! ## Tokens under both spacings -/

/-- Under strict spacing a separator at the start stands behind an empty token, unless only
separators follow. -/
lemma tokens_strict_cons {c : Char} (hc : isSeparator c = true)
    (hall : text.all isSeparator = false) :
    strict.tokens (c :: text) = [] :: strict.tokens text :=
  tokens_of_next_some (next_strict_cons hc hall)

/-- A text of separators has no tokens. -/
lemma tokens_of_all {spacing : Spacing} (h : text.all isSeparator = true) :
    spacing.tokens text = [] :=
  tokens_of_next_none (next_fst_eq_none_iff.mpr h)

/-- The tokens under lenient spacing are those under strict spacing that are not empty. -/
theorem tokens_lenient_eq_filter (text : Text) :
    lenient.tokens text = (strict.tokens text).filter fun token => !token.isEmpty := by
  induction text using wordInduction with
  | separators text hall => rw [tokens_of_all hall, tokens_of_all hall, List.filter_nil]
  | separator c text hc hall ih =>
    rw [tokens_lenient_cons hc, tokens_strict_cons hc hall, ih]
    simp
  | word word hword =>
    rw [tokens_word hword, tokens_word hword]
    simp [hword.ne_nil]
  | wordAppend word c rest hword hc ih =>
    rw [tokens_word_append hword hc, tokens_word_append hword hc, ih]
    simp [hword.ne_nil]

/-! ## The first empty token -/

/-- The position of the first empty token that strict spacing gives. -/
def firstEmpty? (text : Text) : Option Nat := (strict.tokens text).findIdx? List.isEmpty

/-- The position of the first empty token that strict spacing gives, unless some closing parenthesis
in front of it has no partner. -/
def firstEmptyReached? (text : Text) : Option Nat :=
  (firstEmpty? text).filter fun position =>
    (depthAfter 0 ((strict.tokens text).take position)).isSome

/-- If strict spacing gives no empty token, then its tokens are those of lenient spacing. -/
lemma tokens_of_firstEmpty?_eq_none (h : firstEmpty? text = none) :
    strict.tokens text = lenient.tokens text := by
  have hne : ∀ token ∈ strict.tokens text, token.isEmpty = false := List.findIdx?_eq_none_iff.mp h
  rw [tokens_lenient_eq_filter, List.filter_eq_self.mpr]
  intro token htoken
  rw [hne token htoken, Bool.not_false]

/-- No token under lenient spacing is empty. -/
lemma ne_nil_of_mem_tokens_lenient : ∀ token ∈ lenient.tokens text, token ≠ [] := by
  intro token htoken
  rw [tokens_lenient_eq_filter] at htoken
  simpa using (List.mem_filter.mp htoken).2

/-- In front of the first empty token both spacings give the same tokens, none of which is empty. -/
lemma exists_tokens_of_firstEmpty?_eq_some {position : Nat} (h : firstEmpty? text = some position) :
    ∃ first second rest, first = (strict.tokens text).take position ∧ first.length = position ∧
      (∀ token ∈ first, token ≠ []) ∧
      strict.tokens text = first ++ [] :: second ∧ lenient.tokens text = first ++ rest := by
  obtain ⟨hlt, hempty, hbefore⟩ := List.findIdx?_eq_some_iff_getElem.mp h
  let first := (strict.tokens text).take position
  let second := (strict.tokens text).drop (position + 1)
  have hne : ∀ token ∈ first, token.isEmpty = false := by
    intro token htoken
    obtain ⟨i, hi, rfl⟩ := List.mem_take_iff_getElem.mp htoken
    simpa using hbefore i (by omega)
  have hstrict : strict.tokens text = first ++ [] :: second := by
    have hdrop := List.drop_eq_getElem_cons hlt
    rw [List.isEmpty_iff.mp hempty] at hdrop
    rw [← hdrop, List.take_append_drop]
  refine ⟨first, second, second.filter fun token => !token.isEmpty, rfl, ?_, ?_, hstrict, ?_⟩
  · exact List.length_take_of_le (Nat.le_of_lt hlt)
  · intro token htoken
    simpa using hne token htoken
  · have hfirst : first.filter (fun token => !token.isEmpty) = first := by
      rw [List.filter_eq_self]
      intro token htoken
      rw [hne token htoken, Bool.not_false]
    rw [tokens_lenient_eq_filter, hstrict, List.filter_append, hfirst]
    simp

end Spacing

/-! ## Reading up to an empty token -/

namespace Token

variable {first second lexemes : List Text} {position : Nat}

/-- Lexemes that are not empty are all read. -/
lemma readFrom_of_ne_nil (hne : ∀ x ∈ lexemes, x ≠ []) :
    readFrom position lexemes = .ok (lexemes.map ofLexeme) := by
  induction lexemes generalizing position with
  | nil => rfl
  | cons x lexemes ih =>
    have hx : x ≠ [] := hne x List.mem_cons_self
    have hlexemes : readFrom (position + 1) lexemes = .ok (lexemes.map ofLexeme) :=
      ih fun y hy => hne y (List.mem_cons_of_mem _ hy)
    simp [readFrom, read, hx, hlexemes, Except.map]

/-- The first empty lexeme is refused. -/
lemma readFrom_append_nil (hne : ∀ x ∈ first, x ≠ []) :
    readFrom position (first ++ [] :: second) = .error (.emptyToken (position + first.length)) := by
  induction first generalizing position with
  | nil => rfl
  | cons x first ih =>
    have hx : x ≠ [] := hne x List.mem_cons_self
    have hfirst : readFrom (position + 1) (first ++ [] :: second) =
        .error (.emptyToken (position + 1 + first.length)) :=
      ih fun y hy => hne y (List.mem_cons_of_mem _ hy)
    simp only [List.cons_append, readFrom, read, List.isEmpty_eq_false_iff.mpr hx, hfirst]
    simp [Except.map, Nat.add_comm, Nat.add_left_comm]

end Token

end PostfixCalculator
