import Mathlib.Data.List.DropRight
import PostfixCalculator.Proofs.Cursor.Tokens
import PostfixCalculator.Proofs.EmptyTokens

/-!
# Strict tokens as pieces

Cutting a text at every separator gives one piece more than there are separators.  The tokens under
strict spacing are these pieces without the empty ones at the end.

The proof goes from word to word.  A separator at the start cuts off an empty piece and stands
behind an empty token, as long as a word follows; a word with a separator behind it is a piece and
a token.  At the end there are only separators left: between them all pieces are empty, and no
token is taken.
-/

namespace PostfixCalculator

universe u

open Text (isSeparator IsWord unwords)

/-! ## Pieces -/

namespace Text

variable {text word : Text} {c : Char}

/-- The pieces into which a text is cut at every separator. -/
def pieces (text : Text) : List Text := text.splitOnP isSeparator

/-- There is one piece more than there are separators. -/
lemma length_pieces (text : Text) : (pieces text).length = text.countP isSeparator + 1 := by
  unfold pieces
  induction text with
  | nil => simp
  | cons c text ih =>
    by_cases hc : isSeparator c = true <;> simp [List.splitOnP_cons_eq_if_modifyHead, hc, ih]

/-- A separator at the start cuts off an empty piece. -/
lemma pieces_cons (hc : isSeparator c = true) : pieces (c :: text) = [] :: pieces text := by
  simp [pieces, List.splitOnP_cons_eq_if_modifyHead, hc]

/-- Only empty pieces stand between separators. -/
lemma isEmpty_of_mem_pieces (hall : text.all isSeparator = true) :
    ∀ piece ∈ pieces text, piece.isEmpty = true := by
  induction text with
  | nil => simp [pieces]
  | cons c text ih =>
    obtain ⟨hc, htext⟩ : isSeparator c = true ∧ text.all isSeparator = true := by simpa using hall
    rw [pieces_cons hc]
    intro piece hpiece
    rcases List.mem_cons.mp hpiece with rfl | hpiece
    · rfl
    · exact ih htext piece hpiece

/-- A word is not cut. -/
lemma pieces_word (hword : IsWord word) : pieces word = [word] :=
  List.splitOnP_eq_singleton hword.not_separator

/-- A word with a separator behind it is the first piece. -/
lemma pieces_word_append (hword : IsWord word) (hc : isSeparator c = true) :
    pieces (word ++ c :: text) = word :: pieces text :=
  List.splitOnP_append_cons_of_forall_mem hword.not_separator c hc text

/-! ## Texts that are spaced throughout -/

/-- The only separators are spaces, and no space is at the end. -/
structure IsSpaced (text : Text) : Prop where
  /-- A separator is a space. -/
  eq_space : ∀ c ∈ text, isSeparator c = true → c = ' '
  /-- The last character is no space. -/
  getLast?_ne : text.getLast? ≠ some ' '

/-- What stands at the end of such a text is such a text. -/
lemma IsSpaced.of_append (first : Text) (h : IsSpaced (first ++ text)) (hne : text ≠ []) :
    IsSpaced text := by
  refine ⟨fun c hc => h.eq_space c (List.mem_append_right first hc), ?_⟩
  rw [← List.getLast?_append_of_ne_nil first hne]
  exact h.getLast?_ne

/-- Such a text does not consist of separators. -/
lemma IsSpaced.all_eq_false (h : IsSpaced text) (hne : text ≠ []) :
    text.all isSeparator = false := by
  rw [Bool.eq_false_iff]
  intro hall
  have hmem : text.getLast hne ∈ text := List.getLast_mem hne
  have hlast : text.getLast hne = ' ' := h.eq_space _ hmem (List.all_eq_true.mp hall _ hmem)
  exact h.getLast?_ne (by rw [List.getLast?_eq_some_getLast hne, hlast])

/-- A word stands with a space in front of other ones. -/
lemma unwords_cons_of_ne_nil {words : List Text} (hne : words ≠ []) :
    unwords (word :: words) = word ++ ' ' :: unwords words := by
  obtain ⟨second, words, rfl⟩ := List.exists_cons_of_ne_nil hne
  exact unwords_cons_cons word second words

end Text

open Text (IsSpaced pieces)

/-- What is dropped at the end of a list does not reach its first item, if that is to stay or
something behind it stays. -/
lemma rdropWhile_cons {α : Type u} {test : α → Bool} {item : α} {items : List α}
    (h : test item = false ∨ items.rdropWhile test ≠ []) :
    (item :: items).rdropWhile test = item :: items.rdropWhile test := by
  simp only [List.rdropWhile, List.reverse_cons, List.dropWhile_append]
  by_cases hnil : items.reverse.dropWhile test = []
  · have hitem : test item = false := h.resolve_right (by simp only [List.rdropWhile, hnil]; simp)
    simp [hnil, hitem]
  · rw [if_neg (by simpa only [List.isEmpty_iff] using hnil), List.reverse_append]
    rfl

namespace Spacing

variable {spacing : Spacing} {text : Text}

/-! ## Tokens and pieces -/

/-- A text has no tokens if and only if it consists of separators. -/
lemma tokens_eq_nil_iff : spacing.tokens text = [] ↔ text.all isSeparator = true := by
  constructor
  · intro h
    rcases hnext : spacing.next text with ⟨_ | token, rest⟩
    · exact next_fst_eq_none_iff.mp (by rw [hnext])
    · rw [tokens_of_next_some hnext] at h
      cases h
  · exact tokens_of_all

/-- The tokens under strict spacing are the pieces without the empty ones at the end. -/
lemma tokens_strict_eq_rdropWhile (text : Text) :
    strict.tokens text = (pieces text).rdropWhile List.isEmpty := by
  induction text using wordInduction with
  | separators text hall =>
    rw [tokens_of_all hall, List.rdropWhile_eq_nil_iff.mpr (Text.isEmpty_of_mem_pieces hall)]
  | separator c text hc hall ih =>
    have hne : strict.tokens text ≠ [] := by simp [tokens_eq_nil_iff, hall]
    rw [tokens_strict_cons hc hall, Text.pieces_cons hc, rdropWhile_cons (.inr (ih ▸ hne)), ih]
  | word word hword =>
    have hne : word.isEmpty = false := List.isEmpty_eq_false_iff.mpr hword.ne_nil
    rw [tokens_word hword, Text.pieces_word hword, List.rdropWhile_singleton, hne]
    rfl
  | wordAppend word c rest hword hc ih =>
    have hne : word.isEmpty = false := List.isEmpty_eq_false_iff.mpr hword.ne_nil
    rw [tokens_word_append hword hc, Text.pieces_word_append hword hc, rdropWhile_cons (.inl hne),
      ih]

/-! ## Joining the tokens -/

/-- The tokens under strict spacing of a text that is spaced throughout are joined to the text
again. -/
lemma unwords_tokens_strict (h : IsSpaced text) : unwords (strict.tokens text) = text := by
  induction text using wordInduction with
  | separators text hall =>
    have hnil : text = [] := by
      by_contra hne
      simp [h.all_eq_false hne] at hall
    rw [hnil, tokens_nil, Text.unwords_nil]
  | separator c text hc hall ih =>
    obtain rfl := h.eq_space c List.mem_cons_self hc
    have hne : strict.tokens text ≠ [] := by simp [tokens_eq_nil_iff, hall]
    have htext : IsSpaced text := h.of_append [' '] (by rintro rfl; simp at hall)
    rw [tokens_strict_cons hc hall, Text.unwords_cons_of_ne_nil hne, ih htext, List.nil_append]
  | word word hword => rw [tokens_word hword, Text.unwords_singleton]
  | wordAppend word c rest hword hc ih =>
    have hbehind : IsSpaced (c :: rest) := h.of_append word (List.cons_ne_nil c rest)
    obtain rfl := hbehind.eq_space c List.mem_cons_self hc
    have hall : rest.all isSeparator = false := by
      simpa [hc] using hbehind.all_eq_false (List.cons_ne_nil _ _)
    have hne : strict.tokens rest ≠ [] := by simp [tokens_eq_nil_iff, hall]
    have hrest : IsSpaced rest := hbehind.of_append [' '] (by rintro rfl; simp at hall)
    rw [tokens_word_append hword hc, Text.unwords_cons_of_ne_nil hne, ih hrest]

/-- **Strict tokens.**  Cutting a text at every separator gives one piece more than it has
separators, and its tokens under strict spacing are these pieces without the empty ones at the
end.  Taken one after the other, from the text or at a cursor in front of it, they come in this
order, and nothing comes in any call after them.  If the only separators are spaces and the text
does not end with one, then joining the tokens with single spaces gives the text back. -/
theorem tokens_strict_eq_pieces (text : Text) :
    (pieces text).length = text.countP isSeparator + 1 ∧
    strict.tokens text = (pieces text).rdropWhile List.isEmpty ∧
    (∀ n, resultAfter strict.next n text = ((pieces text).rdropWhile List.isEmpty)[n]?) ∧
    (∀ n, resultAfter (Cursor.nextToken strict) n (Cursor.ofList text) =
      ((pieces text).rdropWhile List.isEmpty)[n]?) ∧
    ((∀ c ∈ text, isSeparator c = true → c = ' ') → text.getLast? ≠ some ' ' →
      unwords (strict.tokens text) = text) := by
  have htokens := tokens_strict_eq_rdropWhile text
  refine ⟨Text.length_pieces text, htokens, fun n => ?_, fun n => ?_, fun hspace hlast => ?_⟩
  · rw [resultAfter_next, htokens]
  · rw [Cursor.resultAfter_nextToken, htokens]
  · exact unwords_tokens_strict ⟨hspace, hlast⟩

/-- Two tokens of the text ` a  b` are empty, and joining its tokens gives it back. -/
theorem tokens_strict_eq_pieces_spaces :
    unwords (strict.tokens [' ', 'a', ' ', ' ', 'b']) = [' ', 'a', ' ', ' ', 'b'] :=
  (tokens_strict_eq_pieces _).2.2.2.2 (by simp [Text.isSeparator_iff]) (by simp)

end Spacing

end PostfixCalculator
