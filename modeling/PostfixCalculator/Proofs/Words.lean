import Mathlib.Data.List.TakeWhile
import PostfixCalculator.Spacing

/-!
# Words and their texts

A word is a lexeme that separators cannot divide or lose: it is not empty and holds no separator.
Words joined by single spaces are told apart again under either spacing, and this is the only
fact about texts that reading a printed expression depends on.

The proof goes along the words.  What stands behind the first word starts with a separator;
strict spacing takes that separator away with the word, lenient spacing skips it before the next
one, so that in both cases the tokens that follow are those of the text behind the separator.
-/

namespace PostfixCalculator

open Text

/-- A word is a non-empty text without separators. -/
structure Text.IsWord (text : Text) : Prop where
  /-- A word has a character. -/
  ne_nil : text ≠ []
  /-- No character of a word is a separator. -/
  not_separator : ∀ c ∈ text, isSeparator c = false

/-- A single character that is no separator is a word. -/
lemma Text.isWord_singleton {c : Char} (h : isSeparator c = false) : IsWord [c] := by
  refine ⟨List.cons_ne_nil c [], fun d hd => ?_⟩
  obtain rfl := List.mem_singleton.mp hd
  exact h

namespace Spacing

variable {spacing : Spacing} {text token rest word : Text}

/-! ## Single tokens -/

/-- The tokens of a text are its first one and those of the text behind it. -/
lemma tokens_of_next_some (h : spacing.next text = (some token, rest)) :
    spacing.tokens text = token :: spacing.tokens rest := by
  unfold tokens
  rw [drain]
  split
  · next h' => simp [h] at h'
  · next h' =>
    rw [h] at h'
    obtain ⟨rfl, rfl⟩ : token = _ ∧ rest = _ := by simpa using h'
    rfl

/-- A text that has no first token has none at all. -/
lemma tokens_of_next_none (h : (spacing.next text).1 = none) : spacing.tokens text = [] := by
  unfold tokens
  rw [drain]
  split
  · rfl
  · next h' => simp [h'] at h

/-- The empty text has no tokens. -/
@[simp] lemma tokens_nil : spacing.tokens [] = [] :=
  tokens_of_next_none rfl

/-- Lenient spacing passes over a separator. -/
lemma next_lenient_cons {c : Char} (h : isSeparator c = true) :
    lenient.next (c :: text) = lenient.next text := by
  simp [next, h]

/-- Strict spacing takes an empty token in front of a separator, unless only separators follow. -/
lemma next_strict_cons {c : Char} (hc : isSeparator c = true)
    (hall : text.all isSeparator = false) : strict.next (c :: text) = (some [], text) := by
  simp [next, hc, hall]

/-- The tokens under lenient spacing are those behind a separator at the start. -/
lemma tokens_lenient_cons {c : Char} (h : isSeparator c = true) :
    lenient.tokens (c :: text) = lenient.tokens text := by
  have hcons : lenient.next (c :: text) = lenient.next text := next_lenient_cons h
  rcases hnext : lenient.next text with ⟨_ | token, rest⟩
  · have hnone : (lenient.next text).1 = none := by rw [hnext]
    rw [tokens_of_next_none hnone, tokens_of_next_none (hcons ▸ hnone)]
  · rw [tokens_of_next_some hnext, tokens_of_next_some (hcons.trans hnext)]

/-! ## Words at the start of a text -/

/-- A text that starts with a word does not consist of separators. -/
lemma all_append_eq_false (hw : IsWord word) : (word ++ rest).all isSeparator = false := by
  obtain ⟨c, word, rfl⟩ := List.exists_cons_of_ne_nil hw.ne_nil
  have hc : isSeparator c = false := hw.not_separator c List.mem_cons_self
  simp [hc]

/-- Lenient spacing skips nothing in front of a word. -/
lemma dropWhile_isSeparator_append (hw : IsWord word) :
    (word ++ rest).dropWhile isSeparator = word ++ rest := by
  obtain ⟨c, word, rfl⟩ := List.exists_cons_of_ne_nil hw.ne_nil
  have hc : isSeparator c = false := hw.not_separator c List.mem_cons_self
  simp [hc]

/-- A word alone is the only token of its text. -/
lemma tokens_word (hw : IsWord word) : spacing.tokens word = [word] := by
  have hall : (word ++ []).all isSeparator = false := all_append_eq_false hw
  have hskip : (word ++ []).dropWhile isSeparator = word ++ [] := dropWhile_isSeparator_append hw
  rw [List.append_nil] at hall hskip
  have hword : ∀ c ∈ word, (!isSeparator c) = true := by simpa using hw.not_separator
  have hnext : spacing.next word = (some word, []) := by
    cases spacing <;>
      simp [next, hall, hskip, List.takeWhile_eq_self_iff.mpr hword,
        List.dropWhile_eq_nil_iff.mpr hword]
  rw [tokens_of_next_some hnext, tokens_nil]

/-- A word with a separator behind it is the first token, and the others are those of the text
behind the separator. -/
lemma tokens_word_append (hw : IsWord word) {c : Char} (hc : isSeparator c = true) :
    spacing.tokens (word ++ c :: rest) = word :: spacing.tokens rest := by
  have hword : ∀ d ∈ word, (!isSeparator d) = true := by simpa using hw.not_separator
  have htake : (word ++ c :: rest).takeWhile (!isSeparator ·) = word := by
    simp [List.takeWhile_append_of_pos hword, hc]
  have hdrop : (word ++ c :: rest).dropWhile (!isSeparator ·) = c :: rest := by
    simp [List.dropWhile_append_of_pos hword, hc]
  cases spacing with
  | lenient =>
    have hnext : lenient.next (word ++ c :: rest) = (some word, c :: rest) := by
      simp only [next, all_append_eq_false hw, dropWhile_isSeparator_append hw, htake, hdrop,
        Bool.false_eq_true, if_false]
    rw [tokens_of_next_some hnext, tokens_lenient_cons hc]
  | strict =>
    have hnext : strict.next (word ++ c :: rest) = (some word, rest) := by
      simp only [next, all_append_eq_false hw, htake, hdrop, Bool.false_eq_true, if_false,
        List.drop_one, List.tail_cons]
    exact tokens_of_next_some hnext

/-- Words joined by single spaces are the tokens of their text under either spacing. -/
theorem tokens_unwords {words : List Text} (hw : ∀ word ∈ words, IsWord word) :
    spacing.tokens (unwords words) = words := by
  induction words with
  | nil => simp
  | cons first words ih =>
    have hfirst : IsWord first := hw first List.mem_cons_self
    have hwords : ∀ word ∈ words, IsWord word := fun word h => hw word (List.mem_cons_of_mem _ h)
    cases words with
    | nil => rw [unwords_singleton, tokens_word hfirst]
    | cons second words =>
      rw [unwords_cons_cons, tokens_word_append hfirst (by decide), ih hwords]

/-! ## From word to word -/

/-- The characters up to the next separator end in front of a separator. -/
lemma isSeparator_of_dropWhile_eq_cons {c : Char}
    (h : text.dropWhile (!isSeparator ·) = c :: rest) : isSeparator c = true := by
  have hhead := List.head?_dropWhile_not (!isSeparator ·) text
  simpa [h] using hhead

/-- A text that does not start with a separator starts with a word, behind which it ends or goes on
with a separator. -/
lemma exists_word {c : Char} (hc : isSeparator c = false) (text : Text) :
    ∃ word, IsWord word ∧ (c :: text = word ∨
      ∃ d rest, isSeparator d = true ∧ c :: text = word ++ d :: rest) := by
  let word : Text := c :: text.takeWhile (!isSeparator ·)
  have hword : IsWord word := by
    refine ⟨List.cons_ne_nil _ _, fun d hd => ?_⟩
    rcases List.mem_cons.mp hd with rfl | hd
    · exact hc
    · simpa using List.mem_takeWhile_imp hd
  have hsplit : c :: text = word ++ text.dropWhile (!isSeparator ·) := by
    simp only [word, List.cons_append, List.takeWhile_append_dropWhile]
  refine ⟨word, hword, ?_⟩
  cases hrest : text.dropWhile (!isSeparator ·) with
  | nil => exact .inl (by rw [hsplit, hrest, List.append_nil])
  | cons d rest =>
    exact .inr ⟨d, rest, isSeparator_of_dropWhile_eq_cons hrest, by rw [hsplit, hrest]⟩

/-- Induction from word to word: a text consists of separators, or starts with a separator in front
of such a text, or is a word, or goes on behind a word with a separator. -/
@[elab_as_elim]
theorem wordInduction {motive : Text → Prop}
    (separators : ∀ text : Text, text.all isSeparator = true → motive text)
    (separator : ∀ (c : Char) (text : Text), isSeparator c = true →
      text.all isSeparator = false → motive text → motive (c :: text))
    (word : ∀ word : Text, IsWord word → motive word)
    (wordAppend : ∀ (word : Text) (c : Char) (rest : Text), IsWord word → isSeparator c = true →
      motive rest → motive (word ++ c :: rest)) (text : Text) : motive text := by
  induction hn : text.length using Nat.strongRecOn generalizing text with
  | ind n ih =>
    by_cases hall : text.all isSeparator = true
    · exact separators text hall
    · rw [Bool.not_eq_true] at hall
      cases text with
      | nil => simp at hall
      | cons c text =>
        by_cases hc : isSeparator c = true
        · have hrest : text.all isSeparator = false := by simpa [hc] using hall
          have hshorter : text.length < n := by simp [← hn]
          exact separator c text hc hrest (ih _ hshorter text rfl)
        · rw [Bool.not_eq_true] at hc
          obtain ⟨first, hfirst, heq | ⟨d, rest, hd, heq⟩⟩ := exists_word hc text
          · rw [heq]
            exact word first hfirst
          · have hshorter : rest.length < n := by
              rw [← hn, heq, List.length_append, List.length_cons]
              omega
            rw [heq]
            exact wordAppend first d rest hfirst hd (ih _ hshorter rest rfl)

/-! ## The characters of tokens -/

/-- A token holds no separator. -/
lemma not_separator_of_next (h : spacing.next text = (some token, rest)) :
    ∀ c ∈ token, isSeparator c = false := by
  have htake (t : Text) : ∀ c ∈ t.takeWhile (!isSeparator ·), isSeparator c = false := by
    intro c hc
    simpa using List.mem_takeWhile_imp hc
  have hall : ¬text.all isSeparator = true := by
    intro hall
    simp [next_of_all hall] at h
  -- Both rules cut a token as the longest run of other characters, if not from the same place.
  cases spacing with
  | lenient =>
    simp only [next, if_neg hall, Prod.mk.injEq, Option.some.injEq] at h
    exact h.1 ▸ htake (text.dropWhile isSeparator)
  | strict =>
    simp only [next, if_neg hall, Prod.mk.injEq, Option.some.injEq] at h
    exact h.1 ▸ htake text

/-- No token of a text holds a separator. -/
theorem not_separator_of_mem_tokens (h : token ∈ spacing.tokens text) :
    ∀ c ∈ token, isSeparator c = false := by
  induction hn : text.length using Nat.strongRecOn generalizing text with
  | ind n ih =>
    rcases hnext : spacing.next text with ⟨_ | first, rest⟩
    · rw [tokens_of_next_none (by rw [hnext])] at h
      simp at h
    · rw [tokens_of_next_some hnext] at h
      rcases List.mem_cons.mp h with rfl | h
      · exact not_separator_of_next hnext
      · exact ih rest.length (hn ▸ length_lt_of_next hnext) h rfl

end Spacing

end PostfixCalculator
