import Mathlib.Tactic.Lemma
import PostfixCalculator.Text.Basic

/-!
# Lines that are printed and read back

A text without line feeds and carriage returns can be printed as a line: printed one after the
other, each with a line feed behind it, such texts are told apart again.  A carriage return must be
excluded too, since at the end of a line it is taken for a part of the line's end.
-/

namespace PostfixCalculator

namespace Text

variable {line text text' : Text} {words texts : List Text} {c : Char}

/-- The texts in order, each with a line feed behind it. -/
def unlines (texts : List Text) : Text := texts.flatMap (· ++ ['\n'])

/-- A text can be printed as a line if it has neither a line feed nor a carriage return. -/
structure IsLine (text : Text) : Prop where
  /-- There is no line feed. -/
  lineFeed_not_mem : '\n' ∉ text
  /-- There is no carriage return. -/
  return_not_mem : '\r' ∉ text

/-- Whether a text can be printed as a line can be decided. -/
instance (text : Text) : Decidable (IsLine text) :=
  decidable_of_iff ('\n' ∉ text ∧ '\r' ∉ text) ⟨fun h => ⟨h.1, h.2⟩, fun h => ⟨h.1, h.2⟩⟩

/-- Two parts of a line make up a line. -/
lemma IsLine.append (h : IsLine text) (h' : IsLine text') : IsLine (text ++ text') := by
  refine ⟨?_, ?_⟩
  · simp [h.lineFeed_not_mem, h'.lineFeed_not_mem]
  · simp [h.return_not_mem, h'.return_not_mem]

/-- Two strings that can be printed in a line can be printed one behind the other. -/
lemma IsLine.toList_append {s t : String} (hs : IsLine s.toList) (ht : IsLine t.toList) :
    IsLine (s ++ t).toList := by
  rw [String.toList_append]
  exact hs.append ht

/-- A part of a line is a line. -/
lemma IsLine.of_subset (h : IsLine text') (hsub : text ⊆ text') : IsLine text :=
  ⟨fun hmem => h.lineFeed_not_mem (hsub hmem), fun hmem => h.return_not_mem (hsub hmem)⟩

/-- A text without separators can be printed as a line. -/
lemma isLine_of_not_separator (h : ∀ c ∈ text, isSeparator c = false) : IsLine text := by
  refine ⟨fun hmem => ?_, fun hmem => ?_⟩
  · have hfalse := h '\n' hmem
    simp [isSeparator, separators] at hfalse
  · have hfalse := h '\r' hmem
    simp [isSeparator, separators] at hfalse

/-- A string with a line feed behind it is a line. -/
lemma toList_append_lineFeed (line : String) : (line ++ "\n").toList = unlines [line.toList] := by
  have hend : "\n".toList = ['\n'] := by decide
  rw [String.toList_append, hend]
  simp [unlines]

/-! ## Characters of words that are joined -/

/-- Only spaces are added when words are joined. -/
lemma mem_unwords (h : c ∈ unwords words) : c = ' ' ∨ ∃ word ∈ words, c ∈ word := by
  induction words with
  | nil => simp at h
  | cons first words ih =>
    cases words with
    | nil =>
      rw [unwords_singleton] at h
      exact .inr ⟨first, List.mem_cons_self, h⟩
    | cons second words =>
      rw [unwords_cons_cons] at h
      rcases List.mem_append.mp h with h | h
      · exact .inr ⟨first, List.mem_cons_self, h⟩
      · rcases List.mem_cons.mp h with h | h
        · exact .inl h
        · refine (ih h).imp_right ?_
          rintro ⟨word, hword, hc⟩
          exact ⟨word, List.mem_cons_of_mem _ hword, hc⟩

/-- No character is lost when words are joined. -/
lemma mem_unwords_of_mem {word : Text} (hword : word ∈ words) (hc : c ∈ word) :
    c ∈ unwords words := by
  induction words with
  | nil => simp at hword
  | cons first words ih =>
    cases words with
    | nil =>
      obtain rfl := List.mem_singleton.mp hword
      rwa [unwords_singleton]
    | cons second words =>
      rw [unwords_cons_cons]
      rcases List.mem_cons.mp hword with rfl | hword
      · exact List.mem_append_left _ hc
      · exact List.mem_append_right _ (List.mem_cons_of_mem _ (ih hword))

/-- Words that are joined start with the first character of the first word. -/
lemma exists_unwords_eq_cons (c : Char) (word : Text) (words : List Text) :
    ∃ text, unwords ((c :: word) :: words) = c :: text := by
  cases words with
  | nil => exact ⟨word, unwords_singleton _⟩
  | cons second words => exact ⟨_, unwords_cons_cons _ _ _⟩

/-! ## Reading lines back -/

/-- Nothing is taken off the end of a line that has no carriage return. -/
lemma dropReturn_of_isLine (h : IsLine line) : dropReturn line = line := by
  unfold dropReturn
  rw [if_neg]
  intro hlast
  exact h.return_not_mem (List.mem_of_getLast? hlast)

/-- What stands in front of the first line feed is the first line. -/
lemma lines_append_lineFeed (h : IsLine line) (text : Text) :
    lines (line ++ '\n' :: text) = line :: lines text := by
  have hline : line.splitOnP (· == '\n') = [line] := by
    refine List.splitOnP_eq_singleton fun c hc => ?_
    have hne : c ≠ '\n' := fun heq => h.lineFeed_not_mem (heq ▸ hc)
    simp [hne]
  have hpieces : (line ++ '\n' :: text).splitOnP (· == '\n') =
      line :: text.splitOnP (· == '\n') := by
    rw [List.splitOnP_append_cons _ _ (by decide), hline, List.singleton_append]
  obtain ⟨piece, pieces, hsplit⟩ :=
    List.exists_cons_of_ne_nil (List.splitOnP_ne_nil (· == '\n') text)
  unfold lines
  simp only [hpieces, hsplit]
  simp [dropReturn_of_isLine h]

/-- Texts that can be printed as lines are the lines of what is printed. -/
theorem lines_unlines (h : ∀ text ∈ texts, IsLine text) : lines (unlines texts) = texts := by
  induction texts with
  | nil => rfl
  | cons first texts ih =>
    have hfirst : IsLine first := h first List.mem_cons_self
    have htexts : lines (unlines texts) = texts :=
      ih fun text htext => h text (List.mem_cons_of_mem _ htext)
    have hunlines : unlines (first :: texts) = first ++ '\n' :: unlines texts := by
      simp [unlines]
    rw [hunlines, lines_append_lineFeed hfirst, htexts]

end Text

end PostfixCalculator
