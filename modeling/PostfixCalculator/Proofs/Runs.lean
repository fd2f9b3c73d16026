import Mathlib.Data.List.Basic
import PostfixCalculator.Proofs.Cursor.Tokens
import PostfixCalculator.Proofs.EmptyTokens

/-!
# Lenient tokens as maximal runs

The tokens under lenient spacing are the longest stretches of a text without separators, in the
order in which they stand there.  Two stretches of a text may be equal as texts, so that a run is
given with the position at which it starts.

A separator divides the runs of a text into those in front of it and those behind it, since no run
goes across it and the separator ends what stands next to it.  So the runs are found from word to
word, as the tokens are.
-/

namespace PostfixCalculator

open Text (isSeparator IsWord)

namespace Text

variable {text run word first second : Text} {position : Nat} {c : Char}

/-! ## Maximal runs -/

/-- A word stands at a position of a text, and is not continued on either side. -/
structure IsMaximalRun (text : Text) (position : Nat) (run : Text) : Prop where
  /-- The run is not empty and has no separators. -/
  isWord : IsWord run
  /-- The run stands at the position between two others, which are empty or have separators next to
  it. -/
  stands : ∃ before after, before.length = position ∧ text = before ++ (run ++ after) ∧
    (∀ c ∈ before.getLast?, isSeparator c = true) ∧ ∀ c ∈ after.head?, isSeparator c = true

/-- There are no runs among separators. -/
lemma not_isMaximalRun_of_all (hall : text.all isSeparator = true) :
    ¬ IsMaximalRun text position run := by
  rintro ⟨hrun, before, after, -, rfl, -, -⟩
  obtain ⟨c, hc⟩ := List.exists_mem_of_ne_nil run hrun.ne_nil
  have hsep : isSeparator c = true := List.all_eq_true.mp hall c (by simp [hc])
  simp [hrun.not_separator c hc] at hsep

/-- The only run of a word is the word. -/
lemma isMaximalRun_word_iff (hword : IsWord word) :
    IsMaximalRun word position run ↔ position = 0 ∧ run = word := by
  constructor
  · rintro ⟨hrun, before, after, rfl, rfl, hbefore, hafter⟩
    have hnil : before = [] := by
      by_contra hne
      have hsep := hbefore _ (List.getLast?_eq_some_getLast hne)
      have hmem : before.getLast hne ∈ before := List.getLast_mem hne
      simp [hword.not_separator _ (List.mem_append_left _ hmem)] at hsep
    have hnil' : after = [] := by
      cases after with
      | nil => rfl
      | cons c after =>
        have hsep := hafter c rfl
        simp [hword.not_separator c (by simp)] at hsep
    simp [hnil, hnil']
  · rintro ⟨rfl, rfl⟩
    exact ⟨hword, [], [], rfl, by simp, by simp, by simp⟩

/-- Behind a separator a text ends with what follows, or with the separator. -/
lemma getLast?_cons_separator_iff (hc : isSeparator c = true) :
    (∀ d ∈ (c :: text).getLast?, isSeparator d = true) ↔
      ∀ d ∈ text.getLast?, isSeparator d = true := by
  cases text with
  | nil => simpa using hc
  | cons d text => rw [List.getLast?_cons_cons]

/-- In front of a separator a text starts with what precedes, or with the separator. -/
lemma head?_append_separator_iff (hc : isSeparator c = true) :
    (∀ d ∈ (text ++ c :: second).head?, isSeparator d = true) ↔
      ∀ d ∈ text.head?, isSeparator d = true := by
  cases text with
  | nil => simpa using hc
  | cons d text => rfl

/-- The runs of a text with a separator in it are those in front of the separator and those behind
it. -/
lemma isMaximalRun_append_cons_iff (hc : isSeparator c = true) :
    IsMaximalRun (first ++ c :: second) position run ↔
      IsMaximalRun first position run ∨
        ∃ position', position = first.length + 1 + position' ∧
          IsMaximalRun second position' run := by
  constructor
  · rintro ⟨hrun, before, after, rfl, hsplit, hbefore, hafter⟩
    have hmem : c ∉ run := fun hmem => by simp [hrun.not_separator c hmem] at hc
    rcases List.append_eq_append_iff.mp hsplit with ⟨tail, rfl, htail⟩ | ⟨tail, rfl, htail⟩
    · -- The run starts behind the separator, since it cannot start with it.
      cases tail with
      | nil =>
        obtain ⟨d, run, rfl⟩ := List.exists_cons_of_ne_nil hrun.ne_nil
        obtain ⟨rfl, -⟩ := List.cons.inj htail
        exact absurd List.mem_cons_self hmem
      | cons d tail =>
        obtain ⟨rfl, rfl⟩ := List.cons.inj htail
        rw [List.getLast?_append_of_ne_nil _ (List.cons_ne_nil _ _),
          getLast?_cons_separator_iff hc] at hbefore
        refine .inr ⟨tail.length, ?_, hrun, tail, after, rfl, rfl, hbefore, hafter⟩
        rw [List.length_append, List.length_cons]
        omega
    · -- The run starts in front of the separator, and ends there too.
      rcases List.append_eq_append_iff.mp htail with ⟨rest, rfl, rfl⟩ | ⟨rest, rfl, hrest⟩
      · rw [head?_append_separator_iff hc] at hafter
        exact .inl ⟨hrun, before, rest, rfl, rfl, hbefore, hafter⟩
      · cases rest with
        | nil => exact .inl ⟨hrun, before, [], rfl, by simp, hbefore, by simp⟩
        | cons d rest =>
          obtain ⟨rfl, -⟩ := List.cons.inj hrest
          exact absurd (List.mem_append_right _ List.mem_cons_self) hmem
  · rintro (⟨hrun, before, after, rfl, rfl, hbefore, hafter⟩ |
      ⟨position', rfl, hrun, before, after, rfl, rfl, hbefore, hafter⟩)
    · refine ⟨hrun, before, after ++ c :: second, rfl, by simp, hbefore, ?_⟩
      rw [head?_append_separator_iff hc]
      exact hafter
    · refine ⟨hrun, first ++ c :: before, after, ?_, by simp, ?_, hafter⟩
      · rw [List.length_append, List.length_cons]
        omega
      · rw [List.getLast?_append_of_ne_nil _ (List.cons_ne_nil _ _),
          getLast?_cons_separator_iff hc]
        exact hbefore

/-- A run starts within the text. -/
lemma IsMaximalRun.position_lt (h : IsMaximalRun text position run) : position < text.length := by
  obtain ⟨hrun, before, after, rfl, rfl, -, -⟩ := h
  have hpos : 0 < run.length := List.length_pos_iff.mpr hrun.ne_nil
  simp only [List.length_append]
  omega

/-! ## Lists of runs -/

/-- All maximal runs of a text with their positions, in the order in which they stand there. -/
structure AreRuns (text : Text) (runs : List (Nat × Text)) : Prop where
  /-- The runs are given in their order, none of them twice. -/
  sorted : runs.Pairwise fun run run' => run.1 < run'.1
  /-- All runs are given, and nothing else. -/
  mem_iff : ∀ position run, (position, run) ∈ runs ↔ IsMaximalRun text position run

/-- The runs of a text that stands behind some characters. -/
def shiftRuns (n : Nat) (runs : List (Nat × Text)) : List (Nat × Text) :=
  runs.map fun run => (n + run.1, run.2)

/-- Shifting moves every run. -/
lemma mem_shiftRuns {n : Nat} {runs : List (Nat × Text)} :
    (position, run) ∈ shiftRuns n runs ↔
      ∃ position', position = n + position' ∧ (position', run) ∈ runs := by
  simp only [shiftRuns, List.mem_map, Prod.exists, Prod.mk.injEq]
  constructor
  · rintro ⟨position', run', hmem, rfl, rfl⟩
    exact ⟨position', rfl, hmem⟩
  · rintro ⟨position', rfl, hmem⟩
    exact ⟨position', run, hmem, rfl, rfl⟩

/-- Shifting does not change the runs as texts. -/
lemma map_snd_shiftRuns (n : Nat) (runs : List (Nat × Text)) :
    (shiftRuns n runs).map Prod.snd = runs.map Prod.snd := by
  simp [shiftRuns, Function.comp_def]

/-- Among separators there are no runs. -/
lemma areRuns_of_all (hall : text.all isSeparator = true) : AreRuns text [] :=
  ⟨.nil, fun _ _ => iff_of_false List.not_mem_nil (not_isMaximalRun_of_all hall)⟩

/-- A word is its only run. -/
lemma areRuns_word (hword : IsWord word) : AreRuns word [(0, word)] := by
  refine ⟨List.pairwise_singleton _ _, fun position run => ?_⟩
  rw [isMaximalRun_word_iff hword, List.mem_singleton, Prod.mk.injEq]

/-- The runs in front of a separator come before those behind it. -/
lemma AreRuns.append_cons {runs runs' : List (Nat × Text)} (h : AreRuns first runs)
    (h' : AreRuns second runs') (hc : isSeparator c = true) :
    AreRuns (first ++ c :: second) (runs ++ shiftRuns (first.length + 1) runs') := by
  refine ⟨?_, fun position run => ?_⟩
  · rw [List.pairwise_append]
    refine ⟨h.sorted, ?_, ?_⟩
    · rw [shiftRuns, List.pairwise_map]
      exact h'.sorted.imp fun hlt => Nat.add_lt_add_left hlt _
    · rintro ⟨position, run⟩ hmem ⟨position', run'⟩ hmem'
      obtain ⟨offset, rfl, -⟩ := mem_shiftRuns.mp hmem'
      have hlt := ((h.mem_iff position run).mp hmem).position_lt
      exact Nat.lt_of_lt_of_le hlt (by omega)
  · simp only [List.mem_append, mem_shiftRuns, h.mem_iff, h'.mem_iff,
      isMaximalRun_append_cons_iff hc]

end Text

namespace Spacing

open Text (AreRuns)

/-! ## Tokens and runs -/

/-- The tokens under lenient spacing are the runs of the text. -/
lemma exists_areRuns (text : Text) :
    ∃ runs, AreRuns text runs ∧ lenient.tokens text = runs.map Prod.snd := by
  induction text using wordInduction with
  | separators text hall => exact ⟨[], Text.areRuns_of_all hall, tokens_of_all hall⟩
  | separator c text hc hall ih =>
    obtain ⟨runs, hruns, htokens⟩ := ih
    have hnil : AreRuns [] [] := Text.areRuns_of_all rfl
    refine ⟨_, hnil.append_cons hruns hc, ?_⟩
    rw [List.nil_append, Text.map_snd_shiftRuns, tokens_lenient_cons hc, htokens]
  | word word hword => exact ⟨_, Text.areRuns_word hword, tokens_word hword⟩
  | wordAppend word c rest hword hc ih =>
    obtain ⟨runs, hruns, htokens⟩ := ih
    refine ⟨_, (Text.areRuns_word hword).append_cons hruns hc, ?_⟩
    rw [List.map_append, Text.map_snd_shiftRuns, tokens_word_append hword hc, htokens]
    rfl

/-- **Lenient tokens.**  The tokens of a text under lenient spacing are its maximal runs of
characters that are no separators, in the order in which they stand in the text.  Taken one after
the other, from the text or at a cursor in front of it, they come in this order, and nothing comes
in any call after them.  They are the tokens under strict spacing that are not empty. -/
theorem tokens_lenient_eq_runs (text : Text) :
    ∃ runs, AreRuns text runs ∧ lenient.tokens text = runs.map Prod.snd ∧
      (∀ n, resultAfter lenient.next n text = (runs.map Prod.snd)[n]?) ∧
      (∀ n, resultAfter (Cursor.nextToken lenient) n (Cursor.ofList text) =
        (runs.map Prod.snd)[n]?) ∧
      lenient.tokens text = (strict.tokens text).filter fun token => !token.isEmpty := by
  obtain ⟨runs, hruns, htokens⟩ := exists_areRuns text
  refine ⟨runs, hruns, htokens, fun n => ?_, fun n => ?_, tokens_lenient_eq_filter text⟩
  · rw [resultAfter_next, htokens]
  · rw [Cursor.resultAfter_nextToken, htokens]

/-- A space that does not break lines is no separator. -/
example : resultAfter lenient.next 0 [' ', 'a', '\u00a0', 'b', '\t', 'c'] =
    some ['a', '\u00a0', 'b'] := by
  decide

end Spacing

end PostfixCalculator
