import Mathlib.Data.List.TakeWhile
import PostfixCalculator.Cursor.Tokens
import PostfixCalculator.Proofs.Cursor.Passing
import PostfixCalculator.Proofs.Words

/-!
# Taking tokens at a cursor agrees with taking them from a text

The text that a cursor stands for is what is still to come.  A token taken at the cursor is the
first one of that text, and the cursor then stands for the text behind it.  This is so as long as
nothing is left accepted between two tokens, which would become a part of the next one: only where
nothing more is to come may separators stay accepted.

So call after call the cursor gives the tokens of its text, and nothing in every call after them.
-/

namespace PostfixCalculator

universe u v w

open Text (isSeparator separators)

variable {σ : Type u} {τ : Type v} {β : Type w}

/-- What a function with a state returns in the call after some earlier ones. -/
def resultAfter (f : σ → β × σ) : Nat → σ → β
  | 0, state => (f state).1
  | n + 1, state => resultAfter f n (f state).2

/-- Two functions return the same in every call if a relation between their states is kept by a
call, and makes them return the same. -/
lemma resultAfter_congr {f : σ → β × σ} {g : τ → β × τ} {related : σ → τ → Prop}
    (hcall : ∀ s t, related s t → (f s).1 = (g t).1 ∧ related (f s).2 (g t).2) (n : Nat) {s : σ}
    {t : τ} (h : related s t) : resultAfter f n s = resultAfter g n t := by
  induction n generalizing s t with
  | zero => exact (hcall s t h).1
  | succ n ih => exact ih (hcall s t h).2

/-! ## Calls on a text -/

namespace Spacing

variable {spacing : Spacing} {text : Text}

/-- Nothing is left behind the last token. -/
lemma next_snd_of_fst_eq_none (h : (spacing.next text).1 = none) : (spacing.next text).2 = [] := by
  rw [next_of_all (next_fst_eq_none_iff.mp h)]

/-- Call after call a text gives its tokens, and then nothing. -/
lemma resultAfter_next (n : Nat) (text : Text) :
    resultAfter spacing.next n text = (spacing.tokens text)[n]? := by
  induction n generalizing text with
  | zero =>
    rcases hnext : spacing.next text with ⟨_ | token, rest⟩
    · rw [tokens_of_next_none (by rw [hnext])]
      simp [resultAfter, hnext]
    · rw [tokens_of_next_some hnext]
      simp [resultAfter, hnext]
  | succ n ih =>
    rw [resultAfter, ih]
    rcases hnext : spacing.next text with ⟨_ | token, rest⟩
    · have hnone : (spacing.next text).1 = none := by rw [hnext]
      have hrest : rest = [] := by simpa [hnext] using next_snd_of_fst_eq_none hnone
      rw [tokens_of_next_none hnone, hrest, tokens_nil]
      simp
    · rw [tokens_of_next_some hnext, List.getElem?_cons_succ]

end Spacing

/-! ## Calls at a cursor -/

namespace Cursor

variable {spacing : Spacing} {cursor : Cursor Char} {text : Text}

/-- The cursor stands where a token is taken, in front of the text: the text is what is still to
come, and only at its end may anything be left accepted. -/
structure Awaits (cursor : Cursor Char) (text : Text) : Prop where
  /-- The text is still to come. -/
  remaining_eq : cursor.remaining = text
  /-- Nothing is accepted in front of a text that is not empty. -/
  accepted_eq : text ≠ [] → cursor.accepted = []

/-- At the end of the text anything may be left accepted. -/
lemma awaits_nil (h : cursor.remaining = []) : cursor.Awaits [] :=
  ⟨h, fun hne => absurd rfl hne⟩

/-- Every text is taken from its start. -/
lemma awaits_ofList (text : Text) : (ofList text).Awaits text :=
  ⟨remaining_ofList text, fun _ => rfl⟩

/-- Accepting the characters up to the next separator passes them, and says whether there were
any. -/
lemma passes_skipUntilAny_separators (cursor : Cursor Char) :
    cursor.Passes (cursor.remaining.takeWhile (!isSeparator ·)) (cursor.skipUntilAny separators).2 ∧
      (cursor.skipUntilAny separators).2.remaining = cursor.remaining.dropWhile (!isSeparator ·) ∧
      ((cursor.skipUntilAny separators).1 = true ↔
        cursor.remaining.takeWhile (!isSeparator ·) ≠ []) :=
  ⟨passes_advanceWhile (!isSeparator ·) cursor, remaining_advanceWhile (!isSeparator ·) cursor,
    skipWhile_fst⟩

/-- No token starts behind the separators at the start if and only if there are only separators. -/
lemma takeWhile_dropWhile_eq_nil_iff :
    (text.dropWhile isSeparator).takeWhile (!isSeparator ·) = [] ↔
      text.all isSeparator = true := by
  constructor
  · intro hnil
    by_contra hall
    obtain ⟨c, behind, hc, hskip⟩ := Spacing.exists_dropWhile_eq_cons hall
    simp [hskip, hc] at hnil
  · intro hall
    rw [List.dropWhile_eq_nil_iff.mpr (List.all_eq_true.mp hall), List.takeWhile_nil]

/-- Under lenient spacing, the token that is taken at a cursor is the first one of its text. -/
lemma Awaits.lenientToken (h : cursor.Awaits text) :
    cursor.lenientToken.1 = (Spacing.lenient.next text).1 ∧
      cursor.lenientToken.2.Awaits (Spacing.lenient.next text).2 := by
  obtain ⟨rfl, -⟩ := h
  let start := (cursor.skipAny separators).2.discard
  have hstart : start.remaining = cursor.remaining.dropWhile isSeparator :=
    remaining_advanceWhile isSeparator cursor
  obtain ⟨hpasses, hrest, hany⟩ := passes_skipUntilAny_separators start
  rcases hrun : start.skipUntilAny separators with ⟨hasToken, after⟩
  rw [hrun, hstart] at hpasses hrest hany
  have htoken : cursor.lenientToken =
      if hasToken then (some after.accepted.reverse, after.discard) else (none, after) := by
    simp only [Cursor.lenientToken, start, extract, hrun]
  by_cases hall : cursor.remaining.all isSeparator = true
  · have hnone : ¬ hasToken = true := fun hsome =>
      hany.mp hsome (takeWhile_dropWhile_eq_nil_iff.mpr hall)
    have hnil : after.remaining = [] := by
      rw [hrest, List.dropWhile_eq_nil_iff.mpr (List.all_eq_true.mp hall), List.dropWhile_nil]
    rw [htoken, if_neg hnone, Spacing.next_of_all hall]
    exact ⟨rfl, awaits_nil hnil⟩
  · have hsome : hasToken = true := hany.mpr fun hnil =>
      hall (takeWhile_dropWhile_eq_nil_iff.mp hnil)
    have haccepted : after.accepted.reverse =
        (cursor.remaining.dropWhile isSeparator).takeWhile (!isSeparator ·) := by
      rw [hpasses.accepted_eq]
      simp [start, discard]
    rw [htoken, if_pos hsome]
    simp only [Spacing.next, if_neg hall, haccepted, true_and]
    exact ⟨hrest, fun _ => rfl⟩

/-- If the next character can only be a separator and none is accepted, then nothing is to come. -/
lemma remaining_eq_nil_of_acceptAny_none {after : Cursor Char}
    (h : cursor.acceptAny separators = (none, after))
    (htext : ∀ c rest, cursor.remaining = c :: rest → isSeparator c = true) :
    cursor.remaining = [] := by
  obtain ⟨-, hnone⟩ := passes_of_acceptIf_none h
  cases hrest : cursor.remaining with
  | nil => rfl
  | cons c rest =>
    have hc : separators.contains c = true := htext c rest hrest
    rw [hrest, List.takeWhile_cons_of_pos hc] at hnone
    exact absurd hnone (List.cons_ne_nil _ _)

/-- Behind the characters up to the next separator, that separator is accepted, if there is one. -/
lemma remaining_acceptAny_separators (cursor : Cursor Char)
    (htext : ∀ c rest, cursor.remaining = c :: rest → isSeparator c = true) :
    (cursor.acceptAny separators).2.remaining = cursor.remaining.drop 1 := by
  rcases haccept : cursor.acceptAny separators with ⟨_ | item, after⟩
  · obtain ⟨hpasses, -⟩ := passes_of_acceptIf_none haccept
    have hnil := remaining_eq_nil_of_acceptAny_none haccept htext
    rw [hnil, List.drop_nil, ← hnil]
    exact hpasses.remaining_eq.symm
  · obtain ⟨hpasses, -⟩ := passes_of_acceptIf_some haccept
    rw [hpasses.remaining_eq]
    rfl

/-- Looking behind the separators passes them, and finds the next other character. -/
lemma passes_skipAny_peek (cursor : Cursor Char) :
    cursor.Passes (cursor.remaining.takeWhile isSeparator) (cursor.skipAny separators).2.peek.2 ∧
      (cursor.skipAny separators).2.peek.2.remaining = cursor.remaining.dropWhile isSeparator ∧
      (cursor.skipAny separators).2.peek.1 = (cursor.remaining.dropWhile isSeparator).head? := by
  have hskip := passes_advanceWhile isSeparator cursor
  have hrest := remaining_advanceWhile isSeparator cursor
  refine ⟨?_, (remaining_look _).trans hrest, ?_⟩
  · have hlook := hskip.append (passes_look (cursor.advanceWhile isSeparator))
    rwa [List.append_nil] at hlook
  · rw [← hrest]
    exact peek_fst _

/-- Where the next character is a separator or there is none, the empty token in front of it is
taken if not only separators are left. -/
lemma emptyToken_eq_next (htext : ∀ c rest, cursor.remaining = c :: rest → isSeparator c = true) :
    cursor.emptyToken.1 = (Spacing.strict.next cursor.remaining).1 ∧
      cursor.emptyToken.2.Awaits (Spacing.strict.next cursor.remaining).2 := by
  unfold emptyToken
  rcases haccept : cursor.acceptAny separators with ⟨_ | c, after⟩
  · obtain ⟨hpasses, -⟩ := passes_of_acceptIf_none haccept
    have hnil := remaining_eq_nil_of_acceptAny_none haccept htext
    have hafter : after.remaining = [] := by rw [← hnil, hpasses.remaining_eq, List.nil_append]
    rw [hnil]
    exact ⟨rfl, awaits_nil hafter⟩
  · obtain ⟨hpasses, hc⟩ := passes_of_acceptIf_some haccept
    have hremaining : cursor.remaining = c :: after.remaining := hpasses.remaining_eq
    have hsep : isSeparator c = true := hc
    let start := after.discard
    obtain ⟨hlast, hrest, hfound⟩ := passes_skipAny_peek start
    rcases hpeek : (start.skipAny separators).2.peek with ⟨found, last⟩
    rw [hpeek] at hlast hrest hfound
    simp only [hpeek, start, hremaining]
    have hall : after.remaining.all isSeparator = true ↔
        after.remaining.dropWhile isSeparator = [] := by
      rw [List.all_eq_true, List.dropWhile_eq_nil_iff]
    cases found with
    | none =>
      have hnil : after.remaining.dropWhile isSeparator = [] :=
        List.head?_eq_none_iff.mp hfound.symm
      have hall' : (c :: after.remaining).all isSeparator = true := by
        rw [List.all_cons, hsep, Bool.true_and]
        exact hall.mpr hnil
      rw [Spacing.next_of_all hall']
      exact ⟨rfl, awaits_nil (hrest.trans hnil)⟩
    | some d =>
      have hall' : after.remaining.all isSeparator = false := by
        rw [Bool.eq_false_iff]
        intro h
        rw [remaining_discard, hall.mp h] at hfound
        cases hfound
      have hback := hlast.seek
      rw [Spacing.next_strict_cons hsep hall']
      exact ⟨rfl, hback.remaining_eq.symm, fun _ => hback.accepted_eq⟩

/-- Under strict spacing, the token that is taken at a cursor is the first one of its text. -/
lemma Awaits.strictToken (h : cursor.Awaits text) :
    cursor.strictToken.1 = (Spacing.strict.next text).1 ∧
      cursor.strictToken.2.Awaits (Spacing.strict.next text).2 := by
  obtain ⟨rfl, haccepted⟩ := h
  obtain ⟨hpasses, hrest, hany⟩ := passes_skipUntilAny_separators cursor
  rcases hrun : cursor.skipUntilAny separators with ⟨hasToken, after⟩
  rw [hrun] at hpasses hrest hany
  have htext : ∀ c rest, after.remaining = c :: rest → isSeparator c = true := by
    intro c rest hcons
    exact Spacing.isSeparator_of_dropWhile_eq_cons (hrest.symm.trans hcons)
  unfold Cursor.strictToken
  simp only [hrun]
  by_cases htoken : hasToken = true
  · -- A token that is not empty: the separator behind it is dropped with it.
    obtain ⟨c, hc⟩ := List.exists_mem_of_ne_nil _ (hany.mp htoken)
    have hmem : c ∈ cursor.remaining := (List.takeWhile_prefix _).subset hc
    have hall : ¬ cursor.remaining.all isSeparator = true := by
      intro hall
      have hsep : isSeparator c = true := List.all_eq_true.mp hall c hmem
      simpa [hsep] using List.mem_takeWhile_imp hc
    have hreverse : after.accepted.reverse = cursor.remaining.takeWhile (!isSeparator ·) := by
      rw [hpasses.accepted_eq, haccepted (List.ne_nil_of_mem hmem)]
      simp
    have hdrop := remaining_acceptAny_separators after.discard htext
    rw [if_pos htoken]
    simp only [Spacing.next, if_neg hall, extract, hreverse, true_and]
    exact ⟨hdrop.trans (congrArg (List.drop 1) hrest), fun _ => rfl⟩
  · have hnil : cursor.remaining.takeWhile (!isSeparator ·) = [] := by simpa [htoken] using hany
    have hsame : cursor.remaining = after.remaining := by
      rw [hpasses.remaining_eq, hnil, List.nil_append]
    rw [if_neg htoken, hsame]
    exact emptyToken_eq_next htext

/-- The token that is taken at a cursor is the first one of its text, and the cursor then stands in
front of the text behind it. -/
theorem Awaits.nextToken (h : cursor.Awaits text) (spacing : Spacing) :
    (cursor.nextToken spacing).1 = (spacing.next text).1 ∧
      (cursor.nextToken spacing).2.Awaits (spacing.next text).2 := by
  cases spacing with
  | lenient => exact h.lenientToken
  | strict => exact h.strictToken

/-- Call after call a cursor at the start of a text gives the tokens of the text, and then
nothing. -/
lemma resultAfter_nextToken (n : Nat) (text : Text) :
    resultAfter (nextToken spacing) n (ofList text) = (spacing.tokens text)[n]? := by
  rw [resultAfter_congr (fun _ _ h => h.nextToken spacing) n (awaits_ofList text),
    Spacing.resultAfter_next]

end Cursor

end PostfixCalculator
