import PostfixCalculator.Text.Basic

/-!
# Spacing: how separators divide a text into tokens

Under lenient spacing any run of separators stands between two tokens.  Under strict spacing
every separator stands on its own, so that a run of them, or one at the start, gives empty
tokens.  Separators at the end of a text never give a token.

The tokens of a text are taken one at a time by `next`, which returns a token and the text
behind it.
-/

namespace PostfixCalculator

/-- The rule by which separators divide a text into tokens. -/
inductive Spacing where
  /-- Any run of separators stands between two tokens. -/
  | lenient
  /-- Every separator stands between two tokens, which may be empty. -/
  | strict
deriving DecidableEq

namespace Spacing

open Text

/-- The first token of a text and the text behind it, or nothing if only separators are left.
Lenient spacing skips the separators in front of a token; strict spacing takes the one behind
it away. -/
def next (spacing : Spacing) (text : Text) : Option Text × Text :=
  if text.all isSeparator then (none, []) else
    match spacing with
    | lenient =>
      let text := text.dropWhile isSeparator
      (some (text.takeWhile (!isSeparator ·)), text.dropWhile (!isSeparator ·))
    | strict =>
      (some (text.takeWhile (!isSeparator ·)), (text.dropWhile (!isSeparator ·)).drop 1)

theorem next_of_all {spacing : Spacing} {text : Text} (h : text.all isSeparator = true) :
    spacing.next text = (none, []) := by
  simp only [next, h, if_true]

/-- No token is left exactly if every character left is a separator. -/
theorem next_fst_eq_none_iff {spacing : Spacing} {text : Text} :
    (spacing.next text).1 = none ↔ text.all isSeparator = true := by
  by_cases all : text.all isSeparator = true
  · simp only [next_of_all all, all]
  · cases spacing with
    | lenient => simp only [next, all, if_false, reduceCtorEq]
    | strict => simp only [next, all, if_false, reduceCtorEq]

/-- Skipping separators stops at another character, if there is one. -/
theorem exists_dropWhile_eq_cons {text : Text} (h : ¬text.all isSeparator = true) :
    ∃ c behind, isSeparator c = false ∧ text.dropWhile isSeparator = c :: behind := by
  induction text with
  | nil => exact absurd rfl h
  | cons c text ih =>
    cases hc : isSeparator c with
    | true => simpa [hc] using ih (by simpa [hc] using h)
    | false => exact ⟨c, text, hc, List.dropWhile_cons_of_neg (by simp [hc])⟩

/-- Every token is followed by a shorter text. -/
theorem length_lt_of_next {spacing : Spacing} {text token rest : Text}
    (h : spacing.next text = (some token, rest)) : rest.length < text.length := by
  have shorter (p : Char → Bool) (t : Text) : (t.dropWhile p).length ≤ t.length :=
    (List.dropWhile_suffix p).length_le
  have left : ¬text.all isSeparator = true := fun all => by simp [next_of_all all] at h
  cases spacing with
  | lenient =>
    -- The character at which skipping stops belongs to the token.
    obtain ⟨c, behind, hc, skipped⟩ := exists_dropWhile_eq_cons left
    obtain ⟨-, rfl⟩ : c :: behind.takeWhile (!isSeparator ·) = token ∧
        behind.dropWhile (!isSeparator ·) = rest := by
      simpa [next, left, skipped, hc] using h
    calc (behind.dropWhile (!isSeparator ·)).length ≤ behind.length := shorter _ behind
      _ < (text.dropWhile isSeparator).length := by simp [skipped]
      _ ≤ text.length := shorter _ text
  | strict =>
    obtain ⟨-, rfl⟩ : text.takeWhile (!isSeparator ·) = token ∧
        (text.dropWhile (!isSeparator ·)).tail = rest := by
      simpa [next, left] using h
    -- The separator behind the token is taken away, or the token reaches to the end.
    cases cut : text.dropWhile (!isSeparator ·) with
    | nil =>
      have : text ≠ [] := fun nil => left (nil ▸ rfl)
      exact List.length_pos_iff.mpr this
    | cons c behind =>
      calc behind.length < (text.dropWhile (!isSeparator ·)).length := by simp [cut]
        _ ≤ text.length := shorter _ text

/-- The tokens of a text in order, and what is left of the text after the last one. -/
def drain (spacing : Spacing) (text : Text) : List Text × Text :=
  match h : spacing.next text with
  | (none, rest) => ([], rest)
  | (some token, rest) =>
    have := length_lt_of_next h
    let (tokens, unread) := spacing.drain rest
    (token :: tokens, unread)
termination_by text.length

/-- The tokens of a text in order. -/
def tokens (spacing : Spacing) (text : Text) : List Text := (spacing.drain text).1

end Spacing

end PostfixCalculator
