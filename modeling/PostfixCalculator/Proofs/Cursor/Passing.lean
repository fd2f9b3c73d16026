import Mathlib.Tactic.Lemma
import PostfixCalculator.Cursor.Basic

/-!
# What a cursor passes

Between two drops, how far a cursor has gone is described by the items that it has accepted and by
those still to come, whatever it has looked at.  A cursor *passes* items if it accepts them one
after the other: afterwards they are on top of the accepted items, and no longer among those still
to come.  Accepting an item passes it, a run passes the longest stretch of items that pass the
test, and going back to where some items began makes it as if they had not been passed.
-/

namespace PostfixCalculator

universe u

namespace Cursor

variable {α : Type u} {cursor after last : Cursor α} {item : α} {items items' : List α}
  {test : α → Bool}

/-- Between the two cursors the items were accepted, and nothing else happened to the accepted items
and those still to come. -/
structure Passes (cursor : Cursor α) (items : List α) (after : Cursor α) : Prop where
  /-- The items are accepted. -/
  accepted_eq : after.accepted = items.reverse ++ cursor.accepted
  /-- The items were the next ones. -/
  remaining_eq : cursor.remaining = items ++ after.remaining

/-- What is passed in two stretches is passed in one. -/
lemma Passes.append (h : cursor.Passes items after) (h' : after.Passes items' last) :
    cursor.Passes (items ++ items') last := by
  refine ⟨?_, ?_⟩
  · rw [h'.accepted_eq, h.accepted_eq, List.reverse_append, List.append_assoc]
  · rw [h.remaining_eq, h'.remaining_eq, List.append_assoc]

/-! ## Single items -/

/-- Looking at an item passes nothing. -/
lemma passes_look (cursor : Cursor α) : cursor.Passes [] cursor.look :=
  ⟨accepted_look cursor, (remaining_look cursor).symm⟩

/-- An item that is accepted is passed, and it passes the test. -/
lemma passes_of_acceptIf_some (h : cursor.acceptIf test = (some item, after)) :
    cursor.Passes [item] after ∧ test item = true := by
  have hlooked := passes_look cursor
  unfold acceptIf at h
  rcases hlook : cursor.look with ⟨accepted, _ | ⟨first, ahead⟩, source⟩
  · simp [hlook] at h
  · by_cases htest : test first = true
    · obtain ⟨rfl, rfl⟩ : first = item ∧ _ = after := by simpa [hlook, htest] using h
      rw [hlook] at hlooked
      exact ⟨hlooked.append ⟨rfl, rfl⟩, htest⟩
    · simp [hlook, htest] at h

/-- If no item is accepted, then nothing is passed, and no stretch of the following items passes the
test. -/
lemma passes_of_acceptIf_none (h : cursor.acceptIf test = (none, after)) :
    cursor.Passes [] after ∧ cursor.remaining.takeWhile test = [] := by
  have hlooked := passes_look cursor
  rw [hlooked.remaining_eq]
  unfold acceptIf at h
  rcases hlook : cursor.look with ⟨accepted, _ | ⟨first, ahead⟩, source⟩
  · obtain rfl : _ = after := by simpa [hlook] using h
    rw [hlook] at hlooked
    refine ⟨hlooked, ?_⟩
    -- After looking, nothing is ahead only if the source is exhausted.
    rcases cursor with ⟨accepted', _ | ⟨head, ahead⟩, _ | ⟨head, source'⟩⟩ <;>
      simp_all [look, remaining]
  · by_cases htest : test first = true
    · simp [hlook, htest] at h
    · obtain rfl : _ = after := by simpa [hlook, htest] using h
      rw [hlook] at hlooked
      refine ⟨hlooked, ?_⟩
      simp [remaining, htest]

/-! ## Runs -/

/-- A run of items is one acceptance after the other, up to the first that fails. -/
lemma advanceWhile_eq (test : α → Bool) (cursor : Cursor α) :
    cursor.advanceWhile test =
      match cursor.acceptIf test with
      | (some _, after) => after.advanceWhile test
      | (none, after) => after := by
  rcases cursor with ⟨accepted, _ | ⟨item, ahead⟩, source⟩
  · cases source with
    | nil => rfl
    | cons item source =>
      by_cases h : test item = true <;> simp [advanceWhile, acceptIf, look, h]
  · by_cases h : test item = true <;> simp [advanceWhile, acceptIf, look, h]

/-- A run passes the longest stretch of items that pass the test. -/
lemma passes_advanceWhile (test : α → Bool) (cursor : Cursor α) :
    cursor.Passes (cursor.remaining.takeWhile test) (cursor.advanceWhile test) := by
  induction hn : cursor.remaining.length using Nat.strongRecOn generalizing cursor with
  | ind n ih =>
    rw [advanceWhile_eq]
    rcases haccept : cursor.acceptIf test with ⟨_ | item, after⟩
    · obtain ⟨hpasses, hnone⟩ := passes_of_acceptIf_none haccept
      rw [hnone]
      exact hpasses
    · obtain ⟨hpasses, htest⟩ := passes_of_acceptIf_some haccept
      have hremaining : cursor.remaining = item :: after.remaining := hpasses.remaining_eq
      have hshorter : after.remaining.length < n := by
        rw [← hn, hremaining]
        exact Nat.lt_succ_self _
      rw [hremaining, List.takeWhile_cons_of_pos htest]
      exact hpasses.append (ih _ hshorter after rfl)

/-- A run says whether it passed any item. -/
lemma skipWhile_fst : (cursor.skipWhile test).1 = true ↔ cursor.remaining.takeWhile test ≠ [] := by
  have hpasses := passes_advanceWhile test cursor
  simp [skipWhile, position, hpasses.accepted_eq, List.length_pos_iff]

/-! ## Going back -/

/-- Going back to where some items began makes it as if they had not been passed. -/
lemma Passes.seek (h : cursor.Passes items after) :
    cursor.Passes [] (after.seek cursor.position).2 := by
  have hkept : after.kept = cursor.accepted.reverse ++ (items ++ after.ahead) := by
    simp [kept, h.accepted_eq]
  have hposition : cursor.accepted.reverse.length = cursor.position := List.length_reverse
  have hmark : cursor.position ≤ after.mark := by
    rw [mark, hkept, List.length_append]
    omega
  have htake : after.kept.take cursor.position = cursor.accepted.reverse := by
    rw [hkept, ← hposition, List.take_left]
  have hdrop : after.kept.drop cursor.position = items ++ after.ahead := by
    rw [hkept, ← hposition, List.drop_left]
  simp only [Cursor.seek, if_pos hmark, htake, hdrop]
  refine ⟨by simp, ?_⟩
  rw [h.remaining_eq]
  simp [remaining]

end Cursor

end PostfixCalculator
