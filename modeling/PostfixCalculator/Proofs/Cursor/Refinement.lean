import PostfixCalculator.Proofs.Cursor.Bookmark
import PostfixCalculator.Proofs.Cursor.Passing

/-!
# A cursor is a bookmark in its source

A cursor keeps some items of its source in two lists and the others in a third.  Nothing of this
can be seen from outside: whatever operations are carried out on a cursor, their outcomes are
those of a bookmark in the source.

The three lists of a cursor are three consecutive pieces of the source, and the bookmark says where
they are cut.  Every operation keeps it so: looking at an item and accepting it are checked
directly, a run of items is one acceptance after the other, and moving and dropping only shift the
places of the cuts.
-/

namespace PostfixCalculator

universe u v w

variable {α : Type u} {β : Type v} {γ : Type w}

/-! ## Cursors at bookmarks -/

namespace Cursor

variable {items : List α} {cursor : Cursor α} {bookmark : Bookmark} {item : α} {test : α → Bool}

/-- A cursor stands at a bookmark in the items if what it keeps and its source are what is left of
the items when some are dropped, and the bookmark has the count of these, the position and the
mark. -/
def StandsAt (items : List α) (cursor : Cursor α) (bookmark : Bookmark) : Prop :=
  ∃ before, before ++ (cursor.kept ++ cursor.source) = items ∧
    bookmark = ⟨before.length, cursor.position, cursor.mark⟩

/-- The results of an operation on a cursor and on a bookmark agree if they return the same and the
cursor stands at the bookmark afterwards. -/
def Agree (items : List α) (x : β × Cursor α) (y : β × Bookmark) : Prop :=
  x.1 = y.1 ∧ StandsAt items x.2 y.2

/-- Results that agree still do so if what they return is presented differently. -/
lemma Agree.map {x : β × Cursor α} {y : β × Bookmark} (h : Agree items x y) (f : β → γ) :
    Agree items (x.map f id) (y.map f id) :=
  ⟨congrArg f h.1, h.2⟩

/-- At the start nothing is dropped, accepted or looked at. -/
lemma standsAt_ofList (items : List α) : StandsAt items (ofList items) {} :=
  ⟨[], rfl, rfl⟩

/-- The position is the same for both. -/
lemma StandsAt.position_eq (h : StandsAt items cursor bookmark) :
    bookmark.position = cursor.position := by
  obtain ⟨before, -, rfl⟩ := h
  rfl

/-- The mark is the same for both. -/
lemma StandsAt.mark_eq (h : StandsAt items cursor bookmark) : bookmark.mark = cursor.mark := by
  obtain ⟨before, -, rfl⟩ := h
  rfl

/-- The position is not behind the mark. -/
lemma StandsAt.position_le_mark (h : StandsAt items cursor bookmark) :
    bookmark.position ≤ bookmark.mark := by
  rw [h.position_eq, h.mark_eq]
  exact cursor.position_le_mark

/-- The mark is not behind the last item. -/
lemma StandsAt.dropped_add_mark_le (h : StandsAt items cursor bookmark) :
    bookmark.dropped + bookmark.mark ≤ items.length := by
  obtain ⟨before, rfl, rfl⟩ := h
  have hkept : cursor.kept.length = cursor.mark := rfl
  simp only [List.length_append]
  omega

/-- The items still to come are the same for both. -/
lemma StandsAt.rest_eq (h : StandsAt items cursor bookmark) :
    bookmark.rest items = cursor.remaining := by
  obtain ⟨before, rfl, rfl⟩ := h
  have hposition : cursor.accepted.reverse.length = cursor.position := List.length_reverse
  have hitems : before ++ (cursor.kept ++ cursor.source) =
      (before ++ cursor.accepted.reverse) ++ cursor.remaining := by
    simp [kept, remaining]
  rw [Bookmark.rest, hitems, ← hposition, ← List.length_append, List.drop_left]

/-- The next item is the same for both. -/
lemma StandsAt.getElem?_eq (h : StandsAt items cursor bookmark) :
    items[bookmark.dropped + bookmark.position]? = cursor.remaining.head? := by
  rw [← h.rest_eq, Bookmark.rest, List.head?_drop]

/-! ### Single items -/

/-- A cursor looks at the next item as its bookmark sees it. -/
lemma StandsAt.look (h : StandsAt items cursor bookmark) :
    Agree items (cursor.look.ahead.head?, cursor.look) (bookmark.see items) := by
  have hnext := h.getElem?_eq
  obtain ⟨before, hitems, rfl⟩ := h
  unfold Bookmark.see
  rw [hnext]
  rcases cursor with ⟨accepted, _ | ⟨item, ahead⟩, source⟩
  · cases source with
    | nil => exact ⟨rfl, before, hitems, rfl⟩
    | cons item source =>
      refine ⟨rfl, before, ?_, ?_⟩
      · simpa [Cursor.look, kept] using hitems
      · simp [Cursor.look, remaining, position, mark, kept]
  · refine ⟨rfl, before, hitems, ?_⟩
    simp [Cursor.look, remaining, position, mark, kept]

/-- A cursor peeks at the next item as its bookmark sees it. -/
lemma StandsAt.peek (h : StandsAt items cursor bookmark) :
    Agree items cursor.peek (bookmark.see items) :=
  h.look

/-- A cursor accepts the next item under the same condition as its bookmark. -/
lemma StandsAt.acceptIf (h : StandsAt items cursor bookmark) (test : α → Bool) :
    Agree items (cursor.acceptIf test) (bookmark.acceptIf test items) := by
  obtain ⟨hitem, hseen⟩ := h.look
  unfold Cursor.acceptIf Bookmark.acceptIf
  rcases hsee : bookmark.see items with ⟨seen?, seen⟩
  rcases hlook : cursor.look with ⟨accepted, ahead, source⟩
  rw [hlook, hsee] at hitem hseen
  cases ahead with
  | nil =>
    obtain rfl : none = seen? := hitem
    exact ⟨rfl, hseen⟩
  | cons item ahead =>
    obtain rfl : some item = seen? := hitem
    by_cases htest : test item = true
    · have hadvance := Bookmark.advance_one_of_see hsee
      obtain ⟨before, hitems, rfl⟩ := hseen
      simp only [htest, if_true, hadvance]
      refine ⟨rfl, before, ?_, ?_⟩
      · simpa [kept] using hitems
      · simp [position, mark, kept]
    · simp only [htest, Bool.false_eq_true, if_false]
      exact ⟨rfl, hseen⟩

/-! ### Runs of items -/

/-- A cursor passes a run of items as its bookmark does. -/
lemma StandsAt.advanceWhile (h : StandsAt items cursor bookmark) (test : α → Bool) :
    StandsAt items (cursor.advanceWhile test) (bookmark.skipWhile test items).2 := by
  induction hn : cursor.remaining.length using Nat.strongRecOn generalizing cursor bookmark with
  | ind n ih =>
    rw [advanceWhile_eq]
    have hmark := h.position_le_mark
    obtain ⟨hitem, hafter⟩ := h.acceptIf test
    rcases haccept : cursor.acceptIf test with ⟨item?, after⟩
    rcases haccept' : bookmark.acceptIf test items with ⟨item?', after'⟩
    rw [haccept, haccept'] at hitem hafter
    obtain rfl : item? = item?' := hitem
    cases item? with
    | none =>
      rw [Bookmark.skipWhile_of_acceptIf_none hmark haccept']
      exact hafter
    | some item =>
      rw [Bookmark.skipWhile_of_acceptIf_some haccept']
      have hremaining : cursor.remaining = item :: after.remaining :=
        (passes_of_acceptIf_some haccept).1.remaining_eq
      have hshorter : after.remaining.length < n := by
        rw [← hn, hremaining]
        exact Nat.lt_succ_self _
      exact ih _ hshorter hafter rfl

/-- A cursor passes a run of items as its bookmark does, and they say the same about it. -/
lemma StandsAt.skipWhile (h : StandsAt items cursor bookmark) (test : α → Bool) :
    Agree items (cursor.skipWhile test) (bookmark.skipWhile test items) := by
  have hafter := h.advanceWhile test
  refine ⟨?_, hafter⟩
  have hposition : (cursor.advanceWhile test).position =
      cursor.position + bookmark.runLength test items := by
    rw [← hafter.position_eq, ← h.position_eq]
    simp [Bookmark.skipWhile, Bookmark.position_see, Bookmark.advance]
  simp only [Cursor.skipWhile, Bookmark.skipWhile, hposition]
  simp

/-! ### Positions and drops -/

/-- A cursor moves to the same positions as its bookmark. -/
lemma StandsAt.seek (h : StandsAt items cursor bookmark) (target : Nat) :
    Agree items (cursor.seek target) (bookmark.seek target) := by
  obtain ⟨before, hitems, rfl⟩ := h
  unfold Cursor.seek Bookmark.seek
  by_cases htarget : target ≤ cursor.mark
  · have hlength : target ≤ cursor.accepted.length + cursor.ahead.length := by
      simpa [mark, kept] using htarget
    simp only [htarget, if_true]
    refine ⟨rfl, before, ?_, ?_⟩
    · simpa [kept] using hitems
    · simp [position, mark, kept, hlength]
  · simp only [htarget, if_false]
    exact ⟨rfl, before, hitems, rfl⟩

/-- A cursor drops the items that its bookmark drops. -/
lemma StandsAt.discard (h : StandsAt items cursor bookmark) :
    StandsAt items cursor.discard bookmark.discard := by
  obtain ⟨before, hitems, rfl⟩ := h
  refine ⟨before ++ cursor.accepted.reverse, ?_, ?_⟩
  · simpa [Cursor.discard, kept] using hitems
  · simp [Cursor.discard, Bookmark.discard, position, mark, kept]

/-- The items that a cursor has accepted are those between the dropped ones and its position. -/
lemma StandsAt.accepted_eq (h : StandsAt items cursor bookmark) :
    bookmark.accepted items = cursor.accepted.reverse := by
  obtain ⟨before, rfl, rfl⟩ := h
  have hposition : cursor.accepted.reverse.length = cursor.position := List.length_reverse
  rw [Bookmark.accepted, List.drop_left, kept, List.append_assoc, ← hposition, List.take_left]

/-- A cursor takes out the items that its bookmark drops. -/
lemma StandsAt.extract (h : StandsAt items cursor bookmark) :
    Agree items cursor.extract (bookmark.accepted items, bookmark.discard) :=
  ⟨h.accepted_eq.symm, h.discard⟩

/-! ### Single operations and histories -/

/-- Every operation on a cursor agrees with the same operation on its bookmark. -/
lemma StandsAt.perform [BEq α] (h : StandsAt items cursor bookmark) (operation : Operation α) :
    Agree items (cursor.perform operation) (bookmark.perform items operation) := by
  cases operation with
  | next => exact (h.acceptIf _).map Outcome.item
  | peek => exact h.peek.map Outcome.item
  | position => exact ⟨congrArg Outcome.position h.position_eq.symm, h⟩
  | seek target => exact (h.seek target).map Outcome.flag
  | discard => exact ⟨rfl, h.discard⟩
  | accept item => exact (h.acceptIf _).map Outcome.item
  | acceptAny set => exact (h.acceptIf _).map Outcome.item
  | skipAny set => exact (h.skipWhile _).map Outcome.flag
  | skipUntilAny set => exact (h.skipWhile _).map Outcome.flag
  | extract => exact h.extract.map Outcome.items

/-- A history of operations on a cursor agrees with the same history on its bookmark. -/
lemma StandsAt.trace [BEq α] (h : StandsAt items cursor bookmark)
    (operations : List (Operation α)) :
    Agree items (trace Cursor.perform Cursor.position cursor operations)
      (trace (Bookmark.perform items) Bookmark.position bookmark operations) := by
  induction operations generalizing cursor bookmark with
  | nil => exact ⟨rfl, h⟩
  | cons operation operations ih =>
    obtain ⟨houtcome, hafter⟩ := h.perform operation
    have hposition := hafter.position_eq
    obtain ⟨houtcomes, hfinal⟩ := ih hafter
    refine ⟨?_, hfinal⟩
    simp only [Cursor.trace, houtcome, hposition, houtcomes]

/-- **Cursors refine bookmarks.**  Whatever operations are carried out on a cursor from the start of
some items, their outcomes and the positions after them are those of a bookmark in these items.
In the end the two have the same position, mark, accepted items and items still to come; the
position is not behind the mark, nor the mark behind the last item. -/
theorem trace_ofList [BEq α] (items : List α) (operations : List (Operation α)) :
    let (outcomes, cursor) := trace Cursor.perform Cursor.position (ofList items) operations
    let (outcomes', bookmark) := trace (Bookmark.perform items) Bookmark.position {} operations
    outcomes = outcomes' ∧ cursor.position = bookmark.position ∧ cursor.mark = bookmark.mark ∧
      cursor.accepted.reverse = bookmark.accepted items ∧
      cursor.remaining = bookmark.rest items ∧
      bookmark.position ≤ bookmark.mark ∧ bookmark.dropped + bookmark.mark ≤ items.length := by
  obtain ⟨houtcomes, hfinal⟩ := (standsAt_ofList items).trace operations
  exact ⟨houtcomes, hfinal.position_eq.symm, hfinal.mark_eq.symm, hfinal.accepted_eq.symm,
    hfinal.rest_eq.symm, hfinal.position_le_mark, hfinal.dropped_add_mark_le⟩

/-- An item that was only looked at can be passed by moving, and the one behind it cannot. -/
example :
    (trace Cursor.perform Cursor.position (ofList [3, 5, 7]) [.peek, .seek 2, .seek 1, .next]).1 =
      [(.item (some 3), 0), (.flag false, 0), (.flag true, 1), (.item (some 5), 2)] := by
  decide

end Cursor

end PostfixCalculator
