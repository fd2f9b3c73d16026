import Mathlib.Tactic.Lemma
import PostfixCalculator.Cursor.Basic

/-!
# Bookmarks

A *bookmark* is a place in a list of items: the count of the items dropped, the position behind
them, and the furthest position behind them that can be moved to.  It leaves the list as it is.

This file says what the operations of a cursor are and what each of them does to a bookmark.  Seeing
an item raises the mark; accepting it moves the position; a run of items moves it over the longest
stretch that passes a test; moving sets it to any place that is not behind the mark; and dropping
turns the accepted items into dropped ones.
-/

namespace PostfixCalculator

universe u v

variable {α : Type u}

/-! ## Operations and their outcomes -/

namespace Cursor

/-- An operation on a cursor. -/
inductive Operation (α : Type u) where
  /-- Accept the next item. -/
  | next
  /-- Look at the next item. -/
  | peek
  /-- Ask for the position. -/
  | position
  /-- Move to a position. -/
  | seek (target : Nat)
  /-- Drop the accepted items. -/
  | discard
  /-- Accept the next item if it is the given one. -/
  | accept (item : α)
  /-- Accept the next item if it is in the set. -/
  | acceptAny (set : List α)
  /-- Accept the longest run of items in the set. -/
  | skipAny (set : List α)
  /-- Accept the items before the next one in the set. -/
  | skipUntilAny (set : List α)
  /-- Take the accepted items out. -/
  | extract
deriving DecidableEq

/-- What an operation returns. -/
inductive Outcome (α : Type u) where
  /-- An item, or none. -/
  | item (item : Option α)
  /-- Whether the operation had an effect. -/
  | flag (flag : Bool)
  /-- A position. -/
  | position (position : Nat)
  /-- Items that were taken out. -/
  | items (items : List α)
  /-- No result. -/
  | nothing
deriving DecidableEq

/-- Carry an operation out on a cursor. -/
def perform [BEq α] (cursor : Cursor α) : Operation α → Outcome α × Cursor α
  | .next => cursor.next.map .item id
  | .peek => cursor.peek.map .item id
  | .position => (.position cursor.position, cursor)
  | .seek target => (cursor.seek target).map .flag id
  | .discard => (.nothing, cursor.discard)
  | .accept item => (cursor.accept item).map .item id
  | .acceptAny set => (cursor.acceptAny set).map .item id
  | .skipAny set => (cursor.skipAny set).map .flag id
  | .skipUntilAny set => (cursor.skipUntilAny set).map .flag id
  | .extract => cursor.extract.map .items id

/-- The outcomes of operations that are carried out one after the other, each with the position
after it, and the state that they lead to. -/
def trace {σ : Type v} (perform : σ → Operation α → Outcome α × σ) (position : σ → Nat) (state : σ) :
    List (Operation α) → List (Outcome α × Nat) × σ
  | [] => ([], state)
  | operation :: operations =>
    let (outcome, state) := perform state operation
    let (outcomes, final) := trace perform position state operations
    ((outcome, position state) :: outcomes, final)

end Cursor

/-! ## Bookmarks -/

/-- A place in a list of items, and how far one can go from it. -/
structure Bookmark where
  /-- The number of items dropped. -/
  dropped : Nat := 0
  /-- The number of items accepted since. -/
  position : Nat := 0
  /-- The furthest position that can be moved to. -/
  mark : Nat := 0
deriving DecidableEq

namespace Bookmark

open Cursor (Operation Outcome)

/-- The items still to come. -/
def rest (items : List α) (bookmark : Bookmark) : List α :=
  items.drop (bookmark.dropped + bookmark.position)

/-- The next item.  If there is one, then the mark is raised to the position behind it. -/
def see (items : List α) (bookmark : Bookmark) : Option α × Bookmark :=
  match items[bookmark.dropped + bookmark.position]? with
  | some item => (some item, { bookmark with mark := max bookmark.mark (bookmark.position + 1) })
  | none => (none, bookmark)

/-- Move forward over items that are seen while they are passed. -/
def advance (count : Nat) (bookmark : Bookmark) : Bookmark :=
  { bookmark with
    position := bookmark.position + count
    mark := max bookmark.mark (bookmark.position + count) }

/-- See the next item and accept it if it passes the test. -/
def acceptIf (test : α → Bool) (items : List α) (bookmark : Bookmark) : Option α × Bookmark :=
  match bookmark.see items with
  | (some item, seen) => if test item then (some item, bookmark.advance 1) else (none, seen)
  | (none, seen) => (none, seen)

/-- The length of the longest run of following items that pass the test. -/
def runLength (test : α → Bool) (items : List α) (bookmark : Bookmark) : Nat :=
  ((bookmark.rest items).takeWhile test).length

/-- Accept the longest run of items that pass the test, say whether there was any, and see the item
behind it. -/
def skipWhile (test : α → Bool) (items : List α) (bookmark : Bookmark) : Bool × Bookmark :=
  let count := bookmark.runLength test items
  (0 < count, ((bookmark.advance count).see items).2)

/-- Move to a position at or before the mark. -/
def seek (target : Nat) (bookmark : Bookmark) : Bool × Bookmark :=
  if target ≤ bookmark.mark then (true, { bookmark with position := target }) else (false, bookmark)

/-- Drop the accepted items. -/
def discard (bookmark : Bookmark) : Bookmark where
  dropped := bookmark.dropped + bookmark.position
  position := 0
  mark := bookmark.mark - bookmark.position

/-- The accepted items. -/
def accepted (items : List α) (bookmark : Bookmark) : List α :=
  (items.drop bookmark.dropped).take bookmark.position

/-- Carry an operation out on a bookmark in the items. -/
def perform [BEq α] (items : List α) (bookmark : Bookmark) :
    Operation α → Outcome α × Bookmark
  | .next => (bookmark.acceptIf (fun _ => true) items).map .item id
  | .peek => (bookmark.see items).map .item id
  | .position => (.position bookmark.position, bookmark)
  | .seek target => (bookmark.seek target).map .flag id
  | .discard => (.nothing, bookmark.discard)
  | .accept item => (bookmark.acceptIf (· == item) items).map .item id
  | .acceptAny set => (bookmark.acceptIf set.contains items).map .item id
  | .skipAny set => (bookmark.skipWhile set.contains items).map .flag id
  | .skipUntilAny set => (bookmark.skipWhile (!set.contains ·) items).map .flag id
  | .extract => (.items (bookmark.accepted items), bookmark.discard)

/-! ### Runs of items -/

variable {items : List α} {bookmark after : Bookmark} {item : α} {test : α → Bool}

/-- Moving forward twice is moving forward once. -/
lemma advance_advance (count count' : Nat) :
    (bookmark.advance count).advance count' = bookmark.advance (count + count') := by
  simp only [advance, mk.injEq, true_and]
  omega

/-- Seeing an item does not move a bookmark. -/
lemma position_see : (bookmark.see items).2.position = bookmark.position := by
  unfold see
  split <;> rfl

/-- The item that is seen is the first of those still to come. -/
lemma see_fst : (bookmark.see items).1 = (bookmark.rest items).head? := by
  rw [rest, List.head?_drop]
  unfold see
  split <;> simp_all

/-- Moving forward over one item is seeing it and then accepting it. -/
lemma advance_one_of_see {seen : Bookmark} (h : bookmark.see items = (some item, seen)) :
    bookmark.advance 1 = { seen with position := seen.position + 1 } := by
  unfold see at h
  split at h
  · obtain ⟨-, rfl⟩ := Prod.mk.inj h
    rfl
  · simp at h

/-- An item that is accepted is the first of those still to come and passes the test. -/
lemma acceptIf_eq_some (h : bookmark.acceptIf test items = (some item, after)) :
    bookmark.rest items = item :: after.rest items ∧ test item = true ∧
      after = bookmark.advance 1 := by
  have hhead : (bookmark.see items).1 = (bookmark.rest items).head? := see_fst
  unfold acceptIf at h
  rcases hsee : bookmark.see items with ⟨_ | first, seen⟩
  · simp [hsee] at h
  · by_cases htest : test first = true
    · obtain ⟨rfl, rfl⟩ : first = item ∧ bookmark.advance 1 = after := by
        simpa [hsee, htest] using h
      rw [hsee] at hhead
      obtain ⟨tail, hrest⟩ := List.head?_eq_some_iff.mp hhead.symm
      have hbehind : (bookmark.advance 1).rest items = (bookmark.rest items).tail := by
        simp only [rest, advance, List.tail_drop, Nat.add_assoc]
      rw [hbehind, hrest]
      exact ⟨rfl, htest, rfl⟩
    · simp [hsee, htest] at h

/-- If no item is accepted, then none is still to come or the first one fails the test, and the
bookmark has seen it. -/
lemma acceptIf_eq_none (h : bookmark.acceptIf test items = (none, after)) :
    bookmark.runLength test items = 0 ∧ after = (bookmark.see items).2 := by
  have hhead : (bookmark.see items).1 = (bookmark.rest items).head? := see_fst
  unfold acceptIf at h
  unfold runLength
  rcases hsee : bookmark.see items with ⟨_ | first, seen⟩
  · obtain rfl : seen = after := by simpa [hsee] using h
    rw [hsee] at hhead
    have hrest : bookmark.rest items = [] := List.head?_eq_none_iff.mp hhead.symm
    simp [hrest]
  · by_cases htest : test first = true
    · simp [hsee, htest] at h
    · obtain rfl : seen = after := by simpa [hsee, htest] using h
      rw [hsee] at hhead
      obtain ⟨tail, hrest⟩ := List.head?_eq_some_iff.mp hhead.symm
      simp [hrest, htest]

/-- A run goes on behind an item that is accepted. -/
lemma skipWhile_of_acceptIf_some (h : bookmark.acceptIf test items = (some item, after)) :
    (bookmark.skipWhile test items).2 = (after.skipWhile test items).2 := by
  obtain ⟨hrest, htest, rfl⟩ := acceptIf_eq_some h
  have hrun : bookmark.runLength test items = 1 + (bookmark.advance 1).runLength test items := by
    rw [runLength, hrest, List.takeWhile_cons_of_pos htest, List.length_cons, Nat.add_comm]
    rfl
  simp only [skipWhile, hrun, advance_advance]

/-- A run ends where no item is accepted. -/
lemma skipWhile_of_acceptIf_none (hmark : bookmark.position ≤ bookmark.mark)
    (h : bookmark.acceptIf test items = (none, after)) :
    (bookmark.skipWhile test items).2 = after := by
  obtain ⟨hrun, rfl⟩ := acceptIf_eq_none h
  have hstay : bookmark.advance 0 = bookmark := by
    simp [advance, Nat.max_eq_left hmark]
  simp only [skipWhile, hrun, hstay]

end Bookmark

end PostfixCalculator
