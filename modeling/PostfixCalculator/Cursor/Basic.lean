/-!
# A cursor with unbounded lookahead

A cursor reads a source item by item.  Items taken from the source are kept until they are
dropped: first those already accepted, then those only looked at.  As long as nothing is dropped
the cursor can go back to any earlier position, and forward again over everything it has looked
at.

Every test of the next item takes that item from the source, whether the item is accepted or
not.  How far a cursor may move forward is therefore a matter of what it has looked at, which is
why the lookahead is part of the state and not derived from it.
-/

namespace PostfixCalculator

universe u

/-- A position in a list of items, and how much of the list has been looked at. -/
structure Cursor (α : Type u) where
  /-- The accepted items since the last drop, the newest first. -/
  accepted : List α
  /-- The items that were looked at and are not accepted, in the order of the source. -/
  ahead : List α
  /-- The items never looked at. -/
  source : List α
deriving DecidableEq

namespace Cursor

variable {α : Type u}

/-- A cursor at the start of the items, none of them looked at. -/
def ofList (items : List α) : Cursor α := ⟨[], [], items⟩

/-- The number of items accepted since the last drop. -/
def position (cursor : Cursor α) : Nat := cursor.accepted.length

/-- All items still to come. -/
def remaining (cursor : Cursor α) : List α := cursor.ahead ++ cursor.source

/-- The items kept since the last drop, in the order of the source. -/
def kept (cursor : Cursor α) : List α := cursor.accepted.reverse ++ cursor.ahead

/-- The number of items kept: the furthest position the cursor can move to. -/
def mark (cursor : Cursor α) : Nat := cursor.kept.length

/-! ### Single items -/

/-- Look at the next item: afterwards it is ahead, unless the source is exhausted. -/
def look (cursor : Cursor α) : Cursor α :=
  match cursor.ahead, cursor.source with
  | [], item :: source => ⟨cursor.accepted, [item], source⟩
  | _, _ => cursor

/-- The next item, which is looked at and not accepted. -/
def peek (cursor : Cursor α) : Option α × Cursor α :=
  (cursor.look.ahead.head?, cursor.look)

/-- Accept the next item if it passes the test. -/
def acceptIf (test : α → Bool) (cursor : Cursor α) : Option α × Cursor α :=
  let cursor := cursor.look
  match cursor.ahead with
  | [] => (none, cursor)
  | item :: ahead =>
    if test item then (some item, ⟨item :: cursor.accepted, ahead, cursor.source⟩)
    else (none, cursor)

/-- Accept the next item, whatever it is. -/
def next (cursor : Cursor α) : Option α × Cursor α := cursor.acceptIf fun _ => true

/-- Accept the next item if it is the given one. -/
def accept [BEq α] (item : α) (cursor : Cursor α) : Option α × Cursor α :=
  cursor.acceptIf (· == item)

/-- Accept the next item if it is in the set. -/
def acceptAny [BEq α] (set : List α) (cursor : Cursor α) : Option α × Cursor α :=
  cursor.acceptIf set.contains

/-! ### Runs of items -/

/-- Accept the longest run of following items that pass the test.  The item that ends the run is
looked at. -/
def advanceWhile (test : α → Bool) (cursor : Cursor α) : Cursor α :=
  match cursor.ahead.dropWhile test with
  | item :: ahead =>
    ⟨(cursor.ahead.takeWhile test).reverse ++ cursor.accepted, item :: ahead, cursor.source⟩
  | [] =>
    let accepted :=
      (cursor.source.takeWhile test).reverse ++ (cursor.ahead.reverse ++ cursor.accepted)
    match cursor.source.dropWhile test with
    | item :: source => ⟨accepted, [item], source⟩
    | [] => ⟨accepted, [], []⟩

/-- Accept the longest run of items that pass the test, and say whether there was any. -/
def skipWhile (test : α → Bool) (cursor : Cursor α) : Bool × Cursor α :=
  let after := cursor.advanceWhile test
  (cursor.position < after.position, after)

/-- Accept the longest run of items in the set, and say whether there was any. -/
def skipAny [BEq α] (set : List α) (cursor : Cursor α) : Bool × Cursor α :=
  cursor.skipWhile set.contains

/-- Accept the items before the next one in the set, and say whether there was any. -/
def skipUntilAny [BEq α] (set : List α) (cursor : Cursor α) : Bool × Cursor α :=
  cursor.skipWhile fun item => !set.contains item

/-! ### Positions and drops -/

/-- Move to a position at or before the `mark`; any other position is refused and changes
nothing. -/
def seek (target : Nat) (cursor : Cursor α) : Bool × Cursor α :=
  if target ≤ cursor.mark then
    (true, ⟨(cursor.kept.take target).reverse, cursor.kept.drop target, cursor.source⟩)
  else (false, cursor)

/-- Drop the accepted items: the cursor's position becomes zero. -/
def discard (cursor : Cursor α) : Cursor α := { cursor with accepted := [] }

/-- Take the accepted items out, in the order of the source. -/
def extract (cursor : Cursor α) : List α × Cursor α := (cursor.accepted.reverse, cursor.discard)

/-! ### Positions and marks -/

@[simp] theorem position_discard (cursor : Cursor α) : cursor.discard.position = 0 := rfl

theorem position_le_mark (cursor : Cursor α) : cursor.position ≤ cursor.mark := by
  simp [position, mark, kept]

/-! ### Items still to come -/

@[simp] theorem remaining_ofList (items : List α) : (ofList items).remaining = items := rfl

@[simp] theorem remaining_look (cursor : Cursor α) : cursor.look.remaining = cursor.remaining := by
  rcases cursor with ⟨accepted, _ | ⟨item, ahead⟩, _ | ⟨head, source⟩⟩ <;> rfl

@[simp] theorem accepted_look (cursor : Cursor α) : cursor.look.accepted = cursor.accepted := by
  rcases cursor with ⟨accepted, _ | ⟨item, ahead⟩, _ | ⟨head, source⟩⟩ <;> rfl

@[simp] theorem remaining_discard (cursor : Cursor α) :
    cursor.discard.remaining = cursor.remaining := rfl

/-- The next item is the first of those still to come. -/
theorem peek_fst (cursor : Cursor α) : cursor.peek.1 = cursor.remaining.head? := by
  rcases cursor with ⟨accepted, _ | ⟨item, ahead⟩, _ | ⟨head, source⟩⟩ <;> rfl

/-- A run ends where the items still to come first fail the test. -/
theorem remaining_advanceWhile (test : α → Bool) (cursor : Cursor α) :
    (cursor.advanceWhile test).remaining = cursor.remaining.dropWhile test := by
  rcases cursor with ⟨accepted, ahead, source⟩
  have split : (ahead ++ source).dropWhile test = _ := List.dropWhile_append
  simp only [advanceWhile, remaining]
  cases h : ahead.dropWhile test with
  | cons item ahead => simp [split, h]
  | nil =>
    cases h' : source.dropWhile test with
    | nil => simp [split, h, h']
    | cons item source => simp [split, h, h']

end Cursor

end PostfixCalculator
