import PostfixCalculator.Text.Basic

/-!
# Sets of characters

A set of characters is kept as closed ranges of code points, ascending and apart, so that a
search can stop at the first range that lies behind the character.  The set carries the proof that
its ranges ascend, and the search therefore finds all its members.
-/

namespace PostfixCalculator

/-- The ranges ascend, and there is a gap between every two of them. -/
def CodePoints.ascend : List (Nat × Nat) → Bool
  | [] => true
  | [(low, high)] => low ≤ high
  | (low, high) :: (next, top) :: ranges =>
    low ≤ high && high + 1 < next && ascend ((next, top) :: ranges)

/-- A set of characters: ranges of code points, both ends included. -/
structure CodePoints where
  /-- The ranges in order. -/
  ranges : List (Nat × Nat)
  /-- The ranges ascend. -/
  ascending : CodePoints.ascend ranges = true

namespace CodePoints

/-- The code points in one of the ranges are the members. -/
instance : Membership Nat CodePoints where
  mem set n := ∃ range ∈ set.ranges, range.1 ≤ n ∧ n ≤ range.2

/-- Look for a code point in ranges that ascend. -/
def search : List (Nat × Nat) → Nat → Bool
  | [], _ => false
  | (low, high) :: ranges, n => low ≤ n && (n ≤ high || search ranges n)

/-- Whether a code point is in a set. -/
def contains (set : CodePoints) (n : Nat) : Bool := search set.ranges n

theorem ascend_tail {range : Nat × Nat} {ranges : List (Nat × Nat)}
    (h : ascend (range :: ranges) = true) : ascend ranges = true := by
  cases ranges with
  | nil => rfl
  | cons next ranges =>
    simp only [ascend, Bool.and_eq_true] at h
    exact h.2

/-- The first range starts below all others. -/
theorem le_of_mem_ascend {first range : Nat × Nat} {ranges : List (Nat × Nat)}
    (h : ascend (first :: ranges) = true) (mem : range ∈ ranges) : first.1 ≤ range.1 := by
  induction ranges generalizing first with
  | nil => cases mem
  | cons next ranges ih =>
    simp only [ascend, Bool.and_eq_true, decide_eq_true_eq] at h
    have below : first.1 ≤ next.1 := by omega
    rcases List.mem_cons.mp mem with rfl | mem
    · exact below
    · exact Nat.le_trans below (ih h.2 mem)

/-- The search finds exactly the code points in one of the ranges: what lies in a later range
starts above the first one. -/
theorem search_iff {ranges : List (Nat × Nat)} (h : ascend ranges = true) {n : Nat} :
    search ranges n = true ↔ ∃ range ∈ ranges, range.1 ≤ n ∧ n ≤ range.2 := by
  induction ranges with
  | nil => simp [search]
  | cons first ranges ih =>
    simp only [search, Bool.and_eq_true, Bool.or_eq_true, decide_eq_true_eq, ih (ascend_tail h)]
    constructor
    · rintro ⟨low, high | ⟨range, mem, found⟩⟩
      · exact ⟨first, List.mem_cons_self, low, high⟩
      · exact ⟨range, List.mem_cons_of_mem _ mem, found⟩
    · rintro ⟨range, mem, low, high⟩
      rcases List.mem_cons.mp mem with rfl | mem
      · exact ⟨low, Or.inl high⟩
      · exact ⟨Nat.le_trans (le_of_mem_ascend h mem) low, Or.inr ⟨range, mem, low, high⟩⟩

theorem contains_iff {set : CodePoints} {n : Nat} : set.contains n = true ↔ n ∈ set :=
  search_iff set.ascending

end CodePoints

end PostfixCalculator
