import PostfixCalculator.Decimal.Basic

/-!
# The shortest decimal that reads back

Among the decimals that are rounded to a given magnitude, the shortest one lies on the coarsest
grid of multiples of a power of ten that has such a decimal at all.  On that grid only the two
neighbours of the magnitude matter, and the nearer one is taken; a tie goes up.

A quantum is `5 ^ 1074` units of the last decimal place that any binary64 number has, which is
`10 ^ (-1074)`.  Counted in these units every magnitude is a whole number, and so are the points
of all grids.
-/

namespace PostfixCalculator

namespace Decimal

/-- The number of decimal places that suffices for every binary64 number. -/
def lastPlace : Nat := 1074

/-- The magnitude of the given rank in units of the last place. -/
def exactUnits (rank : Nat) : Nat := Binary64.quanta rank * Nat.pow 5 lastPlace

/-- The rank of a whole number of units of the last place. -/
def rankOfUnits (units : Nat) : Nat := Binary64.nearestRank units (Nat.pow 5 lastPlace)

/-- One of two neighbours that is admitted, given the lower one and whether it is the nearer of the
two. -/
def neighbour? (admitted : Nat → Bool) (below : Nat) (nearer : Bool) : Option Nat :=
  match admitted below, admitted (below + 1) with
  | true, true => some (if nearer then below else below + 1)
  | true, false => some below
  | false, true => some (below + 1)
  | false, false => none

/-- The point of the grid with step `10 ^ place` units that reads back as the magnitude of the
given rank and is nearest to it, if one of the two neighbours does.  The point is returned as its
multiple of the step. -/
def onGrid? (rank place : Nat) : Option Nat :=
  let units := exactUnits rank
  let step := Nat.pow 10 place
  neighbour? (fun point => rankOfUnits (point * step) == rank) (units / step)
    (2 * (units % step) < step)

/-- The point that is found on the coarsest grid with a step of at most `10 ^ place` units, with the
place of that grid.  On the finest grid the magnitude itself is such a point. -/
def coarsest (onGrid? : Nat → Option Nat) (units : Nat) : Nat → Nat × Nat
  | 0 => (units, 0)
  | place + 1 =>
    match onGrid? (place + 1) with
    | some point => (point, place + 1)
    | none => coarsest onGrid? units place

/-- The shortest decimal that reads back as the number with the given sign and rank.  The search
starts at a grid whose step is greater than the magnitude. -/
def shortest (negative : Bool) (rank : Nat) : Decimal :=
  let units := exactUnits rank
  let found := coarsest (onGrid? rank) units (units.log2 / 3 + 1)
  ⟨negative, found.1, found.2 - lastPlace⟩

end Decimal

end PostfixCalculator
