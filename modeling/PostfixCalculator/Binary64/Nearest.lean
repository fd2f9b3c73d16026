import PostfixCalculator.Binary64.Basic

/-!
# The nearest binary64 number

A quotient of two natural numbers, counted in quanta, is rounded to the nearest finite
magnitude, a tie going to the magnitude of even rank.

A magnitude with fewer than 53 binary digits before the point is rounded to whole quanta.  A
larger one is first scaled down by the power of two that leaves 53 of them.  Because ranks are
consecutive, a significand that is rounded up to `2 ^ 53` needs no correction: its rank is that
of the next power of two, and past the last finite magnitude it is `infinityRank`.
-/

namespace PostfixCalculator

namespace Binary64

/-- The whole number nearest to a quotient; a tie goes to the even one. -/
def roundHalfEven (num den : Nat) : Nat :=
  let whole := num / den
  let twice := 2 * (num % den)
  if twice < den then whole else if den < twice then whole + 1 else whole + whole % 2

/-- The rank of the magnitude nearest to `num / den` quanta, where at least `infinityRank` stands
for infinity. -/
def nearestRank (num den : Nat) : Nat :=
  let shift := (num / den).log2 - 52
  shift * Nat.pow 2 52 + roundHalfEven num (den * Nat.pow 2 shift)

/-- The number nearest to `num / den` quanta, with the given sign. -/
def nearest (negative : Bool) (num den : Nat) : Binary64 :=
  ofRank negative (nearestRank num den)

/-- The nearest number to a natural number. -/
def ofNat (n : Nat) : Binary64 := nearest false (n * quantaPerUnit) 1

end Binary64

end PostfixCalculator
