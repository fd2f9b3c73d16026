import PostfixCalculator.Binary64.Arithmetic

/-!
# Rounding to decimal places

A number is rounded to a count of decimal places by scaling it with a power of ten, adding one
half, taking the floor, and scaling it back; halves go up.  Every one of these steps is an
operation on binary64 numbers and rounds for itself.  A number whose scaling is not finite is
left as it is.
-/

namespace PostfixCalculator

namespace Binary64

/-- One half. -/
def half : Binary64 := nearest false quantaPerUnit 2

/-- The product of `acc` and the `n`-th power of `base`, by repeated squaring. -/
def mulPow (acc base : Binary64) (n : Nat) : Binary64 :=
  let acc := if n % 2 = 1 then acc.mul base else acc
  if n / 2 = 0 then acc else mulPow acc (base.mul base) (n / 2)
termination_by n

/-- The factor that turns the given count of decimal places into units: a power of ten, and
infinity from 309 on. -/
def placesFactor (places : Nat) : Binary64 := mulPow (ofNat 1) (ofNat 10) places

/-- The number rounded to the given count of decimal places. -/
def roundPlaces (places : Nat) (x : Binary64) : Binary64 :=
  let factor := placesFactor places
  let scaled := x.mul factor
  if scaled.isFinite then ((scaled.add half).floor).div factor else x

end Binary64

end PostfixCalculator
