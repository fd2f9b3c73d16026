import PostfixCalculator.Decimal.Shortest

/-!
# Positional notation

A number is written with its shortest digits and without an exponent, however far they are from
the point.  There is a point only in front of at least one digit, and at least one digit in front
of it.  Both zeros are written alike.
-/

namespace PostfixCalculator

/-- The digits of `digits / 10 ^ places`, with a point in front of the last `places` of them. -/
def Decimal.withPoint (digits places : Nat) : Text :=
  let spelled := Nat.toDigits 10 digits
  let padded := List.replicate (places + 1 - spelled.length) '0' ++ spelled
  padded.take (padded.length - places) ++ '.' :: padded.drop (padded.length - places)

/-- A decimal in positional notation. -/
def Decimal.positional (decimal : Decimal) : Text :=
  let sign := if decimal.negative then ['-'] else []
  sign ++
    if 0 ≤ decimal.exponent then
      Nat.toDigits 10 decimal.digits ++ List.replicate decimal.exponent.toNat '0'
    else Decimal.withPoint decimal.digits (-decimal.exponent).toNat

/-- The text of a number. -/
def Binary64.toText : Binary64 → Text
  | nan => ['N', 'a', 'N']
  | infinity false => ['i', 'n', 'f']
  | infinity true => ['-', 'i', 'n', 'f']
  | finite negative rank =>
    if rank = 0 then ['0'] else (Decimal.shortest negative rank).positional

/-! ### Examples -/

/-- Both zeros are written alike. -/
example : (Binary64.finite true 0).toText = (Binary64.finite false 0).toText := by decide

/-- No point stands behind a whole number. -/
example : (Decimal.mk true 12 2).positional = "-1200".toList := by decide

/-- A digit stands in front of the point. -/
example : (Decimal.mk false 5 (-4)).positional = "0.0005".toList := by decide

/-- The number `1000000000000000.25` lies halfway between two shortest candidates. -/
example :
    ((Decimal.ofNumeral "1000000000000000.25".toList).toBinary64.toText) =
      "1000000000000000.3".toList := by
  decide +kernel

end PostfixCalculator
