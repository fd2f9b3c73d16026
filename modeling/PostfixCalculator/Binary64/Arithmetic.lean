import PostfixCalculator.Binary64.Nearest

/-!
# Arithmetic on binary64 numbers

Sum, difference, product and quotient are the exact result rounded to the nearest number.  An
exact zero takes its sign from the operands: a sum is negative zero only if both terms are
negative, and products and quotients have the sign that their factors give them.
-/

namespace PostfixCalculator

namespace Binary64

/-- A magnitude in quanta with its sign. -/
def signedQuanta (negative : Bool) (rank : Nat) : Int :=
  if negative then -(quanta rank : Int) else quanta rank

/-- The sum. -/
def add : Binary64 → Binary64 → Binary64
  | finite s a, finite t b =>
    let sum := signedQuanta s a + signedQuanta t b
    nearest (if sum = 0 then s && t else sum < 0) sum.natAbs 1
  | infinity s, infinity t => if s = t then infinity s else nan
  | infinity s, finite _ _ => infinity s
  | finite _ _, infinity t => infinity t
  | nan, _ => nan
  | _, nan => nan

/-- The difference is the sum with the negated subtrahend. -/
def sub (x y : Binary64) : Binary64 := x.add y.neg

/-- The product. -/
def mul : Binary64 → Binary64 → Binary64
  | finite s a, finite t b => nearest (s != t) (quanta a * quanta b) quantaPerUnit
  | infinity s, finite t b => if b = 0 then nan else infinity (s != t)
  | finite s a, infinity t => if a = 0 then nan else infinity (s != t)
  | infinity s, infinity t => infinity (s != t)
  | nan, _ => nan
  | _, nan => nan

/-- The quotient. -/
def div : Binary64 → Binary64 → Binary64
  | finite s a, finite t b =>
    if b = 0 then if a = 0 then nan else infinity (s != t)
    else nearest (s != t) (quanta a * quantaPerUnit) (quanta b)
  | infinity s, finite t _ => infinity (s != t)
  | finite s _, infinity t => finite (s != t) 0
  | infinity _, infinity _ => nan
  | nan, _ => nan
  | _, nan => nan

/-- The greatest whole number that is not greater; a zero keeps its sign. -/
def floor : Binary64 → Binary64
  | finite negative rank =>
    let up := if negative then quantaPerUnit - 1 else 0
    let units := (quanta rank + up) / quantaPerUnit
    nearest negative (units * quantaPerUnit) 1
  | x => x

end Binary64

end PostfixCalculator
