/-!
# Binary64 numbers

A binary64 number is a NaN, an infinity of either sign, or a finite number with a sign.  The
magnitudes of the finite numbers are counted from zero in increasing order; the *rank* of a
magnitude is its place in that order, and it is at the same time the bit pattern of the
magnitude.

One *quantum* is the smallest positive magnitude, `2 ^ (-1074)`, and every finite magnitude is a
whole number of quanta.  All arithmetic on finite numbers is therefore exact arithmetic on whole
numbers, followed by one rounding.

NaNs are not told apart.
-/

namespace PostfixCalculator

/-- The number of finite magnitudes, which is the bit pattern of positive infinity. -/
def Binary64.infinityRank : Nat := 0x7FF0000000000000

-- The zero is named, since algebraic libraries bring other instances of it.
instance : @NeZero Nat Zero.ofOfNat0 Binary64.infinityRank := @NeZero.mk Nat _ _ (by decide)

/-- A binary64 number. -/
inductive Binary64 where
  | nan
  | infinity (negative : Bool)
  | finite (negative : Bool) (rank : Fin Binary64.infinityRank)
deriving DecidableEq

namespace Binary64

/-- The number of quanta in one. -/
def quantaPerUnit : Nat := Nat.pow 2 1074

/-! ### Ranks and quanta -/

/-- The power of two by which the significand of a magnitude is scaled. -/
def scale (rank : Nat) : Nat := rank / Nat.pow 2 52 - 1

/-- The significand of a magnitude: below `2 ^ 53`, and at least `2 ^ 52` unless the magnitude is
not scaled. -/
def significand (rank : Nat) : Nat := rank - scale rank * Nat.pow 2 52

/-- The number of quanta in the magnitude of the given rank. -/
def quanta (rank : Nat) : Nat := significand rank * Nat.pow 2 (scale rank)

@[simp] theorem quanta_zero : quanta 0 = 0 := by decide

/-- The number with the given sign and rank; from `infinityRank` on it is an infinity. -/
def ofRank (negative : Bool) (rank : Nat) : Binary64 :=
  if h : rank < infinityRank then finite negative ⟨rank, h⟩ else infinity negative

/-- A finite number has the sign and the rank that it was made from. -/
theorem ofRank_of_lt {rank : Nat} (negative : Bool) (h : rank < infinityRank) :
    ofRank negative rank = finite negative ⟨rank, h⟩ := dif_pos h

@[simp] theorem ofRank_val (negative : Bool) (rank : Fin infinityRank) :
    ofRank negative rank = finite negative rank := ofRank_of_lt negative rank.isLt

/-! ### Bit patterns -/

/-- The number with the given bit pattern: the uppermost bit is the sign, and the others are the
rank of a finite magnitude, the pattern of an infinity, or above that a NaN. -/
def ofBits (bits : UInt64) : Binary64 :=
  let negative : Bool := Nat.pow 2 63 ≤ bits.toNat
  let magnitude := bits.toNat % Nat.pow 2 63
  if infinityRank < magnitude then nan else ofRank negative magnitude

/-- The bit pattern of a number; a NaN gets the positive quiet one. -/
def toBits : Binary64 → UInt64
  | nan => 0x7FF8000000000000
  | infinity negative => signed negative infinityRank
  | finite negative rank => signed negative rank
where
  /-- A pattern of 63 bits below a sign bit. -/
  signed (negative : Bool) (magnitude : Nat) : UInt64 :=
    UInt64.ofNat (magnitude + if negative then Nat.pow 2 63 else 0)

/-- A pattern of at most the rank of infinity below a sign bit is read as the number with this sign
and rank. -/
theorem ofBits_signed {magnitude : Nat} (negative : Bool) (h : magnitude ≤ infinityRank) :
    ofBits (toBits.signed negative magnitude) = ofRank negative magnitude := by
  have : infinityRank = 0x7FF0000000000000 := rfl
  have bits : (toBits.signed negative magnitude).toNat =
      magnitude + if negative then 2 ^ 63 else 0 := by
    rw [toBits.signed, UInt64.toNat_ofNat', Nat.pow_eq]
    exact Nat.mod_eq_of_lt (by split <;> omega)
  have low : (magnitude + if negative then 2 ^ 63 else 0) % 2 ^ 63 = magnitude := by
    cases negative
    · simp
      omega
    · simp
      omega
  have high : decide (2 ^ 63 ≤ magnitude + if negative then 2 ^ 63 else 0) = negative := by
    cases negative
    · simp
      omega
    · simp
  simp only [ofBits, Nat.pow_eq, bits, low, high, if_neg (Nat.not_lt.mpr h)]

/-- Every number is determined by its bit pattern. -/
@[simp] theorem ofBits_toBits (x : Binary64) : ofBits x.toBits = x := by
  cases x with
  | nan => decide
  | infinity negative => exact ofBits_signed negative (Nat.le_refl _)
  | finite negative rank =>
    exact (ofBits_signed negative (Nat.le_of_lt rank.isLt)).trans (ofRank_val negative rank)

/-! ### Classes and signs -/

/-- Neither infinite nor a NaN. -/
def isFinite : Binary64 → Bool
  | finite _ _ => true
  | _ => false

/-- The number with its sign turned round. -/
def neg : Binary64 → Binary64
  | nan => nan
  | infinity negative => infinity !negative
  | finite negative rank => finite (!negative) rank

end Binary64

end PostfixCalculator
