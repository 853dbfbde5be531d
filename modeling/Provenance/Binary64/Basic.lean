/-!
# Finite binary64 numbers

A finite double is a sign and a magnitude.  The magnitude is the exponent field
and the fraction read as one number, so magnitudes are ordered as the values
they stand for, and the next representable value is the next magnitude.

Every finite double is a whole number of the least subnormal `2^-1074`.
Arithmetic is exact in these units and rounds once, to the nearest double and
to the even magnitude on a tie.  No machine float is involved.
-/

namespace Provenance

/-- The number of fractions, `2^52`: also the weight of the leading bit that a
normal number does not store. -/
def Binary64.fractionCount : Nat := 0x10000000000000

/-- The least magnitude that is not finite: the greatest exponent field with no
fraction. -/
def Binary64.infinite : Nat := 0x7FF0000000000000

/-- A finite double. -/
structure Binary64 where
  /-- The sign bit; both zeros exist. -/
  negative : Bool
  /-- The exponent field and the fraction as one number. -/
  magnitude : Nat
  /-- The exponent field is not the one of infinities. -/
  finite : magnitude < Binary64.infinite
  deriving DecidableEq, Repr

namespace Binary64

/-- The value of a magnitude in units of `2^-1074`.  Magnitudes below `2^52`
are subnormal and stand for themselves. -/
def unitsOf (magnitude : Nat) : Nat :=
  if magnitude < fractionCount then magnitude
  else
    (fractionCount + magnitude % fractionCount) * Nat.pow 2 (magnitude / fractionCount - 1)

/-- The absolute value of a double in units of `2^-1074`. -/
def units (x : Binary64) : Nat :=
  unitsOf x.magnitude

/-- The number of units in one. -/
def unitsPerOne : Nat := Nat.pow 2 1074

/-- Zero, the positive one. -/
def zero : Binary64 := ⟨false, 0, by decide⟩

/-- A double is zero, of either sign. -/
def isZero (x : Binary64) : Bool :=
  x.magnitude == 0

/-- The double of the given sign and the absolute value of `x`. -/
def withSign (negative : Bool) (x : Binary64) : Binary64 :=
  { x with negative }

/-! ## Rounding -/

/-- The quotient of two numbers rounded to the nearest number; a tie goes to
the even one. -/
def divideHalfEven (numerator denominator : Nat) : Nat :=
  let quotient := numerator / denominator
  let twice := 2 * (numerator % denominator)
  if twice < denominator then quotient
  else if denominator < twice then quotient + 1
  else quotient + quotient % 2

/-- The magnitude nearest to `numerator / denominator` units.  The scale is the
one at which the quotient has fifty-three bits, or the subnormal scale if it
has fewer; rounding up to the next power of two carries into the exponent. -/
def roundMagnitude (numerator denominator : Nat) : Nat :=
  let scale := Nat.log2 (numerator / denominator) - 52
  scale * fractionCount + divideHalfEven numerator (denominator * Nat.pow 2 scale)

/-- The nonnegative double nearest to `numerator / denominator` units, if that
is finite. -/
def nearest? (numerator denominator : Nat) : Option Binary64 :=
  let magnitude := roundMagnitude numerator denominator
  if h : magnitude < infinite then some ⟨false, magnitude, h⟩ else none

/-! ## Arithmetic on absolute values -/

/-- The double nearest to a natural number. -/
def ofNat? (n : Nat) : Option Binary64 :=
  nearest? (n * unitsPerOne) 1

/-- The double nearest to `10^exponent`; finite up to an exponent of `308`. -/
def powerOfTen? (exponent : Nat) : Option Binary64 :=
  ofNat? (Nat.pow 10 exponent)

/-- The rounded product of two absolute values. -/
def times? (x y : Binary64) : Option Binary64 :=
  nearest? (x.units * y.units) unitsPerOne

/-- The rounded quotient of two absolute values. -/
def over? (x y : Binary64) : Option Binary64 :=
  nearest? (x.units * unitsPerOne) y.units

/-- The double nearest to `numerator / denominator`, if that is finite. -/
def ofRatio? (numerator denominator : Nat) : Option Binary64 :=
  nearest? (numerator * unitsPerOne) denominator

/-- Two doubles are equal as numbers: the zeros of both signs are. -/
def sameValue (x y : Binary64) : Bool :=
  x.magnitude == y.magnitude && (x.negative == y.negative || x.magnitude == 0)

/-- The double is at least zero; the negative zero is. -/
def isNonnegative (x : Binary64) : Bool :=
  !x.negative || x.magnitude == 0

end Binary64

end Provenance
