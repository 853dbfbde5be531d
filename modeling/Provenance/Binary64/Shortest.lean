import Provenance.Binary64.Basic
import Provenance.Text.Decimal

/-!
# Shortest decimals of doubles

The fewest decimal digits that read back as a given double.  A decimal reads
back as a magnitude when it lies between the midpoints to the neighbouring
magnitudes, the midpoints included if the magnitude is even.  For one digit,
two digits and so on, the two neighbours of the double among the decimals with
that many digits are tried; the first hit wins, and of two hits the nearer one.
Seventeen digits always suffice.
-/

namespace Provenance.Binary64

/-- Exact test that `numerator / denominator`, in units of `2^-1075`, rounds to
a magnitude. -/
def roundsTo (magnitude numerator denominator : Nat) : Bool :=
  let lower := (unitsOf (magnitude - 1) + unitsOf magnitude) * denominator
  let upper := (unitsOf magnitude + unitsOf (magnitude + 1)) * denominator
  if magnitude % 2 = 0 then lower ≤ numerator && numerator ≤ upper
  else lower < numerator && numerator < upper

/-- Numerator and denominator of a power of ten. -/
def tenPower (exponent : Int) : Nat × Nat :=
  (Nat.pow 10 exponent.toNat, Nat.pow 10 (-exponent).toNat)

/-- The decimal rounds to the magnitude. -/
def readsBackAs (magnitude : Nat) (x : Decimal) : Bool :=
  let (numerator, denominator) := tenPower x.scale
  roundsTo magnitude (x.coefficient * numerator * (2 * unitsPerOne)) denominator

/-- The power of ten that the first decimal digit of a number of units counts.
No double other than zero is below `10^-324`. -/
def leadingPower (units : Nat) : Int :=
  ((Nat.toDigits 10 (units * Nat.pow 10 324 / unitsPerOne)).length : Int) - 325

/-- The best decimal with the given number of digits that reads back as the
magnitude, if one does. -/
def withPlaces? (magnitude places : Nat) : Option Decimal :=
  let units := unitsOf magnitude
  let scale := leadingPower units + 1 - places
  let (numerator, denominator) := tenPower scale
  let grid := numerator * unitsPerOne
  let below : Decimal := ⟨units * denominator / grid, scale⟩
  let above : Decimal := ⟨below.coefficient + 1, scale⟩
  match readsBackAs magnitude below, readsBackAs magnitude above with
  | true, true => some ⟨divideHalfEven (units * denominator) grid, scale⟩
  | true, false => some below
  | false, true => some above
  | false, false => none

/-- The shortest decimal that reads back as a magnitude other than zero. -/
def shortest (magnitude : Nat) : Decimal :=
  ((List.range 17).findSome? fun places => withPlaces? magnitude (places + 1)).getD ⟨0, 0⟩

/-- The text of a double: the shortest decimal with a sign if there is one.  A
zero shows its sign too. -/
def text (style : DecimalStyle) (x : Binary64) : List Char :=
  let digits :=
    if x.magnitude = 0 then ['0', '.', '0'] else (shortest x.magnitude).text style
  if x.negative then '-' :: digits else digits

end Provenance.Binary64
