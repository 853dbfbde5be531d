/-!
# Decimal numbers and their text

A decimal is a coefficient and a power of ten.  Its text has two forms: the
plain one, with a point among or behind the digits, and the scientific one,
with a point behind the first digit and an exponent.  A style says between
which exponents the plain form is used.
-/

namespace Provenance

/-- The number `coefficient * 10 ^ scale`. -/
structure Decimal where
  coefficient : Nat
  scale : Int
  deriving DecidableEq, Repr

/-- The exponents of the first digit for which a decimal is written plainly. -/
structure DecimalStyle where
  leastPlain : Int
  greatestPlain : Int
  deriving DecidableEq, Repr

namespace Decimal

/-- All digits of the coefficient. -/
def allDigits (x : Decimal) : List Char :=
  Nat.toDigits 10 x.coefficient

/-- The digits of the coefficient up to the last that is not zero. -/
def digits (x : Decimal) : List Char :=
  (x.allDigits.reverse.dropWhile (· == '0')).reverse

/-- The power of ten that the first digit counts. -/
def leadingExponent (x : Decimal) : Int :=
  x.scale + x.allDigits.length - 1

/-- Digits with a point: at least one digit stands on each side of it. -/
def plain (digits : List Char) (exponent : Int) : List Char :=
  if exponent < 0 then
    '0' :: '.' :: List.replicate (-exponent - 1).toNat '0' ++ digits
  else
    let whole := exponent.toNat + 1
    if digits.length ≤ whole then
      digits ++ List.replicate (whole - digits.length) '0' ++ ['.', '0']
    else
      digits.take whole ++ '.' :: digits.drop whole

/-- One digit, the others behind a point if there are any, and an exponent that
always shows its sign. -/
def scientific (digits : List Char) (exponent : Int) : List Char :=
  let sign := if exponent < 0 then '-' else '+'
  let marked := 'e' :: sign :: Nat.toDigits 10 exponent.natAbs
  match digits with
  | [] => marked
  | [first] => first :: marked
  | first :: others => first :: '.' :: others ++ marked

/-- The text of a positive decimal. -/
def text (style : DecimalStyle) (x : Decimal) : List Char :=
  let exponent := x.leadingExponent
  if style.leastPlain ≤ exponent ∧ exponent ≤ style.greatestPlain then
    plain x.digits exponent
  else
    scientific x.digits exponent

end Decimal

end Provenance
