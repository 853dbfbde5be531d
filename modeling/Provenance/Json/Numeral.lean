import Provenance.Json.Value

/-!
# Numerals and their values

A numeral is what the digits of a JSON number spell, without the choice between
`e` and `E` or a written plus sign.  Its value is found with one significand of
sixty-four bits and a power of ten:

* digits are taken into the significand while it stays below `2^64`; the digits
  of the whole part that no longer fit count towards the power of ten, those of
  the fraction are dropped;
* a numeral without fraction, exponent and dropped digits is an integer, unless
  it is a negative zero or lies below `-2^63`;
* any other numeral is the nearest double of the significand, multiplied or
  divided by a power of ten that is itself a double.  This rounds up to three
  times, so the result need not be the double nearest to the numeral.
-/

namespace Provenance.Json

/-- The exponent of a numeral. -/
structure Exponent where
  negative : Bool
  digits : List Nat
  deriving DecidableEq, Repr

/-- A numeral: sign, digits of the whole part, digits behind the point (none
when there is no point), and exponent. -/
structure Numeral where
  negative : Bool
  whole : List Nat
  fraction : List Nat
  exponent : Option Exponent
  deriving DecidableEq, Repr

namespace Numeral

/-- A numeral too large for a finite double.  The decision can fall within the
digits of the exponent, `unread` digits before their end. -/
structure OutOfRange where
  unread : Nat
  deriving DecidableEq, Repr

/-- Take leading digits into a number while it stays at most `limit`; the
result is the number and the digits not taken. -/
def absorb (limit : Nat) : Nat → List Nat → Nat × List Nat
  | taken, [] => (taken, [])
  | taken, digit :: digits =>
      if taken * 10 + digit ≤ limit then absorb limit (taken * 10 + digit) digits
      else (taken, digit :: digits)

/-- The greatest significand. -/
def significandLimit : Nat := 0xFFFFFFFFFFFFFFFF

/-- The greatest exponent that is read. -/
def exponentLimit : Nat := 0x7FFFFFFF

/-- The greatest power of ten that is a finite double. -/
def greatestPower : Nat := 308

/-- A significand times a power of ten. -/
def scaleUp (significand : Binary64) (power : Nat) : Option Binary64 :=
  if power ≤ greatestPower then do significand.times? (← Binary64.powerOfTen? power)
  else if significand.isZero then some significand
  else none

/-- A significand divided by a power of ten, in two steps when the power is no
double.  Two steps of `10^308` leave nothing of a significand below `2^64`. -/
def scaleDown (significand : Binary64) (power : Nat) : Option Binary64 :=
  if power ≤ greatestPower then do significand.over? (← Binary64.powerOfTen? power)
  else if power ≤ 2 * greatestPower then do
    let reduced ← significand.over? (← Binary64.powerOfTen? greatestPower)
    reduced.over? (← Binary64.powerOfTen? (power - greatestPower))
  else some .zero

/-- The double for a significand and a power of ten of either sign. -/
def scaled? (significand : Nat) (power : Int) : Option Binary64 := do
  let exact ← Binary64.ofNat? significand
  if 0 ≤ power then scaleUp exact power.toNat else scaleDown exact (-power).toNat

/-- The digits of a numeral as one number. -/
structure Significand where
  value : Nat
  /-- The power of ten that the last digit taken counts, before the exponent. -/
  power : Int
  /-- All digits of the whole part were taken. -/
  wholeFits : Bool
  deriving DecidableEq, Repr

/-- Take the digits of the whole part and then those of the fraction. -/
def significand (numeral : Numeral) : Significand :=
  let (whole, dropped) := absorb significandLimit 0 numeral.whole
  let (value, ignored) := absorb significandLimit whole numeral.fraction
  { value
    power := (dropped.length : Int) - (numeral.fraction.length - ignored.length : Nat)
    wholeFits := dropped.isEmpty }

/-- The signed integer of a significand, unless it needs a double: a negative
zero, or a number below `-2^63`. -/
def integer? (negative : Bool) (significand : Nat) : Option Number :=
  if negative then
    if h : 0 < significand ∧ significand ≤ 0x8000000000000000 then
      some (.integer (-(significand : Int)) (by omega))
    else none
  else if h : significand < 0x10000000000000000 then some (.ofNat significand h)
  else none

/-- The double of a numeral. -/
def double (numeral : Numeral) : Except OutOfRange Binary64 :=
  let significand := numeral.significand
  let finish (power : Int) : Except OutOfRange Binary64 :=
    match scaled? significand.value power with
    | some value => .ok (value.withSign numeral.negative)
    | none => .error ⟨0⟩
  match numeral.exponent with
  | none => finish significand.power
  | some exponent =>
      match absorb exponentLimit 0 exponent.digits with
      | (size, []) =>
          finish (if exponent.negative then significand.power - size
            else significand.power + size)
      | (_, _ :: unread) =>
          if significand.value ≠ 0 ∧ exponent.negative = false then .error ⟨unread.length⟩
          else .ok (Binary64.zero.withSign numeral.negative)

/-- The number that a numeral stands for. -/
def number (numeral : Numeral) : Except OutOfRange Number :=
  let significand := numeral.significand
  let integer :=
    if significand.wholeFits && numeral.fraction.isEmpty && numeral.exponent.isNone then
      integer? numeral.negative significand.value
    else none
  match integer with
  | some value => .ok value
  | none => numeral.double.map .double

end Numeral

end Provenance.Json
