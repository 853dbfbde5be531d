import Mathlib
import Provenance.Proofs.Json.Reader.Text

/-!
# Reading numbers, both ways

A spelled number is read as far as it is spelled if nothing behind it could
belong to a number, and whatever is read as a number is spelled.  Each part of a
number ends where the next byte is no digit, no point or no mark of an exponent,
so each has a condition of its own on what follows.
-/

namespace Provenance.Json

namespace Reader

variable {bytes rest : List UInt8} {atEnd : Cause}

/-- A text that does not begin with a digit. -/
def Undigited (bytes : List UInt8) : Prop :=
  ∀ byte ∈ bytes.head?, isDigit byte = false

theorem Delimited.undigited (delimited : Delimited rest) : Undigited rest :=
  fun byte isHead => (delimited byte isHead).1

theorem undigited_cons {byte : UInt8} (notDigit : isDigit byte = false) (rest : List UInt8) :
    Undigited (byte :: rest) := by
  rintro first ⟨⟩
  exact notDigit

/-- All digits at the front are read. -/
theorem digits_append (undigited : Undigited rest) (spelled : List (Fin 10)) :
    digits (spelled.map digitByte ++ rest) = (spelled.map Fin.val, rest) := by
  induction spelled with
  | nil =>
      cases rest with
      | nil => rfl
      | cons byte rest =>
          have stops : ¬ isDigit byte = true := by simp [undigited byte rfl]
          rw [digits, List.map_nil, List.nil_append, List.takeWhile_cons_of_neg stops,
            List.dropWhile_cons_of_neg stops]
          rfl
  | cons digit spelled ih =>
      have goesOn : isDigit (digitByte digit) = true := isDigit_iff.mpr ⟨digit, rfl⟩
      obtain ⟨isTaken, isLeft⟩ := Prod.mk.inj ih
      rw [digits, List.map_cons, List.cons_append, List.takeWhile_cons_of_pos goesOn,
        List.dropWhile_cons_of_pos goesOn, isLeft, List.map_cons, isTaken, digitValue_digitByte]
      rfl

/-- Whatever is read as digits is spelled. -/
theorem exists_digits (bytes : List UInt8) :
    ∃ (spelled : List (Fin 10)) (rest : List UInt8), bytes = spelled.map digitByte ++ rest ∧
      digits bytes = (spelled.map Fin.val, rest) ∧ Undigited rest := by
  induction bytes with
  | nil => exact ⟨[], [], rfl, rfl, by rintro byte ⟨⟩⟩
  | cons byte bytes ih =>
      cases isOne : isDigit byte with
      | false =>
          have undigited := undigited_cons isOne bytes
          exact ⟨[], byte :: bytes, rfl, digits_append undigited [], undigited⟩
      | true =>
          obtain ⟨digit, rfl⟩ := isDigit_iff.mp isOne
          obtain ⟨spelled, rest, rfl, -, undigited⟩ := ih
          exact ⟨digit :: spelled, rest, rfl, digits_append undigited (digit :: spelled), undigited⟩

theorem firstDigit_eq_ok_iff {value : Nat} :
    firstDigit atEnd bytes = .ok (value, rest) ↔
      ∃ digit : Fin 10, bytes = digitByte digit :: rest ∧ digit.val = value := by
  constructor
  · intro read
    unfold firstDigit at read
    split at read
    · contradiction
    split at read
    · rename_i isOne
      obtain ⟨digit, rfl⟩ := isDigit_iff.mp isOne
      obtain ⟨rfl, rfl⟩ := Prod.mk.inj (Except.ok.inj read)
      exact ⟨digit, rfl, (digitValue_digitByte digit).symm⟩
    · contradiction
  · rintro ⟨digit, rfl, rfl⟩
    rw [firstDigit, if_pos (isDigit_iff.mpr ⟨digit, rfl⟩), digitValue_digitByte]

theorem wholePart_spelled (undigited : Undigited rest) (spelled : WholeSpelling) :
    wholePart atEnd (spelled.digits.map digitByte ++ rest) =
      .ok (spelled.digits.map Fin.val, rest) := by
  cases spelled with
  | zero =>
      refine bind_eq_ok_iff.mpr ⟨(0, rest), firstDigit_eq_ok_iff.mpr ⟨0, rfl, rfl⟩, ?_⟩
      have stops : rest.head?.any isDigit = false := by
        cases rest with
        | nil => rfl
        | cons byte rest => exact undigited byte rfl
      simp only [if_true, stops, Bool.false_eq_true, if_false]
      rfl
  | positive first notZero others =>
      refine bind_eq_ok_iff.mpr ⟨(first.val, others.map digitByte ++ rest),
        firstDigit_eq_ok_iff.mpr ⟨first, rfl, rfl⟩, ?_⟩
      have notZero : first.val ≠ 0 := fun isZero => notZero (Fin.ext isZero)
      simp only [if_neg notZero, digits_append undigited others]
      rfl

theorem exists_of_wholePart {whole : List Nat}
    (read : wholePart atEnd bytes = .ok (whole, rest)) :
    ∃ spelled : WholeSpelling, bytes = spelled.digits.map digitByte ++ rest ∧
      spelled.digits.map Fin.val = whole := by
  obtain ⟨⟨value, next⟩, readFirst, followed⟩ := bind_eq_ok_iff.mp read
  obtain ⟨first, rfl, rfl⟩ := firstDigit_eq_ok_iff.mp readFirst
  dsimp only at followed
  split at followed
  · rename_i isZero
    obtain rfl : first = 0 := Fin.ext isZero
    split at followed
    · contradiction
    · obtain ⟨rfl, rfl⟩ := Prod.mk.inj (Except.ok.inj followed)
      exact ⟨.zero, rfl, rfl⟩
  · rename_i notZero
    obtain ⟨others, left, rfl, isRead, -⟩ := exists_digits next
    rw [isRead] at followed
    obtain ⟨rfl, rfl⟩ := Prod.mk.inj (Except.ok.inj followed)
    exact ⟨.positive first (fun isZero => notZero (congrArg Fin.val isZero)) others, rfl, rfl⟩

/-- The bytes of a fraction, the point included. -/
def fractionBytes (fraction : List (Fin 10)) : List UInt8 :=
  if fraction = [] then [] else ascii '.' :: fraction.map digitByte

theorem fractionPart_spelled (undigited : Undigited rest)
    (pointless : rest.head? ≠ some (ascii '.')) (fraction : List (Fin 10)) :
    fractionPart atEnd (fractionBytes fraction ++ rest) = .ok (fraction.map Fin.val, rest) := by
  cases fraction with
  | nil =>
      cases rest with
      | nil => rfl
      | cons byte rest => exact if_neg fun isPoint => pointless (congrArg some isPoint)
  | cons first others =>
      change fractionPart atEnd (ascii '.' :: ((first :: others).map digitByte ++ rest)) = _
      rw [fractionPart, if_pos rfl, digits_append undigited]
      rfl

theorem exists_of_fractionPart {fraction : List Nat}
    (read : fractionPart atEnd bytes = .ok (fraction, rest)) :
    ∃ spelled : List (Fin 10), bytes = fractionBytes spelled ++ rest ∧
      spelled.map Fin.val = fraction := by
  unfold fractionPart at read
  split at read
  · rename_i byte tail
    split at read
    · rename_i isPoint
      subst isPoint
      obtain ⟨spelled, left, rfl, isRead, -⟩ := exists_digits tail
      rw [isRead] at read
      cases spelled with
      | nil => cases left <;> contradiction
      | cons first others =>
          obtain ⟨rfl, rfl⟩ := Prod.mk.inj (Except.ok.inj read)
          exact ⟨first :: others, rfl, rfl⟩
    · obtain ⟨rfl, rfl⟩ := Prod.mk.inj (Except.ok.inj read)
      exact ⟨[], rfl, rfl⟩
  · obtain ⟨rfl, rfl⟩ := Prod.mk.inj (Except.ok.inj read)
    exact ⟨[], rfl, rfl⟩

theorem exponentSign_spelled (sign : ExponentSign) (digit : Fin 10) (rest : List UInt8) :
    exponentSign (sign.bytes ++ digitByte digit :: rest) =
      (sign == .minus, digitByte digit :: rest) := by
  cases sign with
  | absent =>
      have notSign : ∀ digit, digitByte digit ≠ ascii '-' ∧ digitByte digit ≠ ascii '+' := by
        decide
      rw [ExponentSign.bytes, List.nil_append, exponentSign, if_neg (notSign digit).1,
        if_neg (notSign digit).2]
      rfl
  | plus => rfl
  | minus => rfl

theorem exists_exponentSign (bytes : List UInt8) :
    ∃ (sign : ExponentSign) (rest : List UInt8), bytes = sign.bytes ++ rest ∧
      exponentSign bytes = (sign == .minus, rest) := by
  cases bytes with
  | nil => exact ⟨.absent, [], rfl, rfl⟩
  | cons byte rest =>
      by_cases isMinus : byte = ascii '-'
      · subst isMinus
        exact ⟨.minus, rest, rfl, rfl⟩
      by_cases isPlus : byte = ascii '+'
      · subst isPlus
        exact ⟨.plus, rest, rfl, rfl⟩
      · refine ⟨.absent, byte :: rest, rfl, ?_⟩
        rw [exponentSign, if_neg isMinus, if_neg isPlus]
        rfl

/-- The bytes of an exponent that may be missing. -/
def exponentBytes (exponent : Option ExponentSpelling) : List UInt8 :=
  (exponent.map ExponentSpelling.bytes).getD []

theorem exponentPart_spelled (undigited : Undigited rest)
    (markless : ∀ byte ∈ rest.head?, byte ≠ ascii 'e' ∧ byte ≠ ascii 'E')
    (exponent : Option ExponentSpelling) :
    exponentPart atEnd (exponentBytes exponent ++ rest) =
      .ok (exponent.map ExponentSpelling.exponent, rest) := by
  cases exponent with
  | none =>
      cases rest with
      | nil => rfl
      | cons byte rest => exact if_neg (not_or.mpr (markless byte rfl))
  | some spelled =>
      obtain ⟨uppercase, sign, first, others⟩ := spelled
      have isMark : ∀ uppercase, exponentMark uppercase = ascii 'e' ∨
          exponentMark uppercase = ascii 'E' := by
        decide
      rw [exponentBytes, Option.map_some, Option.getD_some, ExponentSpelling.bytes,
        List.cons_append, List.cons_append, List.append_assoc, exponentPart,
        if_pos (isMark uppercase), List.cons_append, exponentSign_spelled]
      refine bind_eq_ok_iff.mpr ⟨_, firstDigit_eq_ok_iff.mpr ⟨first, rfl, rfl⟩, ?_⟩
      simp only [digits_append undigited others]
      rfl

theorem exists_of_exponentPart {exponent : Option Exponent}
    (read : exponentPart atEnd bytes = .ok (exponent, rest)) :
    ∃ spelled : Option ExponentSpelling, bytes = exponentBytes spelled ++ rest ∧
      spelled.map ExponentSpelling.exponent = exponent := by
  unfold exponentPart at read
  split at read
  · rename_i byte tail
    split at read
    · rename_i isMark
      obtain ⟨uppercase, rfl⟩ : ∃ uppercase, byte = exponentMark uppercase := by
        rcases isMark with rfl | rfl
        · exact ⟨false, rfl⟩
        · exact ⟨true, rfl⟩
      obtain ⟨sign, next, rfl, isSign⟩ := exists_exponentSign tail
      rw [isSign] at read
      obtain ⟨⟨value, next⟩, readFirst, followed⟩ := bind_eq_ok_iff.mp read
      obtain ⟨first, rfl, rfl⟩ := firstDigit_eq_ok_iff.mp readFirst
      obtain ⟨others, left, rfl, isRead, -⟩ := exists_digits next
      dsimp only at followed
      rw [isRead] at followed
      obtain ⟨rfl, rfl⟩ := Prod.mk.inj (Except.ok.inj followed)
      refine ⟨some ⟨uppercase, sign, first, others⟩, ?_, rfl⟩
      simp [exponentBytes, ExponentSpelling.bytes]
    · obtain ⟨rfl, rfl⟩ := Prod.mk.inj (Except.ok.inj read)
      exact ⟨none, rfl, rfl⟩
  · obtain ⟨rfl, rfl⟩ := Prod.mk.inj (Except.ok.inj read)
    exact ⟨none, rfl, rfl⟩

/-! ## Numbers -/

theorem unsignedBytes_eq (spelled : NumeralSpelling) :
    spelled.unsignedBytes = spelled.whole.digits.map digitByte ++
      (fractionBytes spelled.fraction ++ exponentBytes spelled.exponent) := by
  rw [NumeralSpelling.unsignedBytes, List.append_assoc]
  rfl

/-- What follows a fraction is no digit and no point. -/
theorem stops_exponentBytes (delimited : Delimited rest) (exponent : Option ExponentSpelling) :
    Undigited (exponentBytes exponent ++ rest) ∧
      (exponentBytes exponent ++ rest).head? ≠ some (ascii '.') := by
  cases exponent with
  | none => exact ⟨delimited.undigited, fun isPoint => (delimited _ isPoint).2.1 rfl⟩
  | some spelled =>
      have mark : ∀ uppercase, isDigit (exponentMark uppercase) = false ∧
          exponentMark uppercase ≠ ascii '.' := by
        decide
      have marked := mark spelled.uppercase
      exact ⟨undigited_cons marked.1 _, fun isPoint => marked.2 (Option.some.inj isPoint)⟩

/-- What follows the whole part is no digit. -/
theorem undigited_fractionBytes (undigited : Undigited rest) (fraction : List (Fin 10)) :
    Undigited (fractionBytes fraction ++ rest) := by
  cases fraction with
  | nil => exact undigited
  | cons first others => exact undigited_cons (by decide) _

/-- A spelled number is read to its end. -/
theorem numeral_spelled (delimited : Delimited rest) (spelled : NumeralSpelling) :
    numeral atEnd spelled.negative (spelled.unsignedBytes ++ rest) =
      .ok (spelled.numeral, rest) := by
  have stops := stops_exponentBytes delimited spelled.exponent
  rw [unsignedBytes_eq]
  simp only [List.append_assoc]
  refine bind_eq_ok_iff.mpr ⟨_, wholePart_spelled
    (undigited_fractionBytes stops.1 spelled.fraction) spelled.whole, ?_⟩
  refine bind_eq_ok_iff.mpr ⟨_, fractionPart_spelled stops.1 stops.2 spelled.fraction, ?_⟩
  exact bind_eq_ok_iff.mpr ⟨_, exponentPart_spelled delimited.undigited
    (fun byte isHead => (delimited byte isHead).2.2) spelled.exponent, rfl⟩

/-- Whatever is read as a numeral is spelled. -/
theorem exists_of_numeral {negative : Bool} {found : Numeral}
    (read : numeral atEnd negative bytes = .ok (found, rest)) :
    ∃ spelled : NumeralSpelling, spelled.negative = negative ∧
      bytes = spelled.unsignedBytes ++ rest ∧ spelled.numeral = found := by
  obtain ⟨⟨whole, next⟩, readWhole, followed⟩ := bind_eq_ok_iff.mp read
  obtain ⟨⟨fraction, next⟩, readFraction, followed⟩ := bind_eq_ok_iff.mp followed
  obtain ⟨⟨exponent, next⟩, readExponent, same⟩ := bind_eq_ok_iff.mp followed
  obtain ⟨rfl, rfl⟩ := Prod.mk.inj (Except.ok.inj same)
  obtain ⟨whole, rfl, rfl⟩ := exists_of_wholePart readWhole
  obtain ⟨fraction, rfl, rfl⟩ := exists_of_fractionPart readFraction
  obtain ⟨exponent, rfl, rfl⟩ := exists_of_exponentPart readExponent
  refine ⟨⟨negative, whole, fraction, exponent⟩, rfl, ?_, rfl⟩
  rw [unsignedBytes_eq]
  simp only [List.append_assoc]

/-- A spelled number is read as its value, if that is in range. -/
theorem toOption_number (delimited : Delimited rest) (spelled : NumeralSpelling) :
    (number spelled.negative (spelled.unsignedBytes ++ rest)).toOption =
      spelled.numeral.number.toOption.map (·, rest) := by
  rw [number, numeral_spelled delimited]
  dsimp only [bind, Except.bind]
  cases spelled.numeral.number <;> rfl

/-- Whatever is read as a number is spelled. -/
theorem exists_of_number {negative : Bool} {found : Number}
    (read : number negative bytes = .ok (found, rest)) :
    ∃ spelled : NumeralSpelling, spelled.negative = negative ∧
      bytes = spelled.unsignedBytes ++ rest ∧ spelled.numeral.number = .ok found := by
  obtain ⟨⟨numeral, next⟩, readNumeral, followed⟩ := bind_eq_ok_iff.mp read
  obtain ⟨spelled, isSign, rfl, rfl⟩ := exists_of_numeral readNumeral
  dsimp only at followed
  split at followed
  · rename_i inRange
    obtain ⟨rfl, rfl⟩ := Prod.mk.inj (Except.ok.inj followed)
    exact ⟨spelled, isSign, rfl, inRange⟩
  · contradiction

end Reader

end Provenance.Json
