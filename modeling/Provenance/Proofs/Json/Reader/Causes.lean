import Mathlib
import Provenance.Proofs.Json.Reader.Basic
import Provenance.Json.Reader.Value

/-!
# Why reading fails

The causes of failure fall into two groups: those that concern the spelling of a text
and those that concern the shape that was asked for.  A value of any shape is welcome
where a document is read, so only causes of the first group arise there
(`Value.cause_of_ofBytes`).  These have fixed wordings, into which nothing of the text
is taken.
-/

namespace Provenance.Json

/-- A cause that concerns the spelling of a text, whatever shape was asked for. -/
def Cause.concernsSpelling : Cause → Bool
  | .unexpectedKind .. | .duplicateField .. | .missingField .. | .invalidLength .. => false
  | _ => true

namespace Reader

/-- If there is a failure, it concerns the spelling. -/
def FailsBySpelling {α : Type} (result : Except Failure α) : Prop :=
  ∀ failure, result = .error failure → failure.cause.concernsSpelling = true

namespace FailsBySpelling

variable {α β : Type}

theorem ok (value : α) : FailsBySpelling (.ok value) := by
  rintro failure ⟨⟩

theorem failHere {cause : Cause} (concerns : cause.concernsSpelling = true) (rest : List UInt8) :
    FailsBySpelling (failHere cause rest : Except Failure α) := by
  rintro failure ⟨⟩
  exact concerns

theorem failAhead {cause : Cause} (concerns : cause.concernsSpelling = true) (rest : List UInt8) :
    FailsBySpelling (failAhead cause rest : Except Failure α) := by
  rintro failure ⟨⟩
  exact concerns

theorem bind {result : Except Failure α} {next : α → Except Failure β}
    (first : FailsBySpelling result) (second : ∀ value, FailsBySpelling (next value)) :
    FailsBySpelling (result >>= next) := by
  intro failure failed
  cases result with
  | error found =>
      obtain rfl : found = failure := Except.error.inj failed
      exact first found rfl
  | ok value => exact second value failure failed

theorem map {reader : Reader α} {bytes : List UInt8} (fails : FailsBySpelling (reader bytes))
    (f : α → β) : FailsBySpelling (map f reader bytes) :=
  fails.bind fun _ => ok _

theorem ite {condition : Prop} [Decidable condition] {result other : Except Failure α}
    (first : FailsBySpelling result) (second : FailsBySpelling other) :
    FailsBySpelling (if condition then result else other) := by
  split
  · exact first
  · exact second

end FailsBySpelling

open FailsBySpelling

theorem failsBySpelling_word {α : Type} (value : α) (chars : List Char) (bytes : List UInt8) :
    FailsBySpelling (word value chars bytes) := by
  induction chars generalizing bytes with
  | nil => exact .ok _
  | cons char chars ih =>
      cases bytes with
      | nil => exact .failHere rfl _
      | cons byte bytes => exact .ite (ih bytes) (.failHere rfl _)

theorem failsBySpelling_hexUnit (bytes : List UInt8) : FailsBySpelling (hexUnit bytes) := by
  unfold hexUnit
  split
  · split
    · exact .ok _
    · exact .failHere rfl _
  · exact .failHere rfl _

theorem failsBySpelling_expectInEscape (char : Char) (bytes : List UInt8) :
    FailsBySpelling (expectInEscape char bytes) := by
  cases bytes with
  | nil => exact .failHere rfl _
  | cons byte bytes => exact .ite (.ok _) (.failHere rfl _)

theorem failsBySpelling_unicodeEscape (bytes : List UInt8) :
    FailsBySpelling (unicodeEscape bytes) := by
  refine (failsBySpelling_hexUnit bytes).bind fun (_, rest) => ?_
  refine .ite (.failHere rfl _) (.ite ?_ (.ok _))
  refine (failsBySpelling_expectInEscape _ rest).bind fun (_, rest) => ?_
  refine (failsBySpelling_expectInEscape _ rest).bind fun (_, rest) => ?_
  exact (failsBySpelling_hexUnit rest).bind fun _ => .ite (.ok _) (.failHere rfl _)

theorem failsBySpelling_escape (bytes : List UInt8) : FailsBySpelling (escape bytes) := by
  cases bytes with
  | nil => exact .failHere rfl _
  | cons byte rest =>
      rw [escape]
      split
      · exact .ok _
      · exact .ite (failsBySpelling_unicodeEscape rest) (.failHere rfl _)

theorem failsBySpelling_finishText (gathered bytes : List UInt8) :
    FailsBySpelling (finishText gathered bytes) := by
  rw [finishText]
  split
  · exact .ok _
  · rintro failure ⟨⟩
    rfl

theorem failsBySpelling_textFrom (clock gathered bytes : List UInt8) :
    FailsBySpelling (textFrom clock gathered bytes) := by
  induction clock generalizing gathered bytes with
  | nil => exact .failHere rfl _
  | cons tick clock ih =>
      cases bytes with
      | nil => exact .failHere rfl _
      | cons byte rest =>
          refine .ite (failsBySpelling_finishText gathered rest) (.ite ?_ ?_)
          · exact (failsBySpelling_escape rest).bind fun _ => ih _ _
          · exact .ite (.failHere rfl _) (ih _ _)

theorem failsBySpelling_firstDigit (bytes : List UInt8) :
    FailsBySpelling (firstDigit .endInValue bytes) := by
  cases bytes with
  | nil => exact .failHere rfl _
  | cons byte rest => exact .ite (.ok _) (.failHere rfl _)

theorem failsBySpelling_numeral (negative : Bool) (bytes : List UInt8) :
    FailsBySpelling (numeral .endInValue negative bytes) := by
  have whole (bytes : List UInt8) : FailsBySpelling (wholePart .endInValue bytes) :=
    (failsBySpelling_firstDigit bytes).bind fun _ =>
      .ite (.ite (.failAhead rfl _) (.ok _)) (.ok _)
  have fraction (bytes : List UInt8) : FailsBySpelling (fractionPart .endInValue bytes) := by
    cases bytes with
    | nil => exact .ok _
    | cons byte rest =>
        refine .ite ?_ (.ok _)
        split
        · exact .failAhead rfl _
        · exact .failAhead rfl _
        · exact .ok _
  have exponent (bytes : List UInt8) : FailsBySpelling (exponentPart .endInValue bytes) := by
    cases bytes with
    | nil => exact .ok _
    | cons byte rest =>
        exact .ite ((failsBySpelling_firstDigit _).bind fun _ => .ok _) (.ok _)
  exact (whole bytes).bind fun _ => (fraction _).bind fun _ => (exponent _).bind fun _ => .ok _

theorem failsBySpelling_number (negative : Bool) (bytes : List UInt8) :
    FailsBySpelling (number negative bytes) := by
  refine (failsBySpelling_numeral negative bytes).bind fun (numeral, rest) => ?_
  dsimp only
  cases numeral.number with
  | ok value => exact .ok _
  | error range =>
      rintro failure ⟨⟩
      rfl

/-- The causes that brackets bring concern the spelling. -/
def Brackets.ConcernSpelling (brackets : Brackets) : Prop :=
  brackets.atEnd.concernsSpelling = true ∧ brackets.expectedComma.concernsSpelling = true

theorem failsBySpelling_another {brackets : Brackets} (concern : brackets.ConcernSpelling)
    (isFirst : Bool) (bytes : List UInt8) : FailsBySpelling (another brackets isFirst bytes) := by
  rw [another]
  split
  · exact .failAhead concern.1 _
  · refine .ite (.ok _) (.ite (.ok _) (.ite ?_ (.failAhead concern.2 _)))
    exact .ite (.failAhead rfl _) (.ok _)

theorem failsBySpelling_gatherFrom {σ : Type} {brackets : Brackets}
    (concern : brackets.ConcernSpelling) {item : σ → Reader σ}
    (items : ∀ gathered bytes, FailsBySpelling (item gathered bytes)) (clock : List UInt8)
    (isFirst : Bool) (gathered : σ) (bytes : List UInt8) :
    FailsBySpelling (gatherFrom brackets item clock isFirst gathered bytes) := by
  induction clock generalizing isFirst gathered bytes with
  | nil => exact .failHere concern.1 _
  | cons tick clock ih =>
      refine (failsBySpelling_another concern isFirst bytes).bind fun (_, rest) => .ite ?_ (.ok _)
      exact (items gathered rest).bind fun _ => ih _ _ _

theorem failsBySpelling_separated {α : Type} {brackets : Brackets}
    (concern : brackets.ConcernSpelling) {item : Reader α}
    (items : ∀ bytes, FailsBySpelling (item bytes)) (bytes : List UInt8) :
    FailsBySpelling (separated brackets item bytes) :=
  (failsBySpelling_gatherFrom concern (fun _ bytes => (items bytes).map _) _ _ _ bytes).bind
    fun _ => .ok _

theorem failsBySpelling_colon (bytes : List UInt8) : FailsBySpelling (colon bytes) := by
  rw [colon]
  split
  · exact .failAhead rfl _
  · exact .ite (.ok _) (.failAhead rfl _)

theorem failsBySpelling_member {value : Reader Value}
    (values : ∀ bytes, FailsBySpelling (value bytes)) (bytes : List UInt8) :
    FailsBySpelling (member value bytes) := by
  cases bytes with
  | nil => exact .failAhead rfl _
  | cons byte rest =>
      refine .ite ?_ (.failAhead rfl _)
      refine (failsBySpelling_textFrom _ _ rest).bind fun (_, rest) => ?_
      exact (failsBySpelling_colon rest).bind fun (_, rest) => (values rest).map _

theorem failsBySpelling_scalar (bytes : List UInt8) : FailsBySpelling (scalar bytes) := by
  cases bytes with
  | nil => exact .failAhead rfl _
  | cons byte rest =>
      refine .ite (failsBySpelling_word _ _ rest) (.ite (failsBySpelling_word _ _ rest) ?_)
      refine .ite (failsBySpelling_word _ _ rest) (.ite ((failsBySpelling_number _ rest).map _) ?_)
      refine .ite ((failsBySpelling_number _ _).map _) (.ite ?_ (.failAhead rfl _))
      exact (failsBySpelling_textFrom _ _ rest : FailsBySpelling (text rest)).map _

theorem failsBySpelling_valueWithin {inner : Option (Reader Value)}
    (values : ∀ reader ∈ inner, ∀ bytes, FailsBySpelling (reader bytes)) (bytes : List UInt8) :
    FailsBySpelling (valueWithin inner bytes) := by
  rw [valueWithin]
  split
  · exact .failAhead rfl _
  · refine .ite ?_ (.ite ?_ (failsBySpelling_scalar _))
    · split
      · exact .failAhead rfl _
      · rename_i reader
        exact (failsBySpelling_separated ⟨rfl, rfl⟩ (values reader rfl) _).map _
    · split
      · exact .failAhead rfl _
      · rename_i reader
        have members := failsBySpelling_member (values reader rfl)
        exact (failsBySpelling_separated ⟨rfl, rfl⟩ members _).map _

theorem failsBySpelling_value (levels : Nat) (bytes : List UInt8) :
    FailsBySpelling (value levels bytes) := by
  induction levels generalizing bytes with
  | zero => exact failsBySpelling_valueWithin (by rintro reader ⟨⟩) bytes
  | succ levels ih =>
      apply failsBySpelling_valueWithin
      rintro reader ⟨⟩
      exact ih

end Reader

theorem exists_of_mapError {ε ε' α : Type} {change : ε → ε'} {result : Except ε α} {error : ε'}
    (failed : result.mapError change = .error error) :
    ∃ found, result = .error found ∧ change found = error := by
  cases result with
  | ok value => contradiction
  | error found => exact ⟨found, rfl, Except.error.inj failed⟩

theorem Reader.concernsSpelling_of_complete {α : Type} {reader : Reader α}
    (readers : ∀ bytes, FailsBySpelling (reader bytes)) {bytes : List UInt8} {error : ReadError}
    (refused : complete reader bytes = .error error) : error.cause.concernsSpelling = true := by
  rw [complete] at refused
  obtain ⟨failure, failed, rfl⟩ := exists_of_mapError refused
  refine FailsBySpelling.bind (readers bytes) ?_ failure failed
  rintro ⟨value, rest⟩
  dsimp only
  split
  · exact .ok _
  · exact .failAhead rfl _

/-- A text that is refused where a document is read is refused for its spelling. -/
theorem Value.cause_of_ofBytes {bytes : List UInt8} {error : ReadError}
    (refused : Value.ofBytes bytes = .error error) : error.cause.concernsSpelling = true :=
  Reader.concernsSpelling_of_complete (Reader.failsBySpelling_value nestingLimit) refused

end Provenance.Json
