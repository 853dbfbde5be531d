import Mathlib
import Provenance.Json.Writer
import Provenance.Proofs.Binary64.Shortest

/-!
# Tokens cancel

A way of writing things *cancels* when the beginning of a text tells what was
written and where it ends.  Quoted strings cancel in front of anything, numerals
in front of whatever is no character of numerals, and lists with commas between
their items if the items do.
-/

namespace Provenance.Json

section Cancelling

variable {α : Type}

/-- Equal texts that begin with `write x` and with any other `write y`, and go on
in a permitted way, have `x = y` and go on alike. -/
def Cancels (Follows : List Char → Prop) (write : α → List Char) (x : α) : Prop :=
  ∀ y rest other, Follows rest → Follows other →
    write x ++ rest = write y ++ other → x = y ∧ rest = other

/-- Text in front of which a numeral ends. -/
def Delimited (text : List Char) : Prop :=
  ∀ char ∈ text.head?, isNumeralChar char = false

theorem Delimited.cons {char : Char} (notNumeral : isNumeralChar char = false)
    (text : List Char) : Delimited (char :: text) := by
  intro head isHead
  obtain rfl : char = head := by simpa using isHead
  exact notNumeral

theorem delimited_nil : Delimited [] := by
  intro char isHead
  contradiction

/-- Texts in a row, up to a character with which none of them begins, cancel if
each one does. -/
theorem flatMap_cancels {Follows : List Char → Prop} {write : α → List Char} {closing : Char}
    {items : List α} (cancels : ∀ item ∈ items, Cancels Follows write item)
    (follows : ∀ (items : List α) rest, Follows (items.flatMap write ++ closing :: rest))
    (notClosing : ∀ item text rest, write item ++ text ≠ closing :: rest)
    {others : List α} {rest other : List Char}
    (equal : items.flatMap write ++ closing :: rest = others.flatMap write ++ closing :: other) :
    items = others ∧ rest = other := by
  induction items generalizing others with
  | nil =>
      cases others with
      | nil => exact ⟨rfl, (List.cons.inj equal).2⟩
      | cons first others =>
          rw [@List.flatMap_cons _ _ first, List.append_assoc] at equal
          exact absurd equal.symm (notClosing _ _ _)
  | cons item items ih =>
      cases others with
      | nil =>
          rw [List.flatMap_cons, List.append_assoc] at equal
          exact absurd equal (notClosing _ _ _)
      | cons first others =>
          rw [List.flatMap_cons, List.flatMap_cons, List.append_assoc, List.append_assoc] at equal
          obtain ⟨rfl, restEqual⟩ := cancels item List.mem_cons_self first _ _
            (follows _ _) (follows _ _) equal
          obtain ⟨rfl, rfl⟩ :=
            ih (fun item member => cancels item (List.mem_cons_of_mem _ member)) restEqual
          exact ⟨rfl, rfl⟩

/-- Texts with commas between them. -/
def separated (write : α → List Char) : List α → List Char
  | [] => []
  | item :: items => write item ++ items.flatMap (',' :: write ·)

theorem separated_cons (write : α → List Char) (item : α) (items : List α) (rest : List Char) :
    separated write (item :: items) ++ rest =
      write item ++ (items.flatMap (',' :: write ·) ++ rest) :=
  List.append_assoc _ _ _

/-- Separated texts cancel if each one does, in front of a bracket with which
none of them begins. -/
theorem separated_cancels {write : α → List Char} {closing : Char} {items : List α}
    (cancels : ∀ item ∈ items, Cancels Delimited write item)
    (notNumeral : isNumeralChar closing = false) (notComma : closing ≠ ',')
    (notClosing : ∀ item text rest, write item ++ text ≠ closing :: rest)
    {others : List α} {rest other : List Char}
    (equal : separated write items ++ closing :: rest =
      separated write others ++ closing :: other) :
    items = others ∧ rest = other := by
  have follows : ∀ (items : List α) (rest : List Char),
      Delimited (items.flatMap (',' :: write ·) ++ closing :: rest) := by
    intro items rest
    cases items with
    | nil => exact .cons notNumeral _
    | cons item items => exact .cons (by decide) _
  cases items with
  | nil =>
      cases others with
      | nil => exact ⟨rfl, (List.cons.inj equal).2⟩
      | cons first others =>
          rw [separated_cons] at equal
          exact absurd equal.symm (notClosing _ _ _)
  | cons item items =>
      cases others with
      | nil =>
          rw [separated_cons] at equal
          exact absurd equal (notClosing _ _ _)
      | cons first others =>
          have commaCancels : ∀ next ∈ item :: items,
              Cancels Delimited (',' :: write ·) next := by
            intro next member other rest otherRest restFollows otherFollows equal
            exact cancels next member other rest otherRest restFollows otherFollows
              (List.cons.inj equal).2
          have equalBehindComma :
              (item :: items).flatMap (',' :: write ·) ++ closing :: rest =
                (first :: others).flatMap (',' :: write ·) ++ closing :: other :=
            congrArg (',' :: ·) equal
          apply flatMap_cancels commaCancels follows _ equalBehindComma
          intro item text rest equal
          exact notComma (List.cons.inj equal).1.symm

end Cancelling

/-! ## Strings -/

/-- The control character of a short escape; any other character stands for
itself. -/
def shortEscape (mark : Char) : Char :=
  match mark with
  | 'b' => '\x08'
  | 't' => '\t'
  | 'n' => '\n'
  | 'f' => '\x0c'
  | 'r' => '\r'
  | char => char

/-- The value of a lowercase hexadecimal digit. -/
def hexValue (char : Char) : Nat :=
  if char.isDigit then char.toNat - '0'.toNat else char.toNat - 'a'.toNat + 10

theorem hexValue_digitChar : ∀ n < 16, hexValue (Nat.digitChar n) = n := by
  decide

/-- The character that the beginning of an escaped text stands for, and the text
behind it. -/
def unescape : List Char → Option (Char × List Char)
  | '\\' :: 'u' :: '0' :: '0' :: high :: low :: rest =>
      some (Char.ofNat (16 * hexValue high + hexValue low), rest)
  | '\\' :: mark :: rest => some (shortEscape mark, rest)
  | char :: rest => some (char, rest)
  | [] => none

/-- An escaped character is read back. -/
theorem unescape_escapeChar (char : Char) (rest : List Char) :
    unescape (escapeChar char ++ rest) = some (char, rest) := by
  unfold escapeChar
  split
  · subst char; rfl
  split
  · subst char; rfl
  split
  · subst char; rfl
  split
  · subst char; rfl
  split
  · subst char; rfl
  split
  · subst char; rfl
  split
  · subst char; rfl
  split
  · rename_i control
    simp only [List.cons_append, List.nil_append, unescape]
    rw [hexValue_digitChar _ (by omega), hexValue_digitChar _ (by omega), Nat.div_add_mod,
      Char.ofNat_toNat]
  · rename_i notBackslash _ _ _ _ _ _
    simp [unescape, notBackslash]

/-- No escaped character begins with a quote. -/
theorem escapeChar_append_ne_quote (char : Char) (text rest : List Char) :
    escapeChar char ++ text ≠ '"' :: rest := by
  intro equal
  have read := unescape_escapeChar char text
  rw [equal] at read
  obtain rfl : '"' = char := (Prod.mk.inj (Option.some.inj read)).1
  exact absurd (List.cons.inj equal).1 (by decide)

theorem escapeChar_cancels (char : Char) : Cancels (fun _ => True) escapeChar char := by
  intro otherChar rest other _ _ equal
  have read := unescape_escapeChar char rest
  rw [equal, unescape_escapeChar] at read
  obtain ⟨sameChar, sameRest⟩ := Prod.mk.inj (Option.some.inj read)
  exact ⟨sameChar.symm, sameRest.symm⟩

theorem quoted_cancels (text : String) : Cancels (fun _ => True) quoted text := by
  intro otherText rest other _ _ equal
  simp only [quoted, List.cons_append, List.append_assoc, List.nil_append] at equal
  obtain ⟨sameChars, sameRest⟩ := flatMap_cancels (fun char _ => escapeChar_cancels char)
    (fun _ _ => trivial) escapeChar_append_ne_quote (List.cons.inj equal).2
  exact ⟨String.toList_inj.mp sameChars, sameRest⟩

theorem integerText_injective : Function.Injective integerText := by
  have digitsInjective : Function.Injective (Nat.toDigits 10) := by
    intro n m equal
    rw [← @Nat.ofDigitChars_ten_toDigits n, equal, Nat.ofDigitChars_ten_toDigits]
  intro x y equal
  unfold integerText at equal
  split at equal
  · split at equal
    · have sameSize := digitsInjective (List.cons.inj equal).2
      omega
    · exact absurd (congrArg List.head? equal).symm (allDigits_toDigits _).head?_ne_minus
  · split at equal
    · exact absurd (congrArg List.head? equal) (allDigits_toDigits _).head?_ne_minus
    · have sameSize := digitsInjective equal
      omega

theorem not_point_or_mark_mem_integerText (value : Int) :
    ¬ ('.' ∈ integerText value ∨ 'e' ∈ integerText value) := by
  have notInDigits : ∀ char ∈ Nat.toDigits 10 value.natAbs, char ≠ '.' ∧ char ≠ 'e' := by
    intro char member
    have isDigit := allDigits_toDigits _ char member
    constructor
    · rintro rfl
      contradiction
    · rintro rfl
      contradiction
  unfold integerText
  split
  · rintro (point | mark)
    · rcases List.mem_cons.mp point with isMinus | inDigits
      · exact absurd isMinus (by decide)
      · exact (notInDigits _ inDigits).1 rfl
    · rcases List.mem_cons.mp mark with isMinus | inDigits
      · exact absurd isMinus (by decide)
      · exact (notInDigits _ inDigits).2 rfl
  · rintro (point | mark)
    · exact (notInDigits _ point).1 rfl
    · exact (notInDigits _ mark).2 rfl

theorem all_isNumeralChar_integerText (value : Int) :
    (integerText value).all isNumeralChar = true := by
  have digits := (allDigits_toDigits value.natAbs).all_isNumeralChar
  unfold integerText
  split
  · rw [List.all_cons, digits]
    rfl
  · exact digits

namespace Number

/-- Numbers are told apart by their texts, integers from doubles too. -/
theorem text_injective : Function.Injective text := by
  intro left right equal
  cases left with
  | integer value bounds =>
      cases right with
      | integer other otherBounds =>
          obtain rfl : value = other := integerText_injective equal
          rfl
      | double other =>
          have marked := other.point_or_mark_mem_text doubleStyle
          rw [show other.text doubleStyle = integerText value from equal.symm] at marked
          exact absurd marked (not_point_or_mark_mem_integerText value)
  | double value =>
      cases right with
      | integer other otherBounds =>
          have marked := value.point_or_mark_mem_text doubleStyle
          rw [show value.text doubleStyle = integerText other from equal] at marked
          exact absurd marked (not_point_or_mark_mem_integerText other)
      | double other =>
          exact congrArg double (Binary64.text_injective doubleStyle equal)

theorem all_isNumeralChar_text (number : Number) : number.text.all isNumeralChar = true := by
  cases number with
  | integer value bounds => exact all_isNumeralChar_integerText value
  | double value => exact value.all_isNumeralChar_text doubleStyle

theorem text_ne_nil (number : Number) : number.text ≠ [] := by
  cases number with
  | integer value bounds =>
      simp only [text, integerText]
      split
      · exact List.cons_ne_nil _ _
      · exact Nat.toDigits_ne_nil
  | double value =>
      rcases value.point_or_mark_mem_text doubleStyle with point | mark
      · exact List.ne_nil_of_mem point
      · exact List.ne_nil_of_mem mark

/-- A text that begins with a number splits behind its numeral. -/
theorem takeWhile_text_append (number : Number) {rest : List Char} (delimited : Delimited rest) :
    (number.text ++ rest).takeWhile isNumeralChar = number.text := by
  rw [List.takeWhile_append_of_pos (List.all_eq_true.mp number.all_isNumeralChar_text)]
  cases rest with
  | nil => rw [List.takeWhile_nil, List.append_nil]
  | cons char rest =>
      have notNumeral : isNumeralChar char = false := delimited char rfl
      rw [List.takeWhile_cons_of_neg (by simp [notNumeral]), List.append_nil]

theorem text_cancels (number : Number) : Cancels Delimited text number := by
  intro otherNumber rest other restDelimited otherDelimited equal
  have sameText : number.text = otherNumber.text := by
    rw [← number.takeWhile_text_append restDelimited, equal,
      otherNumber.takeWhile_text_append otherDelimited]
  rw [sameText] at equal
  exact ⟨text_injective sameText, List.append_cancel_left equal⟩

end Number

end Provenance.Json
