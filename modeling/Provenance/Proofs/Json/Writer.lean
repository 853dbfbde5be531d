import Mathlib
import Provenance.Proofs.Json.Same
import Provenance.Proofs.Json.Token

/-!
# The compact text determines the value

The compact texts of values cancel (`write_cancels`): what stands behind the text
of a value can be told from it, provided that it does not go on with a character
of numerals.  So different values have different compact texts
(`write_compact_injective`), and two values have equal canonical texts, or equal
canonical bytes, exactly when they are the same up to the order of object
members (`canonicalText_eq_iff`, `canonicalBytes_eq_iff`).
-/

namespace Provenance.Text.Utf8

/-- Different texts have different bytes. -/
theorem encode_injective : Function.Injective encode := by
  intro left right equal
  have sameBytes : left.utf8Encode = right.utf8Encode := congrArg List.toByteArray equal
  rw [← String.toByteArray_ofList, ← String.toByteArray_ofList] at sameBytes
  exact String.ofList_injective (String.toByteArray_inj.mp sameBytes)

/-- The bytes of the characters of a string are the bytes of the string. -/
theorem encode_toList (text : String) : encode text.toList = text.toByteArray.data.toList := by
  rw [← String.utf8Encode_toList]
  exact List.toList_data_toByteArray.symm

theorem encode_infix {part text : List Char} (isInfix : part <:+: text) :
    encode part <:+: encode text := by
  rcases isInfix with ⟨before, behind, rfl⟩
  rw [encode_append, encode_append]
  exact List.infix_append _ _ _

end Provenance.Text.Utf8

namespace Provenance.Json

/-- What the first character of a text tells about the value. -/
inductive Kind where
  | null
  | bool (truth : Bool)
  | number
  | string
  | array
  | object

/-- The kind of the values whose texts begin with a character. -/
def Kind.ofChar? (char : Char) : Option Kind :=
  if isNumeralChar char then some number
  else
    match char with
    | 'n' => some null
    | 't' => some (bool true)
    | 'f' => some (bool false)
    | '"' => some string
    | '[' => some array
    | '\x7b' => some object
    | _ => none

namespace Value

/-- The kind of a value. -/
def kind : Value → Kind
  | null => .null
  | bool truth => .bool truth
  | number _ => .number
  | string _ => .string
  | array _ => .array
  | object _ => .object

/-- The compact text of a member. -/
def writeMember (member : String × Value) : List Char :=
  quoted member.1 ++ ':' :: member.2.write .compact

private theorem writeItems_compact (items : List Value) :
    writeItems .compact items = items.flatMap (',' :: write .compact ·) := by
  induction items with
  | nil => rfl
  | cons item items ih => simp [writeItems, Layout.gap, ih]

private theorem writeMembers_compact (members : Record) :
    writeMembers .compact members = members.flatMap (',' :: writeMember ·) := by
  induction members with
  | nil => rfl
  | cons member members ih =>
      rcases member with ⟨key, value⟩
      simp [writeMembers, writeMember, Layout.gap, Layout.colon, ih]

theorem write_array (items : List Value) (rest : List Char) :
    (array items).write .compact ++ rest =
      '[' :: (separated (write .compact) items ++ ']' :: rest) := by
  cases items with
  | nil => rfl
  | cons item items =>
      simp [write, separated, Layout.inner, Layout.gap, writeItems_compact]

theorem write_object (members : Record) (rest : List Char) :
    (object members).write .compact ++ rest =
      '\x7b' :: (separated writeMember members ++ '\x7d' :: rest) := by
  cases members with
  | nil => rfl
  | cons member members =>
      rcases member with ⟨key, value⟩
      simp [write, separated, writeMember, Layout.inner, Layout.gap, Layout.colon,
        writeMembers_compact]

/-- The first character of a text tells the kind of the value. -/
theorem ofChar?_head (value : Value) :
    ∃ first text, value.write .compact = first :: text ∧
      Kind.ofChar? first = some value.kind := by
  cases value with
  | null => exact ⟨_, _, rfl, rfl⟩
  | bool truth =>
      cases truth with
      | false => exact ⟨_, _, rfl, rfl⟩
      | true => exact ⟨_, _, rfl, rfl⟩
  | number number =>
      obtain ⟨first, text, isText⟩ := List.exists_cons_of_ne_nil number.text_ne_nil
      have isNumeral : isNumeralChar first = true :=
        List.all_eq_true.mp number.all_isNumeralChar_text first (by simp [isText])
      exact ⟨first, text, isText, if_pos isNumeral⟩
  | string text => exact ⟨_, _, rfl, rfl⟩
  | array items =>
      have opened := write_array items []
      rw [List.append_nil] at opened
      exact ⟨_, _, opened, rfl⟩
  | object members =>
      have opened := write_object members []
      rw [List.append_nil] at opened
      exact ⟨_, _, opened, rfl⟩

/-- Values whose texts begin alike are of one kind. -/
theorem kind_eq {value otherValue : Value} {rest other : List Char}
    (equal : value.write .compact ++ rest = otherValue.write .compact ++ other) :
    value.kind = otherValue.kind := by
  obtain ⟨first, text, isText, isKind⟩ := value.ofChar?_head
  obtain ⟨otherFirst, otherText, isOtherText, isOtherKind⟩ := otherValue.ofChar?_head
  rw [isText, isOtherText] at equal
  rw [← Option.some_inj, ← isKind, ← isOtherKind, (List.cons.inj equal).1]

/-- No value begins with a character of no kind. -/
theorem write_append_ne {closing : Char} (noKind : Kind.ofChar? closing = none) (value : Value)
    (text rest : List Char) : value.write .compact ++ text ≠ closing :: rest := by
  intro equal
  obtain ⟨first, _, isText, isKind⟩ := value.ofChar?_head
  rw [isText] at equal
  rw [(List.cons.inj equal).1, noKind] at isKind
  contradiction

theorem writeMember_cancels {member : String × Value}
    (cancels : Cancels Delimited (write .compact) member.2) :
    Cancels Delimited writeMember member := by
  intro otherMember rest other restDelimited otherDelimited equal
  rw [writeMember, writeMember, List.append_assoc, List.append_assoc] at equal
  obtain ⟨sameKey, colonEqual⟩ := quoted_cancels _ _ _ _ trivial trivial equal
  obtain ⟨sameValue, sameRest⟩ :=
    cancels _ _ _ restDelimited otherDelimited (List.cons.inj colonEqual).2
  exact ⟨Prod.ext sameKey sameValue, sameRest⟩

/-- The compact texts of values cancel. -/
theorem write_cancels (value : Value) : Cancels Delimited (write .compact) value := by
  intro otherValue rest other restDelimited otherDelimited equal
  have sameKind := kind_eq equal
  induction value using inductionOn generalizing otherValue rest other with
  | null =>
      cases otherValue with
      | null => exact ⟨rfl, List.append_cancel_left equal⟩
      | _ => contradiction
  | bool truth =>
      cases otherValue with
      | bool otherTruth =>
          obtain rfl : truth = otherTruth := Kind.bool.inj sameKind
          exact ⟨rfl, List.append_cancel_left equal⟩
      | _ => contradiction
  | number number =>
      cases otherValue with
      | number otherNumber =>
          obtain ⟨rfl, sameRest⟩ :=
            number.text_cancels otherNumber rest other restDelimited otherDelimited equal
          exact ⟨rfl, sameRest⟩
      | _ => contradiction
  | string text =>
      cases otherValue with
      | string otherText =>
          obtain ⟨rfl, sameRest⟩ :=
            quoted_cancels text otherText rest other trivial trivial equal
          exact ⟨rfl, sameRest⟩
      | _ => contradiction
  | array items ih =>
      cases otherValue with
      | array others =>
          rw [write_array, write_array] at equal
          have cancels : ∀ item ∈ items, Cancels Delimited (write .compact) item :=
            fun item member next _ _ restFollows otherFollows itemEqual =>
              ih item member next _ _ restFollows otherFollows itemEqual (kind_eq itemEqual)
          obtain ⟨rfl, sameRest⟩ := separated_cancels cancels (by decide) (by decide)
            (write_append_ne rfl) (List.cons.inj equal).2
          exact ⟨rfl, sameRest⟩
      | _ => contradiction
  | object members ih =>
      cases otherValue with
      | object others =>
          rw [write_object, write_object] at equal
          have cancels : ∀ member ∈ members, Cancels Delimited writeMember member :=
            fun member isMember => writeMember_cancels
              fun next _ _ restFollows otherFollows valueEqual =>
                ih member isMember next _ _ restFollows otherFollows valueEqual
                  (kind_eq valueEqual)
          obtain ⟨rfl, sameRest⟩ := separated_cancels cancels (by decide) (by decide)
            (fun _ _ _ equal => absurd (List.cons.inj equal).1 (by decide))
            (List.cons.inj equal).2
          exact ⟨rfl, sameRest⟩
      | _ => contradiction

/-- Different values have different compact texts. -/
theorem write_compact_injective : Function.Injective (write .compact) := by
  intro value other equal
  have cancelled := value.write_cancels other [] [] delimited_nil delimited_nil
  rw [List.append_nil, List.append_nil] at cancelled
  exact (cancelled equal).1

/-! ## The canonical form -/

/-- Canonical texts are equal for the same values and for no others. -/
theorem canonicalText_eq_iff {value other : Value} :
    value.canonicalText = other.canonicalText ↔ Same value other := by
  rw [same_iff_sortKeys_eq]
  exact write_compact_injective.eq_iff

/-- Canonical bytes are equal for the same values and for no others. -/
theorem canonicalBytes_eq_iff {value other : Value} :
    value.canonicalBytes = other.canonicalBytes ↔ Same value other := by
  rw [← canonicalText_eq_iff]
  exact Text.Utf8.encode_injective.eq_iff

end Value

end Provenance.Json
