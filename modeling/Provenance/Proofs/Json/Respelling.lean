import Mathlib
import Provenance.Proofs.Json.Reader.Value
import Provenance.Proofs.Json.Record

/-!
# Changes of spelling

A text may be spelled in another way without a change of its value: members of an
object with distinct keys in another order, other blanks between the tokens,
another spelling of a character of a string or of a key, and a member left out
that is overridden by a later one.

`Spelling.Respelled` is one such change at one place, at any depth.  A change
keeps the value (`Respelled.value?_eq`), and so do all changes in a row, on the
bytes of texts (`ofBytes_eq_ok_of_respellings`).
-/

namespace Provenance.Json

/-- Another spelling of one character. -/
inductive TextSpelling.Respelled : TextSpelling → TextSpelling → Prop
  | character (before after : TextSpelling) {char other : CharSpelling}
      (same : char.char = other.char) :
      Respelled (before ++ char :: after) (before ++ other :: after)

/-- The text of the key of a member. -/
def Keyed.text {α : Type} (member : Keyed α) : String :=
  TextSpelling.text member.key

/-- A change of spelling at one place. -/
inductive Spelling.Respelled : Spelling → Spelling → Prop
  /-- Another spelling of a character of a string. -/
  | string {text other : TextSpelling} (respelled : text.Respelled other) :
      Respelled (.string text) (.string other)
  /-- A change within an item of an array. -/
  | item (before after : List (Spaced Spelling)) (front back closing : List Blank)
      {content other : Spelling} (respelled : content.Respelled other) :
      Respelled (.array (before ++ ⟨front, content, back⟩ :: after) closing)
        (.array (before ++ ⟨front, other, back⟩ :: after) closing)
  /-- Other blanks around an item of an array. -/
  | itemBlanks (before after : List (Spaced Spelling)) (content : Spelling)
      (front back otherFront otherBack closing : List Blank) :
      Respelled (.array (before ++ ⟨front, content, back⟩ :: after) closing)
        (.array (before ++ ⟨otherFront, content, otherBack⟩ :: after) closing)
  /-- Other blanks in front of the closing bracket of an array. -/
  | arrayBlanks (items : List (Spaced Spelling)) (closing other : List Blank) :
      Respelled (.array items closing) (.array items other)
  /-- A change within the value of a member. -/
  | member (before after : List (Spaced (Keyed Spelling))) (front back closing : List Blank)
      (key : TextSpelling) (beforeColon behindColon : List Blank) {content other : Spelling}
      (respelled : content.Respelled other) :
      Respelled
        (.object (before ++ ⟨front, ⟨key, beforeColon, behindColon, content⟩, back⟩ :: after)
          closing)
        (.object (before ++ ⟨front, ⟨key, beforeColon, behindColon, other⟩, back⟩ :: after)
          closing)
  /-- Another spelling of a character of a key. -/
  | key (before after : List (Spaced (Keyed Spelling))) (front back closing : List Blank)
      {key other : TextSpelling} (respelled : key.Respelled other)
      (beforeColon behindColon : List Blank) (content : Spelling) :
      Respelled
        (.object (before ++ ⟨front, ⟨key, beforeColon, behindColon, content⟩, back⟩ :: after)
          closing)
        (.object (before ++ ⟨front, ⟨other, beforeColon, behindColon, content⟩, back⟩ :: after)
          closing)
  /-- Other blanks around a member of an object and around its colon. -/
  | memberBlanks (before after : List (Spaced (Keyed Spelling))) (key : TextSpelling)
      (content : Spelling) (front beforeColon behindColon back : List Blank)
      (otherFront otherBeforeColon otherBehindColon otherBack closing : List Blank) :
      Respelled
        (.object (before ++ ⟨front, ⟨key, beforeColon, behindColon, content⟩, back⟩ :: after)
          closing)
        (.object (before ++
          ⟨otherFront, ⟨key, otherBeforeColon, otherBehindColon, content⟩, otherBack⟩ :: after)
          closing)
  /-- Other blanks in front of the closing brace of an object. -/
  | objectBlanks (members : List (Spaced (Keyed Spelling))) (closing other : List Blank) :
      Respelled (.object members closing) (.object members other)
  /-- Another order of members with distinct keys. -/
  | permuted {members others : List (Spaced (Keyed Spelling))} (perm : members.Perm others)
      (distinct : (members.map (·.content.text)).Nodup) (closing : List Blank) :
      Respelled (.object members closing) (.object others closing)
  /-- One member less, whose key comes again. -/
  | overridden (before after : List (Spaced (Keyed Spelling))) {member : Spaced (Keyed Spelling)}
      (again : member.content.text ∈ after.map (·.content.text)) (closing : List Blank) :
      Respelled (.object (before ++ member :: after) closing) (.object (before ++ after) closing)

/-- A change of the spelling of a whole text: within its value, or other blanks
around it. -/
inductive WholeText.Respelled : WholeText → WholeText → Prop
  | content (before behind : List Blank) {content other : Spelling}
      (respelled : content.Respelled other) :
      Respelled ⟨before, content, behind⟩ ⟨before, other, behind⟩
  | blanks (content : Spelling) (before behind otherBefore otherBehind : List Blank) :
      Respelled ⟨before, content, behind⟩ ⟨otherBefore, content, otherBehind⟩

/-- The first bytes are a spelled text, and the second ones that text after one
change of spelling. -/
def RespelledBytes (bytes other : List UInt8) : Prop :=
  ∃ text otherText : WholeText, WholeText.bytes text = bytes ∧ WholeText.bytes otherText = other ∧
    text.Respelled otherText

/-! ## What a change keeps -/

theorem TextSpelling.Respelled.text_eq {text other : TextSpelling}
    (respelled : text.Respelled other) : TextSpelling.text text = TextSpelling.text other := by
  obtain ⟨before, after, same⟩ := respelled
  simp only [TextSpelling.text, List.map_append, List.map_cons, same]

section Meaning

variable {α β : Type} {meaning : α → Option β}

/-- The meaning of a list around one of its elements. -/
theorem mapM_append_cons_eq_some_iff {before after : List α} {item : α} {values : List β} :
    (before ++ item :: after).mapM meaning = some values ↔
      ∃ first value last, before.mapM meaning = some first ∧ meaning item = some value ∧
        after.mapM meaning = some last ∧ values = first ++ value :: last := by
  induction before generalizing values with
  | nil =>
      rw [List.nil_append, mapM_cons_eq_some_iff]
      constructor
      · rintro ⟨value, last, isValue, isLast, rfl⟩
        exact ⟨[], value, last, rfl, isValue, isLast, rfl⟩
      · rintro ⟨first, value, last, ⟨⟩, isValue, isLast, rfl⟩
        exact ⟨value, last, isValue, isLast, rfl⟩
  | cons other before ih =>
      simp only [List.cons_append, mapM_cons_eq_some_iff, ih]
      constructor
      · rintro ⟨front, _, isFront, ⟨first, value, last, isFirst, isValue, isLast, rfl⟩, rfl⟩
        exact ⟨front :: first, value, last, ⟨front, first, isFront, isFirst, rfl⟩, isValue,
          isLast, rfl⟩
      · rintro ⟨_, value, last, ⟨front, first, isFront, isFirst, rfl⟩, isValue, isLast, rfl⟩
        exact ⟨front, _, isFront, ⟨first, value, last, isFirst, isValue, isLast, rfl⟩, rfl⟩

/-- Nothing changes with an element of the same meaning. -/
theorem mapM_replace {before after : List α} {item other : α} {values : List β}
    (same : ∀ value, meaning item = some value → meaning other = some value)
    (means : (before ++ item :: after).mapM meaning = some values) :
    (before ++ other :: after).mapM meaning = some values := by
  obtain ⟨first, value, last, isFirst, isValue, isLast, rfl⟩ :=
    mapM_append_cons_eq_some_iff.mp means
  exact mapM_append_cons_eq_some_iff.mpr
    ⟨first, value, last, isFirst, same value isValue, isLast, rfl⟩

/-- In another order the same values are meant. -/
theorem exists_mapM_perm {items others : List α} (perm : items.Perm others) {values : List β}
    (means : items.mapM meaning = some values) :
    ∃ otherValues, others.mapM meaning = some otherValues ∧ values.Perm otherValues := by
  induction perm generalizing values with
  | nil => exact ⟨values, means, .refl values⟩
  | cons item perm ih =>
      obtain ⟨value, last, isValue, isLast, rfl⟩ := mapM_cons_eq_some_iff.mp means
      obtain ⟨otherLast, isOther, lastPerm⟩ := ih isLast
      exact ⟨value :: otherLast,
        mapM_cons_eq_some_iff.mpr ⟨value, otherLast, isValue, isOther, rfl⟩, lastPerm.cons value⟩
  | swap item other items =>
      obtain ⟨first, _, isFirst, others, rfl⟩ := mapM_cons_eq_some_iff.mp means
      obtain ⟨second, last, isSecond, isLast, rfl⟩ := mapM_cons_eq_some_iff.mp others
      refine ⟨second :: first :: last, ?_, .swap second first last⟩
      exact mapM_cons_eq_some_iff.mpr ⟨second, _, isSecond,
        mapM_cons_eq_some_iff.mpr ⟨first, last, isFirst, isLast, rfl⟩, rfl⟩
  | trans first second ih ih' =>
      obtain ⟨values', means', perm⟩ := ih means
      obtain ⟨values'', means'', perm'⟩ := ih' means'
      exact ⟨values'', means'', perm.trans perm'⟩

end Meaning

/-- The keys of the members that are meant are the keys that are spelled. -/
theorem keys_of_members {meaning : Spelling → Option Value}
    {members : List (Spaced (Keyed Spelling))} {found : List (String × Value)}
    (means : (members.mapM fun member => member.content.member? meaning) = some found) :
    found.map Prod.fst = members.map (·.content.text) := by
  induction members generalizing found with
  | nil =>
      cases means
      rfl
  | cons member members ih =>
      obtain ⟨first, others, isFirst, isOthers, rfl⟩ := mapM_cons_eq_some_iff.mp means
      obtain ⟨value, -, rfl⟩ := Option.map_eq_some_iff.mp isFirst
      rw [List.map_cons, List.map_cons, ih isOthers]
      rfl

namespace Spelling

/-- A change of spelling keeps the value. -/
theorem Respelled.value?_eq {spelling other : Spelling} (respelled : spelling.Respelled other)
    {levels : Nat} {value : Value} (means : spelling.value? levels = some value) :
    other.value? levels = some value := by
  induction respelled generalizing levels value with
  | string respelled =>
      rw [value?] at means ⊢
      rw [← respelled.text_eq]
      exact means
  | item before after front back closing respelled ih =>
      obtain ⟨inner, values, rfl, mapped, rfl⟩ := value?_array_eq_some_iff.mp means
      exact value?_array_eq_some_iff.mpr
        ⟨inner, values, rfl, mapM_replace (fun _ means => ih means) mapped, rfl⟩
  | itemBlanks before after content front back otherFront otherBack closing =>
      obtain ⟨inner, values, rfl, mapped, rfl⟩ := value?_array_eq_some_iff.mp means
      refine value?_array_eq_some_iff.mpr ⟨inner, values, rfl, mapM_replace ?_ mapped, rfl⟩
      exact fun _ means => means
  | arrayBlanks items closing other =>
      exact value?_array_eq_some_iff.mpr (value?_array_eq_some_iff.mp means)
  | member before after front back closing key beforeColon behindColon respelled ih =>
      obtain ⟨inner, found, rfl, mapped, rfl⟩ := value?_object_eq_some_iff.mp means
      refine value?_object_eq_some_iff.mpr ⟨inner, found, rfl, mapM_replace ?_ mapped, rfl⟩
      intro member isMember
      obtain ⟨value, means, rfl⟩ := Option.map_eq_some_iff.mp isMember
      exact congrArg (Option.map _) (ih means)
  | key before after front back closing respelled beforeColon behindColon content =>
      obtain ⟨inner, found, rfl, mapped, rfl⟩ := value?_object_eq_some_iff.mp means
      refine value?_object_eq_some_iff.mpr ⟨inner, found, rfl, mapM_replace ?_ mapped, rfl⟩
      intro member isMember
      rw [Keyed.member?, ← respelled.text_eq]
      exact isMember
  | memberBlanks before after key content =>
      obtain ⟨inner, found, rfl, mapped, rfl⟩ := value?_object_eq_some_iff.mp means
      refine value?_object_eq_some_iff.mpr ⟨inner, found, rfl, mapM_replace ?_ mapped, rfl⟩
      exact fun _ means => means
  | objectBlanks members closing other =>
      exact value?_object_eq_some_iff.mpr (value?_object_eq_some_iff.mp means)
  | permuted perm distinct closing =>
      obtain ⟨inner, found, rfl, mapped, rfl⟩ := value?_object_eq_some_iff.mp means
      obtain ⟨others, otherMeans, foundPerm⟩ := exists_mapM_perm perm mapped
      refine value?_object_eq_some_iff.mpr ⟨inner, others, rfl, otherMeans, ?_⟩
      rw [Record.ofMembers_eq_of_perm foundPerm ((keys_of_members mapped).symm ▸ distinct)]
  | overridden before after again closing =>
      obtain ⟨inner, found, rfl, mapped, rfl⟩ := value?_object_eq_some_iff.mp means
      obtain ⟨first, member, last, isFirst, isMember, isLast, rfl⟩ :=
        mapM_append_cons_eq_some_iff.mp mapped
      obtain ⟨value, -, rfl⟩ := Option.map_eq_some_iff.mp isMember
      refine value?_object_eq_some_iff.mpr ⟨inner, first ++ last, rfl, ?_, ?_⟩
      · rw [List.mapM_append, isFirst, isLast]
        rfl
      · rw [Record.ofMembers_overridden first ((keys_of_members isLast).symm ▸ again)]

end Spelling

/-- A change of the spelling of a whole text keeps its value. -/
theorem WholeText.Respelled.value?_eq {text other : WholeText} (respelled : text.Respelled other)
    {levels : Nat} {value : Value} (means : text.content.value? levels = some value) :
    other.content.value? levels = some value := by
  cases respelled with
  | content before behind respelled => exact respelled.value?_eq means
  | blanks content before behind otherBefore otherBehind => exact means

/-- A text is read as the same value after a change of spelling. -/
theorem RespelledBytes.ofBytes_eq_ok {bytes other : List UInt8}
    (respelled : RespelledBytes bytes other) {value : Value}
    (read : Value.ofBytes bytes = .ok value) : Value.ofBytes other = .ok value := by
  obtain ⟨text, otherText, rfl, rfl, respelled⟩ := respelled
  rw [← toOption_eq_some_iff, Value.toOption_ofBytes] at read ⊢
  exact respelled.value?_eq read

/-- A text is read as the same value after any number of changes of spelling. -/
theorem ofBytes_eq_ok_of_respellings {bytes other : List UInt8}
    (respellings : Relation.ReflTransGen RespelledBytes bytes other) {value : Value}
    (read : Value.ofBytes bytes = .ok value) : Value.ofBytes other = .ok value := by
  induction respellings with
  | refl => exact read
  | tail _ respelled ih => exact respelled.ofBytes_eq_ok ih

end Provenance.Json
