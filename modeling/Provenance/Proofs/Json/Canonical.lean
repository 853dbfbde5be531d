import Mathlib
import Provenance.Proofs.Json.Reread
import Provenance.Proofs.Json.RoundTrip
import Provenance.Proofs.Json.Writer
import Provenance.Proofs.Text.Order

/-!
# The canonical form

A value whose objects have distinct keys may list their members in any order, at any
level; `Value.Reordered` relates it to the values that do so.  All of them have one
canonical form (`Value.Reordered.canonicalBytes_eq`), that of the one among them in
which the keys ascend (`Value.Reordered.eq_sortKeys`).

The canonical form is a spelling without blanks in which a character is escaped only if
it may not stand for itself (`Spelling.Compact`).  Keys ascend in the order of their
bytes, which is the order of their code points.
-/

namespace Provenance.Json

open Text.Utf8 (encode)

namespace Record

/-- Where keys are distinct, what is found does not depend on the order of members. -/
theorem get?_eq_of_perm {record other : Record} (moved : record.Perm other)
    (distinct : (record.map Prod.fst).Nodup) (key : String) :
    record.get? key = other.get? key := by
  have distinctToo : (other.map Prod.fst).Nodup := (moved.map Prod.fst).nodup_iff.mp distinct
  ext value
  rw [get?_eq_some_iff distinct, get?_eq_some_iff distinctToo]
  exact moved.mem_iff

/-- Insertion under a new key adds the member and moves none. -/
theorem insert_perm {key : String} {record : Record} (isNew : key ∉ record.map Prod.fst)
    (value : Value) : (insert key value record).Perm ((key, value) :: record) := by
  induction record with
  | nil => exact .refl _
  | cons member record ih =>
      obtain ⟨other, kept⟩ := member
      obtain ⟨different, notBehind⟩ := not_or.mp (mt List.mem_cons.mpr isNew)
      rw [insert, if_neg different]
      by_cases less : key < other
      · rw [if_pos less]
      · rw [if_neg less]
        exact ((ih notBehind).cons (other, kept)).trans (.swap _ _ _)

end Record

namespace Value

/-- A property of members that every object has, at any depth. -/
inductive Everywhere (holds : Record → Prop) : Value → Prop where
  | null : Everywhere holds null
  | bool (truth : Bool) : Everywhere holds (bool truth)
  | number (numeral : Number) : Everywhere holds (number numeral)
  | string (text : String) : Everywhere holds (string text)
  | array {items : List Value} (each : ∀ item ∈ items, Everywhere holds item) :
      Everywhere holds (array items)
  | object {members : Record} (here : holds members)
      (each : ∀ member ∈ members, Everywhere holds member.2) : Everywhere holds (object members)

/-- No object has two members with one key. -/
def DistinctKeys (value : Value) : Prop :=
  value.Everywhere fun members => (members.map Prod.fst).Nodup

/-- In every object the keys ascend strictly, compared byte by byte. -/
def KeysAscend (value : Value) : Prop :=
  value.Everywhere fun members => members.Pairwise fun first second =>
    encode first.1.toList < encode second.1.toList

theorem keysAscend_iff_ordered {value : Value} : value.KeysAscend ↔ value.Ordered := by
  have ascending_iff (members : Record) : (members.Pairwise fun first second =>
      encode first.1.toList < encode second.1.toList) ↔ members.Ascending := by
    simp only [Record.Ascending, Text.Utf8.encode_lt_encode_iff, String.lt_iff_toList_lt]
  constructor
  · intro ascend
    induction ascend with
    | null => exact .null
    | bool truth => exact .bool truth
    | number numeral => exact .number numeral
    | string text => exact .string text
    | array _ ih => exact .array ih
    | object here _ ih => exact .object ((ascending_iff _).mp here) ih
  · intro ordered
    induction ordered with
    | null => exact .null
    | bool truth => exact .bool truth
    | number numeral => exact .number numeral
    | string text => exact .string text
    | array _ ih => exact .array ih
    | object here _ ih => exact .object ((ascending_iff _).mpr here) ih

/-- The same tree with the members of objects in another order, at any depth.  The values
of an object are reordered first, each under its key, and then the members. -/
inductive Reordered : Value → Value → Prop where
  | null : Reordered null null
  | bool (truth : Bool) : Reordered (bool truth) (bool truth)
  | number (numeral : Number) : Reordered (number numeral) (number numeral)
  | string (text : String) : Reordered (string text) (string text)
  | array {items others : List Value} (each : List.Forall₂ Reordered items others) :
      Reordered (array items) (array others)
  | object {members between others : Record}
      (sameKeys : members.map Prod.fst = between.map Prod.fst)
      (each : List.Forall₂ Reordered (members.map Prod.snd) (between.map Prod.snd))
      (moved : between.Perm others) : Reordered (object members) (object others)

/-- What stands under each key of members with the same keys is related as the values are
in their order. -/
theorem rel_get?_of_forall₂ {related : Value → Value → Prop} {members others : Record}
    (sameKeys : members.map Prod.fst = others.map Prod.fst)
    (each : List.Forall₂ related (members.map Prod.snd) (others.map Prod.snd)) (key : String) :
    Option.Rel related (members.get? key) (others.get? key) := by
  induction members generalizing others with
  | nil =>
      obtain rfl := List.map_eq_nil_iff.mp sameKeys.symm
      exact .none
  | cons member members ih =>
      obtain ⟨other, rest, rfl, sameKey, sameRest⟩ := List.map_eq_cons_iff.mp sameKeys.symm
      obtain ⟨first, others⟩ := List.forall₂_cons.mp each
      obtain ⟨name, value⟩ := member
      obtain ⟨otherName, otherValue⟩ := other
      obtain rfl : otherName = name := sameKey
      rw [Record.get?_cons, Record.get?_cons]
      by_cases found : key = otherName
      · rw [if_pos found, if_pos found]
        exact .some first
      · rw [if_neg found, if_neg found]
        exact ih sameRest.symm others

/-- Reordered values are the same. -/
theorem Reordered.same {value other : Value} (reordered : Reordered value other)
    (distinct : value.DistinctKeys) : Same value other := by
  have forall₂ {values others : List Value} (each : List.Forall₂ Reordered values others)
      (same : ∀ value ∈ values, ∀ other, Reordered value other → Same value other) :
      List.Forall₂ Same values others :=
    ((List.forall₂_and_left _ _).mpr ⟨same, each⟩).imp fun _ other both => both.1 other both.2
  induction value using inductionOn generalizing other with
  | null => cases reordered; exact .null
  | bool truth => cases reordered; exact .bool truth
  | number numeral => cases reordered; exact .number numeral
  | string text => cases reordered; exact .string text
  | array items ih =>
      cases reordered with
      | array each =>
          cases distinct with
          | array distinctItems =>
              exact .array (forall₂ each fun item isItem _ moved =>
                ih item isItem moved (distinctItems item isItem))
  | object members ih =>
      cases reordered with
      | @object _ between others sameKeys each moved =>
          cases distinct with
          | object distinctHere distinctValues =>
              apply Same.object
              intro key
              rw [← Record.get?_eq_of_perm moved (sameKeys ▸ distinctHere)]
              apply rel_get?_of_forall₂ sameKeys
              apply forall₂ each
              intro value isValue other movedValue
              obtain ⟨member, isMember, rfl⟩ := List.mem_map.mp isValue
              exact ih member isMember movedValue (distinctValues member isMember)

/-- All orders of members have one canonical form. -/
theorem Reordered.canonicalBytes_eq {value other : Value} (reordered : Reordered value other)
    (distinct : value.DistinctKeys) : other.canonicalBytes = value.canonicalBytes :=
  (canonicalBytes_eq_iff.mpr (reordered.same distinct)).symm

theorem sortMembers_perm {members : Record} (distinct : (members.map Prod.fst).Nodup) :
    (members.map fun member => (member.1, member.2.sortKeys)).Perm (sortMembers members) := by
  induction members with
  | nil => exact .refl _
  | cons member members ih =>
      obtain ⟨key, value⟩ := member
      obtain ⟨isNew, distinctBehind⟩ := List.nodup_cons.mp distinct
      have moved := ih distinctBehind
      have stillNew : key ∉ (sortMembers members).map Prod.fst := by
        rw [← (moved.map Prod.fst).mem_iff, List.map_map]
        exact isNew
      exact (moved.cons (key, value.sortKeys)).trans (Record.insert_perm stillNew _).symm

/-- Sorting the keys only reorders members. -/
theorem reordered_sortKeys {value : Value} (distinct : value.DistinctKeys) :
    Reordered value value.sortKeys := by
  induction distinct with
  | null => exact .null
  | bool truth => exact .bool truth
  | number numeral => exact .number numeral
  | string text => exact .string text
  | array each ih =>
      rw [sortKeys, sortItems_eq_map]
      exact .array (List.forall₂_map_right_iff.mpr (List.forall₂_same.mpr ih))
  | @object members here each ih =>
      rw [sortKeys]
      refine .object ?_ ?_ (sortMembers_perm here)
      · rw [List.map_map]
        rfl
      · rw [List.map_map, List.forall₂_map_left_iff, List.forall₂_map_right_iff]
        exact List.forall₂_same.mpr ih

theorem keysAscend_sortKeys (value : Value) : value.sortKeys.KeysAscend :=
  keysAscend_iff_ordered.mpr value.ordered_sortKeys

/-- Only one order of members has ascending keys everywhere. -/
theorem Reordered.eq_sortKeys {value other : Value} (reordered : Reordered value other)
    (distinct : value.DistinctKeys) (ascend : other.KeysAscend) : other = value.sortKeys := by
  have same := same_iff_sortKeys_eq.mp (reordered.same distinct)
  rw [same, (keysAscend_iff_ordered.mp ascend).sortKeys_eq]

end Value

/-! ## Compact spellings -/

/-- The spelling of a string without a needless escape. -/
def TextSpelling.Compact (spelled : TextSpelling) (text : String) : Prop :=
  spelled.text = text ∧ ∀ char ∈ spelled, char.IsPlain

namespace Spelling

mutual

/-- The spelling of a value without blanks: its items and members in their order, its
numbers by their texts, its strings without a needless escape. -/
def Compact : Spelling → Value → Prop
  | null, .null => True
  | bool truth, .bool other => truth = other
  | number numeral, .number value => numeral.bytes = encode value.text
  | string spelled, .string text => spelled.Compact text
  | array items closing, .array values => closing = [] ∧ ItemsCompact items values
  | object members closing, .object record => closing = [] ∧ MembersCompact members record
  | _, _ => False
termination_by structural spelling => spelling

/-- The spelling of items without blanks. -/
def ItemsCompact : List (Spaced Spelling) → List Value → Prop
  | [], [] => True
  | ⟨before, content, behind⟩ :: items, value :: values =>
      before = [] ∧ behind = [] ∧ content.Compact value ∧ ItemsCompact items values
  | _, _ => False
termination_by structural items => items

/-- The spelling of members without blanks. -/
def MembersCompact : List (Spaced (Keyed Spelling)) → Record → Prop
  | [], [] => True
  | ⟨before, ⟨spelled, beforeColon, behindColon, content⟩, behind⟩ :: members,
      (key, value) :: record =>
      before = [] ∧ beforeColon = [] ∧ behindColon = [] ∧ behind = [] ∧ spelled.Compact key ∧
        content.Compact value ∧ MembersCompact members record
  | _, _ => False
termination_by structural members => members

end

theorem itemsCompact_of_forall₂ {spelled : List Spelling} {values : List Value}
    (each : List.Forall₂ Compact spelled values) :
    ItemsCompact (spelled.map fun content => ⟨[], content, []⟩) values := by
  induction each with
  | nil => trivial
  | cons first _ ih => exact ⟨rfl, rfl, first, ih⟩

/-- The spelling of a member without blanks. -/
def MemberCompact (spelled : Keyed Spelling) (member : String × Value) : Prop :=
  spelled.beforeColon = [] ∧ spelled.behindColon = [] ∧ spelled.key.Compact member.1 ∧
    spelled.value.Compact member.2

theorem membersCompact_of_forall₂ {spelled : List (Keyed Spelling)} {record : Record}
    (each : List.Forall₂ MemberCompact spelled record) :
    MembersCompact (spelled.map fun content => ⟨[], content, []⟩) record := by
  induction each with
  | nil => trivial
  | cons first _ ih =>
      obtain ⟨beforeColon, behindColon, isKey, isValue⟩ := first
      exact ⟨rfl, beforeColon, behindColon, rfl, isKey, isValue, ih⟩

end Spelling

namespace Value

/-- The compact layout writes a value as a compact spelling of it. -/
theorem exists_compact (value : Value) : ∃ spelled : Spelling,
    spelled.bytes = encode (value.write .compact) ∧ spelled.Compact value := by
  have noGap : encode [] = Blank.bytes [] := rfl
  induction value using inductionOn with
  | null => exact ⟨.null, rfl, trivial⟩
  | bool truth =>
      refine ⟨.bool truth, ?_, rfl⟩
      cases truth <;> rfl
  | number number =>
      obtain ⟨numeral, isBytes, -⟩ := number.isReadAs_reread
      exact ⟨.number numeral, isBytes, isBytes⟩
  | string text =>
      obtain ⟨spelled, isBytes, isText, plain⟩ := exists_spelling_quoted text
      exact ⟨.string spelled, isBytes, isText, plain⟩
  | array items ih =>
      obtain ⟨listed, areBytes, compact⟩ := exists_listed noGap ih true
      exact ⟨.array _ _, bytes_array_of_listed areBytes, ite_self [],
        Spelling.itemsCompact_of_forall₂ compact⟩
  | object members ih =>
      have each : ∀ member ∈ members, ∃ spelled : Keyed Spelling,
          spelled.bytes Spelling.bytes = encode (memberText .compact member) ∧
            Spelling.MemberCompact spelled member := by
        rintro ⟨key, value⟩ isMember
        obtain ⟨spelledKey, isKey, isText, plain⟩ := exists_spelling_quoted key
        obtain ⟨spelled, isBytes, compact⟩ := ih _ isMember
        exact ⟨_, bytes_member isKey isBytes, rfl, rfl, ⟨isText, plain⟩, compact⟩
      obtain ⟨listed, areBytes, compact⟩ := exists_listed noGap each true
      exact ⟨.object _ _, bytes_object_of_listed areBytes, ite_self [],
        Spelling.membersCompact_of_forall₂ compact⟩

/-- A value with distinct keys has one canonical form, however its members are listed: the
compact spelling of the one reordering in which keys ascend in the order of their bytes,
which is that of their code points. -/
theorem canonicalBytes_normalForm {value : Value} (distinct : value.DistinctKeys) :
    (∀ other, Reordered value other → other.canonicalBytes = value.canonicalBytes) ∧
    (Reordered value value.sortKeys ∧ value.sortKeys.KeysAscend ∧
      ∀ other, Reordered value other → other.KeysAscend → other = value.sortKeys) ∧
    (∃ spelled : Spelling,
      spelled.Compact value.sortKeys ∧ spelled.bytes = value.canonicalBytes) ∧
    ∀ left right : String, encode left.toList < encode right.toList ↔
      left.toList.map Char.toNat < right.toList.map Char.toNat := by
  refine ⟨fun other reordered => reordered.canonicalBytes_eq distinct,
    ⟨reordered_sortKeys distinct, value.keysAscend_sortKeys,
      fun other reordered ascend => reordered.eq_sortKeys distinct ascend⟩, ?_, ?_⟩
  · obtain ⟨spelled, isBytes, compact⟩ := value.sortKeys.exists_compact
    exact ⟨spelled, compact, isBytes⟩
  · intro left right
    rw [Text.Utf8.encode_lt_encode_iff, Text.Utf8.map_toNat_lt_iff]

/-- Keys that would change places if they were compared by sixteen-bit units, around an
array that holds another object. -/
theorem canonicalBytes_normalForm_nested :
    let value : Value := .object
      [("😀", .array [.object [("b", .null), ("a", .null)], .string "é\n\""]), ("\uffee", .null)]
    let other : Value := .object
      [("\uffee", .null), ("😀", .array [.object [("a", .null), ("b", .null)], .string "é\n\""])]
    value.DistinctKeys ∧ Reordered value other ∧ other.canonicalBytes = value.canonicalBytes ∧
      other.KeysAscend ∧ other = value.sortKeys := by
  intro value other
  have distinct : value.DistinctKeys := by
    refine .object (by decide) ?_
    rintro member (_ | ⟨_, _ | ⟨_, ⟨⟩⟩⟩)
    · refine .array ?_
      rintro item (_ | ⟨_, _ | ⟨_, ⟨⟩⟩⟩)
      · refine .object (by decide) ?_
        rintro member (_ | ⟨_, _ | ⟨_, ⟨⟩⟩⟩) <;> exact .null
      · exact .string _
    · exact .null
  have inner : Reordered (.object [("b", .null), ("a", .null)])
      (.object [("a", .null), ("b", .null)]) := by
    refine .object ?_ (.cons .null (.cons .null .nil)) (.swap _ _ _)
    rfl
  have reordered : Reordered value other := by
    refine .object ?_ ?_ (.swap _ _ _)
    · rfl
    · exact .cons (.array (.cons inner (.cons (.string _) .nil))) (.cons .null .nil)
  obtain ⟨sameBytes, ⟨_, ascend, _⟩, _, _⟩ := canonicalBytes_normalForm distinct
  have isSorted : other = value.sortKeys := by
    rfl
  exact ⟨distinct, reordered, sameBytes other reordered, isSorted ▸ ascend, isSorted⟩

end Value

end Provenance.Json
