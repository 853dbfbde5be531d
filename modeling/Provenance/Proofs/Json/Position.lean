import Mathlib
import Provenance.Proofs.Json.Reader.Value
import Provenance.Proofs.Json.Record

/-!
# Positions in a text

A key may come several times in an object, and then the last member with it counts
(`Spelling.under?`).  What is found under a key of a value is what counts under it in the
text.

Two texts that are equal but for what stands at one position have the same value exactly if
the two things there have (`Replaced.same_iff`), as long as the position is one that counts:
nothing else of the value depends on them, and nothing of them is lost.
-/

namespace Provenance.Json

/-- Records agree but under one key, where one has `value` and the other has `other`. -/
structure Record.AgreeBut (name : String) (value other : Value) (record changed : Record) :
    Prop where
  isValue : record.get? name = some value
  isOther : changed.get? name = some other
  elsewhere : ∀ key ≠ name, record.get? key = changed.get? key

namespace Spelling

/-- What stands last under a key. -/
def lastUnder? (key : String) : List (Spaced (Keyed Spelling)) → Option Spelling
  | [] => none
  | member :: members =>
      (lastUnder? key members).or
        (if key = TextSpelling.text member.content.key then some member.content.value else none)

/-- What counts under a key of an object: of members with one key the last. -/
def under? (key : String) : Spelling → Option Spelling
  | object members _ => lastUnder? key members
  | _ => none

theorem exists_mem_of_lastUnder? {key : String} {members : List (Spaced (Keyed Spelling))}
    {inner : Spelling} (isLast : lastUnder? key members = some inner) :
    ∃ member ∈ members, member.content.value = inner := by
  induction members with
  | nil => contradiction
  | cons member members ih =>
      rw [lastUnder?, Option.or_eq_some_iff] at isLast
      rcases isLast with isLater | ⟨-, isFirst⟩
      · rcases ih isLater with ⟨other, isMember, isValue⟩
        exact ⟨other, List.mem_cons_of_mem _ isMember, isValue⟩
      · split at isFirst
        · exact ⟨member, List.mem_cons_self, Option.some.inj isFirst⟩
        · contradiction

theorem exists_value?_of_lastUnder? {key : String} {levels : Nat}
    {members : List (Spaced (Keyed Spelling))} {found : List (String × Value)}
    (means : (members.mapM fun member => member.content.member? (value? levels)) = some found)
    {inner : Spelling} (isLast : lastUnder? key members = some inner) :
    ∃ value, inner.value? levels = some value := by
  obtain ⟨member, isMember, rfl⟩ := exists_mem_of_lastUnder? isLast
  obtain ⟨pair, -, isPair⟩ := exists_value_of_mapM means isMember
  obtain ⟨value, isValue, -⟩ := Option.map_eq_some_iff.mp isPair
  exact ⟨value, isValue⟩

/-- What is found under a key is what stands last there. -/
theorem get?_ofMembers_eq (key : String) {levels : Nat}
    {members : List (Spaced (Keyed Spelling))} {found : List (String × Value)}
    (means : (members.mapM fun member => member.content.member? (value? levels)) = some found) :
    (Record.ofMembers found).get? key = (lastUnder? key members).bind (value? levels) := by
  induction members generalizing found with
  | nil =>
      cases means
      rfl
  | cons member members ih =>
      obtain ⟨first, others, isFirst, areOthers, rfl⟩ := mapM_cons_eq_some_iff.mp means
      obtain ⟨value, isValue, rfl⟩ := Option.map_eq_some_iff.mp isFirst
      rw [lastUnder?, Record.get?_ofMembers_cons, ih areOthers]
      cases isLater : lastUnder? key members with
      | none =>
          rw [Option.bind_none, Option.none_or, Option.none_or]
          split
          · exact isValue.symm
          · rfl
      | some later =>
          obtain ⟨found, isFound⟩ := exists_value?_of_lastUnder? areOthers isLater
          rw [Option.some_or, Option.bind_some, isFound, Option.some_or]

/-- What counts under a key in the text is found under the key in the value. -/
theorem get?_of_under? {key : String} {spelling inner : Spelling} {levels : Nat} {value : Value}
    (means : spelling.value? levels = some value) (counts : spelling.under? key = some inner) :
    ∃ (members : Record) (innerLevels : Nat) (found : Value), value = .object members ∧
      inner.value? innerLevels = some found ∧ members.get? key = some found := by
  cases spelling with
  | object members closing =>
      obtain ⟨levels, listed, rfl, areListed, rfl⟩ := value?_object_eq_some_iff.mp means
      obtain ⟨found, isFound⟩ := exists_value?_of_lastUnder? areListed counts
      have isLast : lastUnder? key members = some inner := counts
      refine ⟨_, levels, found, rfl, isFound, ?_⟩
      rw [get?_ofMembers_eq key areListed, isLast, Option.bind_some, isFound]
  | _ => contradiction

theorem lastUnder?_append (key : String) (first second : List (Spaced (Keyed Spelling))) :
    lastUnder? key (first ++ second) = (lastUnder? key second).or (lastUnder? key first) := by
  induction first with
  | nil => exact (Option.or_none).symm
  | cons member first ih => rw [List.cons_append, lastUnder?, ih, lastUnder?, Option.or_assoc]

theorem lastUnder?_eq_none {key : String} {members : List (Spaced (Keyed Spelling))}
    (others : ∀ member ∈ members, TextSpelling.text member.content.key ≠ key) :
    lastUnder? key members = none := by
  induction members with
  | nil => rfl
  | cons member members ih =>
      rcases List.forall_mem_cons.mp others with ⟨isOther, others⟩
      rw [lastUnder?, ih others, if_neg isOther.symm]
      rfl

/-! ## One thing in place of another -/

/-- A step towards the inside of a text. -/
inductive Step where
  | index (number : Nat)
  | key (name : String)
  deriving DecidableEq, Repr

/-- Two texts are equal, but one has `inner` and the other has `other` at a position.  No
member on the way is overridden. -/
inductive Replaced (inner other : Spelling) : List Step → Spelling → Spelling → Prop where
  | here : Replaced inner other [] inner other
  | item (before behind : List (Spaced Spelling)) (front back closing : List Blank)
      {path : List Step} {spelling changed : Spelling} :
      Replaced inner other path spelling changed →
      Replaced inner other (.index before.length :: path)
        (.array (before ++ ⟨front, spelling, back⟩ :: behind) closing)
        (.array (before ++ ⟨front, changed, back⟩ :: behind) closing)
  | member (before behind : List (Spaced (Keyed Spelling))) (front back closing : List Blank)
      (key : TextSpelling) (beforeColon behindColon : List Blank)
      (counts : ∀ later ∈ behind, TextSpelling.text later.content.key ≠ key.text)
      {path : List Step} {spelling changed : Spelling} :
      Replaced inner other path spelling changed →
      Replaced inner other (.key key.text :: path)
        (.object (before ++ ⟨front, ⟨key, beforeColon, behindColon, spelling⟩, back⟩ :: behind)
          closing)
        (.object (before ++ ⟨front, ⟨key, beforeColon, behindColon, changed⟩, back⟩ :: behind)
          closing)

/-- The value of a list with something in the middle. -/
theorem mapM_middle_eq_some {α β : Type} {meaning : α → Option β} {before behind : List α}
    {item : α} {values : List β} (means : (before ++ item :: behind).mapM meaning = some values) :
    ∃ front value back, before.mapM meaning = some front ∧ meaning item = some value ∧
      behind.mapM meaning = some back ∧ values = front ++ value :: back := by
  rw [List.mapM_append] at means
  obtain ⟨front, isFront, means⟩ := Option.bind_eq_some_iff.mp means
  obtain ⟨others, isOthers, means⟩ := Option.bind_eq_some_iff.mp means
  obtain ⟨value, back, isValue, isBack, rfl⟩ := mapM_cons_eq_some_iff.mp isOthers
  exact ⟨front, value, back, isFront, isValue, isBack, (Option.some.inj means).symm⟩

theorem same_array_middle_iff {front back : List Value} {value other : Value} :
    Value.Same (.array (front ++ value :: back)) (.array (front ++ other :: back)) ↔
      Value.Same value other := by
  constructor
  · intro same
    cases same with
    | array items =>
        induction front with
        | nil => exact (List.forall₂_cons.mp items).1
        | cons first front ih => exact ih (List.forall₂_cons.mp items).2
  · intro same
    apply Value.Same.array
    induction front with
    | nil => exact .cons same (List.forall₂_same.mpr fun item _ => .refl item)
    | cons first front ih => exact .cons (.refl first) ih

/-- Records that differ at one key at most are the same if what they have there is. -/
theorem same_object_iff {name : String} {value other : Value} {record changed : Record}
    (agree : Record.AgreeBut name value other record changed) :
    Value.Same (.object record) (.object changed) ↔ Value.Same value other := by
  constructor
  · intro same
    cases same with
    | object alike =>
        have sameHere := alike name
        rw [agree.isValue, agree.isOther] at sameHere
        exact Option.rel_some_some.mp sameHere
  · intro same
    apply Value.Same.object
    intro key
    by_cases isHere : key = name
    · rw [isHere, agree.isValue, agree.isOther]
      exact .some same
    · rw [agree.elsewhere key isHere]
      cases changed.get? key with
      | none => exact .none
      | some found => exact .some (.refl found)

section Member

variable {before behind : List (Spaced (Keyed Spelling))} {member : Spaced (Keyed Spelling)}

theorem lastUnder?_of_counts (counts : ∀ later ∈ behind,
      TextSpelling.text later.content.key ≠ TextSpelling.text member.content.key) :
    lastUnder? (TextSpelling.text member.content.key) (before ++ member :: behind) =
      some member.content.value := by
  rw [lastUnder?_append, lastUnder?, lastUnder?_eq_none counts, if_pos rfl, Option.none_or,
    Option.some_or]

theorem lastUnder?_of_ne {key : String} (different : key ≠ TextSpelling.text member.content.key) :
    lastUnder? key (before ++ member :: behind) =
      (lastUnder? key behind).or (lastUnder? key before) := by
  rw [lastUnder?_append, lastUnder?, if_neg different, Option.or_none]

end Member

/-- Objects that differ in a member that counts are read as records that agree but under
its key. -/
theorem exists_agreeBut {before behind : List (Spaced (Keyed Spelling))}
    {front back closing : List Blank} {key : TextSpelling} {beforeColon behindColon : List Blank}
    (counts : ∀ later ∈ behind, TextSpelling.text later.content.key ≠ key.text)
    {spelling changed : Spelling} {levels : Nat} {value other : Value}
    (means : (object (before ++ ⟨front, ⟨key, beforeColon, behindColon, spelling⟩, back⟩ :: behind)
      closing).value? levels = some value)
    (meansToo : (object (before ++ ⟨front, ⟨key, beforeColon, behindColon, changed⟩, back⟩ ::
      behind) closing).value? levels = some other) :
    ∃ inner found changedFound record changedRecord,
      value = .object record ∧ other = .object changedRecord ∧
        spelling.value? inner = some found ∧ changed.value? inner = some changedFound ∧
        Record.AgreeBut key.text found changedFound record changedRecord := by
  have isLast (within : Spelling) : lastUnder? key.text
      (before ++ ⟨front, ⟨key, beforeColon, behindColon, within⟩, back⟩ :: behind) =
        some within :=
    @lastUnder?_of_counts before behind ⟨front, ⟨key, beforeColon, behindColon, within⟩, back⟩
      counts
  have elsewhere (within : Spelling) {name : String} (different : name ≠ key.text) :
      lastUnder? name
        (before ++ ⟨front, ⟨key, beforeColon, behindColon, within⟩, back⟩ :: behind) =
          (lastUnder? name behind).or (lastUnder? name before) :=
    @lastUnder?_of_ne before behind ⟨front, ⟨key, beforeColon, behindColon, within⟩, back⟩ name
      different
  obtain ⟨inner, listed, rfl, areListed, rfl⟩ := value?_object_eq_some_iff.mp means
  obtain ⟨same, otherListed, sameLevels, areListedToo, rfl⟩ :=
    value?_object_eq_some_iff.mp meansToo
  obtain rfl := Nat.succ.inj sameLevels
  obtain ⟨found, isFound⟩ := exists_value?_of_lastUnder? areListed (isLast spelling)
  obtain ⟨changedFound, isChanged⟩ := exists_value?_of_lastUnder? areListedToo (isLast changed)
  refine ⟨inner, found, changedFound, _, _, rfl, rfl, isFound, isChanged, ?_, ?_, ?_⟩
  · rw [get?_ofMembers_eq _ areListed, isLast, Option.bind_some, isFound]
  · rw [get?_ofMembers_eq _ areListedToo, isLast, Option.bind_some, isChanged]
  · intro name different
    rw [get?_ofMembers_eq name areListed, get?_ofMembers_eq name areListedToo,
      elsewhere spelling different, elsewhere changed different]

namespace Replaced

variable {inner other spelling changed : Spelling} {path : List Step} {levels : Nat}
  {value changedValue : Value}

/-- Under a key, two texts are read as objects that agree under every other key. -/
theorem of_key {name : String}
    (replaced : Replaced inner other (.key name :: path) spelling changed)
    (means : spelling.value? levels = some value)
    (meansToo : changed.value? levels = some changedValue) :
    ∃ levels within changedWithin found changedFound record changedRecord,
      value = .object record ∧ changedValue = .object changedRecord ∧
        Record.AgreeBut name found changedFound record changedRecord ∧
        within.value? levels = some found ∧ changedWithin.value? levels = some changedFound ∧
        Replaced inner other path within changedWithin := by
  cases replaced with
  | member before behind front back closing key beforeColon behindColon counts replaced =>
      obtain ⟨levels, found, changedFound, record, changedRecord, isRecord, isChangedRecord,
        isFound, isChangedFound, agree⟩ := exists_agreeBut counts means meansToo
      exact ⟨levels, _, _, found, changedFound, record, changedRecord, isRecord, isChangedRecord,
        agree, isFound, isChangedFound, replaced⟩

/-- Two texts that differ at one position have the same value exactly if what stands there
has. -/
theorem same_iff (replaced : Replaced inner other path spelling changed)
    (means : spelling.value? levels = some value)
    (meansToo : changed.value? levels = some changedValue) :
    ∃ innerLevels innerValue otherValue, inner.value? innerLevels = some innerValue ∧
      other.value? innerLevels = some otherValue ∧
      (Value.Same value changedValue ↔ Value.Same innerValue otherValue) := by
  induction replaced generalizing levels value changedValue with
  | here => exact ⟨levels, value, changedValue, means, meansToo, Iff.rfl⟩
  | item before behind front back closing replaced ih =>
      obtain ⟨within, values, rfl, areValues, rfl⟩ := value?_array_eq_some_iff.mp means
      obtain ⟨same, others, sameLevels, areOthers, rfl⟩ := value?_array_eq_some_iff.mp meansToo
      obtain rfl := Nat.succ.inj sameLevels
      obtain ⟨first, found, last, isFirst, isFound, isLast, rfl⟩ := mapM_middle_eq_some areValues
      obtain ⟨firstToo, changedFound, lastToo, isFirstToo, isChangedFound, isLastToo, rfl⟩ :=
        mapM_middle_eq_some areOthers
      obtain rfl := Option.some.inj (isFirst.symm.trans isFirstToo)
      obtain rfl := Option.some.inj (isLast.symm.trans isLastToo)
      rw [same_array_middle_iff]
      exact ih isFound isChangedFound
  | member before behind front back closing key beforeColon behindColon counts replaced ih =>
      obtain ⟨levels, found, changedFound, record, changedRecord, rfl, rfl, isFound,
        isChangedFound, agree⟩ := exists_agreeBut counts means meansToo
      rw [same_object_iff agree]
      exact ih isFound isChangedFound

/-- A member of a plain object that counts. -/
theorem plainMember (before behind : List (TextSpelling × Spelling)) {name : String}
    (allowed : name.toList.all isLiteral = true)
    (counts : ∀ later ∈ behind, TextSpelling.text later.1 ≠ name)
    (replaced : Replaced inner other path spelling changed) :
    Replaced inner other (.key name :: path)
      (plainObject (before ++ (.plain name, spelling) :: behind))
      (plainObject (before ++ (.plain name, changed) :: behind)) := by
  have replaced := Replaced.member
    (before.map fun member => ⟨[], ⟨member.1, [], [], member.2⟩, []⟩)
    (behind.map fun member => ⟨[], ⟨member.1, [], [], member.2⟩, []⟩) [] [] []
    (.plain name) [] [] (List.forall_mem_map.mpr fun later isLater => by
      rw [TextSpelling.text_plain allowed]
      exact counts later isLater) replaced
  rw [TextSpelling.text_plain allowed] at replaced
  rw [plainObject, plainObject, List.map_append, List.map_append]
  exact replaced

end Replaced

end Spelling

end Provenance.Json
