import Mathlib
import Provenance.Json.Value

/-!
# Sameness of values

Two values are the same when they differ at most in the order in which objects
list their members: objects are compared as maps from keys to values, at every
level.  Numbers are the same when they are of one kind and equal, so that `1`
and `1.0` differ, and so do the two zeros.

Values are the same exactly when sorting their keys makes them equal
(`same_iff_sortKeys_eq`).
-/

namespace Provenance.Json

namespace Record

/-- The keys ascend strictly from front to back. -/
def Ascending (record : Record) : Prop :=
  record.Pairwise fun first second => first.1 < second.1

theorem get?_eq_none_iff {record : Record} {key : String} :
    record.get? key = none ↔ ∀ member ∈ record, key ≠ member.1 := by
  simp [get?, List.lookup_eq_none_iff]

/-- A value that is found stands in the record. -/
theorem mem_of_get?_eq_some {record : Record} {key : String} {value : Value}
    (found : record.get? key = some value) : (key, value) ∈ record := by
  induction record with
  | nil => simp at found
  | cons member record ih =>
      rcases member with ⟨other, kept⟩
      rw [get?_cons] at found
      split at found
      · rename_i same
        rw [same, Option.some.inj found]
        exact List.mem_cons_self
      · exact List.mem_cons_of_mem _ (ih found)

theorem mem_insert {key : String} {value : Value} {record : Record} {member : String × Value}
    (isMember : member ∈ insert key value record) : member = (key, value) ∨ member ∈ record := by
  induction record with
  | nil => simpa [insert] using isMember
  | cons first record ih =>
      rcases first with ⟨other, kept⟩
      unfold insert at isMember
      split at isMember
      · simpa using isMember
      · split at isMember
        · rcases List.mem_cons.mp isMember with isFirst | inRest
          · exact Or.inl isFirst
          · exact Or.inr (List.mem_cons_of_mem _ inRest)
        · rcases List.mem_cons.mp isMember with isFirst | inRest
          · exact Or.inr (isFirst ▸ List.mem_cons_self)
          · exact (ih inRest).imp_right (List.mem_cons_of_mem _)

/-- Insertion keeps the keys ascending. -/
theorem Ascending.insert {record : Record} (ascending : record.Ascending) (key : String)
    (value : Value) : (insert key value record).Ascending := by
  induction record with
  | nil => exact List.pairwise_singleton _ _
  | cons first record ih =>
      rcases first with ⟨other, kept⟩
      obtain ⟨least, rest⟩ := List.pairwise_cons.mp ascending
      unfold Record.insert
      split
      · rename_i less
        apply List.pairwise_cons.mpr
        constructor
        · intro member isMember
          rcases List.mem_cons.mp isMember with rfl | inRest
          · exact less
          · exact less.trans (least member inRest)
        · exact ascending
      · rename_i notLess
        split
        · rename_i same
          exact List.pairwise_cons.mpr ⟨fun member inRest => same ▸ least member inRest, rest⟩
        · rename_i different
          have greater : other < key :=
            lt_of_le_of_ne (not_lt.mp notLess) (Ne.symm different)
          apply List.pairwise_cons.mpr
          constructor
          · intro member isMember
            rcases mem_insert isMember with rfl | inRest
            · exact greater
            · exact least member inRest
          · exact ih rest

/-- In a record with ascending keys, nothing behind the first member has its key
or one below. -/
private theorem get?_tail_eq_none {key other : String} {value : Value} {record : Record}
    (ascending : Ascending ((key, value) :: record)) (notGreater : other ≤ key) :
    record.get? other = none := by
  rw [get?_eq_none_iff]
  rintro member isMember rfl
  exact absurd ((List.pairwise_cons.mp ascending).1 member isMember) (not_lt.mpr notGreater)

/-- Records with ascending keys are equal if they agree under every key. -/
theorem Ascending.ext {left right : Record} (leftAscending : left.Ascending)
    (rightAscending : right.Ascending) (agree : ∀ key, left.get? key = right.get? key) :
    left = right := by
  induction left generalizing right with
  | nil =>
      cases right with
      | nil => rfl
      | cons member right =>
          have found := agree member.1
          rw [get?_nil, get?_cons, if_pos rfl] at found
          contradiction
  | cons leftMember left ih =>
      rcases leftMember with ⟨leftKey, leftValue⟩
      cases right with
      | nil =>
          have found := agree leftKey
          rw [get?_nil, get?_cons, if_pos rfl] at found
          contradiction
      | cons rightMember right =>
          rcases rightMember with ⟨rightKey, rightValue⟩
          have atLeft := agree leftKey
          have atRight := agree rightKey
          rw [get?_cons, if_pos rfl, get?_cons] at atLeft
          rw [get?_cons, get?_cons, if_pos rfl] at atRight
          rcases lt_trichotomy leftKey rightKey with less | rfl | greater
          · rw [if_neg less.ne, get?_tail_eq_none rightAscending less.le] at atLeft
            contradiction
          · rw [if_pos rfl] at atLeft
            obtain rfl := Option.some.inj atLeft
            congr 1
            apply ih (List.pairwise_cons.mp leftAscending).2
              (List.pairwise_cons.mp rightAscending).2
            intro key
            by_cases same : key = leftKey
            · rw [get?_tail_eq_none leftAscending same.le,
                get?_tail_eq_none rightAscending same.le]
            · have found := agree key
              rw [get?_cons, get?_cons, if_neg same, if_neg same] at found
              exact found
          · rw [if_neg greater.ne, get?_tail_eq_none leftAscending greater.le] at atRight
            contradiction

end Record

namespace Value

/-- Induction over values, with the items of an array and the values of an
object as smaller values. -/
theorem inductionOn {motive : Value → Prop} (value : Value) (null : motive null)
    (bool : ∀ truth, motive (bool truth)) (number : ∀ numeral, motive (number numeral))
    (string : ∀ text, motive (string text))
    (array : ∀ items, (∀ item ∈ items, motive item) → motive (array items))
    (object : ∀ members : Record, (∀ member ∈ members, motive member.2) →
      motive (object members)) :
    motive value := by
  refine @Value.rec motive (fun items => ∀ item ∈ items, motive item)
    (fun members => ∀ member ∈ members, motive member.2) (fun member => motive member.2)
    null bool number string array object ?_ ?_ ?_ ?_ ?_ value
  · intro item member
    contradiction
  · intro first items firstHolds itemsHold item member
    rcases List.mem_cons.mp member with rfl | inItems
    · exact firstHolds
    · exact itemsHold item inItems
  · intro member isMember
    contradiction
  · intro first members firstHolds membersHold member isMember
    rcases List.mem_cons.mp isMember with rfl | inMembers
    · exact firstHolds
    · exact membersHold member inMembers
  · intro key value holds
    exact holds

theorem sortItems_eq_map (items : List Value) : sortItems items = items.map sortKeys := by
  induction items with
  | nil => rfl
  | cons item items ih => rw [sortItems, ih, List.map_cons]

/-- Sorting keeps what stands under a key, up to sorting it. -/
theorem get?_sortMembers (members : Record) (key : String) :
    (sortMembers members).get? key = (members.get? key).map sortKeys := by
  induction members with
  | nil => rfl
  | cons member members ih =>
      rcases member with ⟨other, kept⟩
      rw [sortMembers, Record.get?_insert, Record.get?_cons, ih]
      split <;> rfl

theorem ascending_sortMembers (members : Record) : (sortMembers members).Ascending := by
  induction members with
  | nil => exact List.Pairwise.nil
  | cons member members ih =>
      rcases member with ⟨key, value⟩
      exact ih.insert key value.sortKeys

/-! ## Sameness -/

/-- Equal up to the order of the members of objects. -/
inductive Same : Value → Value → Prop where
  | null : Same null null
  | bool (truth : Bool) : Same (bool truth) (bool truth)
  | number (numeral : Number) : Same (number numeral) (number numeral)
  | string (text : String) : Same (string text) (string text)
  | array {items others : List Value} :
      List.Forall₂ Same items others → Same (array items) (array others)
  | object {members others : Record} :
      (∀ key, Option.Rel Same (members.get? key) (others.get? key)) →
      Same (object members) (object others)

/-- Sorting makes same values equal. -/
theorem Same.sortKeys_eq {value other : Value} (same : Same value other) :
    value.sortKeys = other.sortKeys := by
  induction value using inductionOn generalizing other with
  | null => cases same; rfl
  | bool truth => cases same; rfl
  | number numeral => cases same; rfl
  | string text => cases same; rfl
  | array items ih =>
      cases same with
      | array sameItems =>
          rw [sortKeys, sortKeys, sortItems_eq_map, sortItems_eq_map]
          congr 1
          induction sameItems with
          | nil => rfl
          | cons first rest restEq =>
              rw [List.map_cons, List.map_cons, ih _ List.mem_cons_self first]
              rw [restEq fun item member => ih item (List.mem_cons_of_mem _ member)]
  | object members ih =>
      cases same with
      | @object _ others agree =>
          rw [sortKeys, sortKeys]
          congr 1
          apply (ascending_sortMembers _).ext (ascending_sortMembers _)
          intro key
          rw [get?_sortMembers, get?_sortMembers]
          have agreeKey := agree key
          generalize Record.get? others key = other at agreeKey ⊢
          cases found : members.get? key with
          | none =>
              rw [found] at agreeKey
              cases agreeKey
              rfl
          | some value =>
              rw [found] at agreeKey
              cases agreeKey with
              | some sameValue =>
                  exact congrArg some (ih _ (Record.mem_of_get?_eq_some found) sameValue)

/-- Values that sorting makes equal are the same. -/
theorem Same.of_sortKeys_eq {value other : Value} (equal : value.sortKeys = other.sortKeys) :
    Same value other := by
  induction value using inductionOn generalizing other with
  | null =>
      cases other with
      | null => exact .null
      | _ => contradiction
  | bool truth =>
      cases other with
      | bool otherTruth =>
          obtain rfl : truth = otherTruth := Value.bool.inj equal
          exact .bool truth
      | _ => contradiction
  | number numeral =>
      cases other with
      | number otherNumeral =>
          obtain rfl : numeral = otherNumeral := Value.number.inj equal
          exact .number numeral
      | _ => contradiction
  | string text =>
      cases other with
      | string otherText =>
          obtain rfl : text = otherText := Value.string.inj equal
          exact .string text
      | _ => contradiction
  | array items ih =>
      cases other with
      | array others =>
          apply Same.array
          rw [sortKeys, sortKeys, sortItems_eq_map, sortItems_eq_map] at equal
          have sorted := Value.array.inj equal
          clear equal
          induction items generalizing others with
          | nil =>
              obtain rfl : others = [] := by simpa using sorted.symm
              exact .nil
          | cons item items itemsIh =>
              cases others with
              | nil => simp at sorted
              | cons other others =>
                  obtain ⟨first, rest⟩ := List.cons.inj sorted
                  exact .cons (ih item List.mem_cons_self first)
                    (itemsIh (fun item member => ih item (List.mem_cons_of_mem _ member))
                      others rest)
      | _ => contradiction
  | object members ih =>
      cases other with
      | object others =>
          apply Same.object
          intro key
          rw [sortKeys, sortKeys] at equal
          have atKey := congrArg (Record.get? · key) (Value.object.inj equal)
          simp only [get?_sortMembers] at atKey
          generalize Record.get? others key = other at atKey ⊢
          cases found : members.get? key with
          | none =>
              rw [found, Option.map_none] at atKey
              rw [Option.map_eq_none_iff.mp atKey.symm]
              exact .none
          | some value =>
              rw [found, Option.map_some] at atKey
              obtain ⟨otherValue, rfl, sorted⟩ := Option.map_eq_some_iff.mp atKey.symm
              exact .some (ih _ (Record.mem_of_get?_eq_some found) sorted.symm)
      | _ => contradiction

/-- Sorting the keys is a normal form for sameness. -/
theorem same_iff_sortKeys_eq {value other : Value} :
    Same value other ↔ value.sortKeys = other.sortKeys :=
  ⟨Same.sortKeys_eq, Same.of_sortKeys_eq⟩

theorem Same.refl (value : Value) : Same value value :=
  .of_sortKeys_eq rfl

theorem Same.symm {value other : Value} (same : Same value other) : Same other value :=
  .of_sortKeys_eq same.sortKeys_eq.symm

end Value

end Provenance.Json
