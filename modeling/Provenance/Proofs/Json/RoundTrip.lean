import Mathlib
import Provenance.Command.Run
import Provenance.Proofs.Json.Written

/-!
# Reading what was written

A value without doubles that nests no deeper than the reader follows is read
back from its canonical text, and from the text that is printed.  What comes back
has sorted keys; it is the value itself if that has sorted keys already, as every
value that was read does.
-/

namespace Provenance

open Json
open Text.Utf8 (encode)

namespace Json

/-- The number is an integer and no double. -/
def Number.isInteger : Number → Bool
  | integer _ _ => true
  | double _ => false

namespace Value

/-- Every object lists its members in ascending order of the keys. -/
inductive Ordered : Value → Prop where
  | null : Ordered null
  | bool (truth : Bool) : Ordered (bool truth)
  | number (numeral : Number) : Ordered (number numeral)
  | string (text : String) : Ordered (string text)
  | array {items : List Value} (ordered : ∀ item ∈ items, Ordered item) : Ordered (array items)
  | object {members : Record} (ascending : members.Ascending)
      (ordered : ∀ member ∈ members, Ordered member.2) : Ordered (object members)

/-- Sorting changes nothing where the members are in order. -/
theorem Ordered.sortKeys_eq {value : Value} (ordered : value.Ordered) : value.sortKeys = value := by
  induction ordered with
  | null => rfl
  | bool truth => rfl
  | number numeral => rfl
  | string text => rfl
  | array ordered ih =>
      rw [sortKeys, sortItems_eq_map, List.map_congr_left ih, List.map_id']
  | @object members ascending ordered ih =>
      rw [sortKeys]
      refine congrArg Value.object ((ascending_sortMembers members).ext ascending ?_)
      intro key
      rw [get?_sortMembers]
      cases found : members.get? key with
      | none => rfl
      | some value => exact congrArg some (ih (key, value) (Record.mem_of_get?_eq_some found))

/-- After sorting, the members are in order. -/
theorem ordered_sortKeys (value : Value) : value.sortKeys.Ordered := by
  induction value using inductionOn with
  | null => exact .null
  | bool truth => exact .bool truth
  | number numeral => exact .number numeral
  | string text => exact .string text
  | array items ih =>
      rw [sortKeys, sortItems_eq_map]
      apply Ordered.array
      intro sorted isSorted
      obtain ⟨item, isItem, rfl⟩ := List.mem_map.mp isSorted
      exact ih item isItem
  | object members ih =>
      rw [sortKeys]
      apply Ordered.object (ascending_sortMembers members)
      intro member isSorted
      obtain ⟨value, isMember, same⟩ := mem_sortMembers isSorted
      rw [same]
      exact ih (member.1, value) isMember

/-- Sorting changes only the order of members. -/
theorem same_sortKeys (value : Value) : Same value.sortKeys value :=
  .of_sortKeys_eq value.ordered_sortKeys.sortKeys_eq

end Value

/-- What a spelling means has its members in order. -/
theorem Spelling.ordered_of_value? {levels : Nat} {spelling : Spelling} {value : Value}
    (means : spelling.value? levels = some value) : value.Ordered := by
  induction levels using Nat.strongRecOn generalizing spelling value with
  | ind levels ih =>
      cases spelling with
      | null => exact Option.some.inj means ▸ .null
      | bool truth => exact Option.some.inj means ▸ .bool truth
      | number numeral =>
          obtain ⟨number, -, rfl⟩ := Option.map_eq_some_iff.mp means
          exact .number number
      | string text => exact Option.some.inj means ▸ .string _
      | array items closing =>
          obtain ⟨inner, values, rfl, mapped, rfl⟩ := value?_array_eq_some_iff.mp means
          apply Value.Ordered.array
          intro value isValue
          obtain ⟨item, -, isItem⟩ := exists_mem_of_mapM mapped isValue
          exact ih inner (Nat.lt_succ_self inner) isItem
      | object members closing =>
          obtain ⟨inner, found, rfl, mapped, rfl⟩ := value?_object_eq_some_iff.mp means
          apply Value.Ordered.object (Record.ascending_ofMembers found)
          intro member isMember
          obtain ⟨keyed, -, isKeyed⟩ :=
            exists_mem_of_mapM mapped (Record.mem_of_mem_ofMembers isMember)
          obtain ⟨value, isValue, rfl⟩ := Option.map_eq_some_iff.mp isKeyed
          exact ih inner (Nat.lt_succ_self inner) isValue

/-- What a spelling means nests no deeper than there are levels. -/
theorem Spelling.depth_le_of_value? {levels : Nat} {spelling : Spelling} {value : Value}
    (means : spelling.value? levels = some value) : value.depth ≤ levels := by
  induction levels using Nat.strongRecOn generalizing spelling value with
  | ind levels ih =>
      cases spelling with
      | null => exact Option.some.inj means ▸ Nat.zero_le levels
      | bool truth => exact Option.some.inj means ▸ Nat.zero_le levels
      | number numeral =>
          obtain ⟨number, -, rfl⟩ := Option.map_eq_some_iff.mp means
          exact Nat.zero_le levels
      | string text => exact Option.some.inj means ▸ Nat.zero_le levels
      | array items closing =>
          obtain ⟨inner, values, rfl, mapped, rfl⟩ := value?_array_eq_some_iff.mp means
          apply Nat.succ_le_succ
          apply Value.depthOfItems_le
          intro value isValue
          obtain ⟨item, -, isItem⟩ := exists_mem_of_mapM mapped isValue
          exact ih inner (Nat.lt_succ_self inner) isItem
      | object members closing =>
          obtain ⟨inner, found, rfl, mapped, rfl⟩ := value?_object_eq_some_iff.mp means
          apply Nat.succ_le_succ
          apply Value.depthOfMembers_le
          intro member isMember
          obtain ⟨keyed, -, isKeyed⟩ :=
            exists_mem_of_mapM mapped (Record.mem_of_mem_ofMembers isMember)
          obtain ⟨value, isValue, rfl⟩ := Option.map_eq_some_iff.mp isKeyed
          exact ih inner (Nat.lt_succ_self inner) isValue

/-- What is read nests no deeper than the reader follows. -/
theorem Value.depth_le_of_ofBytes {bytes : List UInt8} {value : Value}
    (read : Value.ofBytes bytes = .ok value) : value.depth ≤ nestingLimit := by
  obtain ⟨text, -, means⟩ := Value.ofBytes_eq_ok_iff.mp read
  exact text.content.depth_le_of_value? means

/-- What is read has its members in order. -/
theorem Value.ordered_of_ofBytes {bytes : List UInt8} {value : Value}
    (read : Value.ofBytes bytes = .ok value) : value.Ordered := by
  obtain ⟨text, -, means⟩ := Value.ofBytes_eq_ok_iff.mp read
  exact text.content.ordered_of_value? means

end Json

theorem Command.unlines_singleton (line : String) : unlines [line] = line ++ "\n" := by
  simp [unlines, String.join]

section Written

variable {change : Number → Number} {value : Value} (shallow : value.depth ≤ nestingLimit)
  (readAs : ∀ number ∈ value.numbers, number.IsReadAs (change number))

include shallow readAs

/-- A value that is not too deep is read from its text in any layout, with the numbers
that are read from the texts of its own. -/
theorem documentOfBytes_writtenAs (layout : Layout) :
    documentOfBytes (encode (value.sortKeys.write layout)) =
      .ok (value.sortKeys.mapNumbers change) := by
  have spelled := Value.ofBytes_write shallow readAs layout []
  rw [Blank.bytes, List.map_nil, List.append_nil] at spelled
  exact documentOfBytes_eq_ok_iff.mpr spelled

/-- It is read from the line that is printed for it. -/
theorem documentOfBytes_printedAs :
    documentOfBytes (encode (Command.unlines [value.pretty]).toList) =
      .ok (value.sortKeys.mapNumbers change) := by
  rw [Command.unlines_singleton, String.toList_append, Value.pretty, String.toList_ofList,
    Text.Utf8.encode_append]
  exact documentOfBytes_eq_ok_iff.mpr
    (Value.ofBytes_write shallow readAs (.indented 0) [.lineFeed])

end Written

section ReadBack

variable {value : Value} (shallow : value.depth ≤ nestingLimit)
  (readBack : ∀ number ∈ value.numbers, number.IsReadAs number)

include shallow readBack

/-- If its numbers are read back, so is the value. -/
theorem documentOfBytes_written (layout : Layout) :
    documentOfBytes (encode (value.sortKeys.write layout)) = .ok value.sortKeys := by
  have read := @documentOfBytes_writtenAs id value shallow readBack layout
  rwa [Value.mapNumbers_id] at read

theorem documentOfBytes_printed :
    documentOfBytes (encode (Command.unlines [value.pretty]).toList) = .ok value.sortKeys := by
  have read := @documentOfBytes_printedAs id value shallow readBack
  rwa [Value.mapNumbers_id] at read

end ReadBack

/-- A value without doubles, nested at most 127 levels deep, is read back from
its canonical text, from its indented text and from the line that is printed: as
the same value with sorted keys, and as itself if its keys are sorted. -/
theorem documentOfBytes_canonicalBytes {value : Value} (shallow : value.depth ≤ 127)
    (integral : ∀ number ∈ value.numbers, number.isInteger = true) :
    documentOfBytes value.canonicalBytes = .ok value.sortKeys ∧
      documentOfBytes (encode value.pretty.toList) = .ok value.sortKeys ∧
      documentOfBytes (encode (Command.unlines [value.pretty]).toList) = .ok value.sortKeys ∧
      Value.Same value.sortKeys value ∧ (value.Ordered → value.sortKeys = value) := by
  have readBack : ∀ number ∈ value.numbers, number.IsReadAs number := by
    intro number isNumber
    cases number with
    | integer value inRange => exact Number.isReadAs_integer value inRange
    | double value => exact absurd (integral _ isNumber) Bool.false_ne_true
  refine ⟨documentOfBytes_written shallow readBack .compact, ?_,
    documentOfBytes_printed shallow readBack, value.same_sortKeys, Value.Ordered.sortKeys_eq⟩
  rw [Value.pretty, String.toList_ofList]
  exact documentOfBytes_written shallow readBack (.indented 0)

/-- Control characters and other ones, the least and the greatest integer, and
empty containers. -/
theorem documentOfBytes_canonicalBytes_mixed :
    let value : Value := .object
      [("", .array [.string "\u0000\t\"\\é😀", .number (.integer (-0x8000000000000000) (by decide)),
          .number (.integer 0xFFFFFFFFFFFFFFFF (by decide))]),
        ("\u001f", .array []), ("é", .object [])]
    value.depth ≤ 127 ∧ (∀ number ∈ value.numbers, number.isInteger = true) ∧
      documentOfBytes value.canonicalBytes = .ok value ∧
      documentOfBytes (encode value.pretty.toList) = .ok value := by
  intro value
  have shallow : value.depth ≤ 127 := by decide
  have integral : ∀ number ∈ value.numbers, number.isInteger = true := by decide
  obtain ⟨compact, indented, _, _, same⟩ := documentOfBytes_canonicalBytes shallow integral
  have ordered : value.Ordered := by
    refine .object (by decide) ?_
    simp only [List.forall_mem_cons, List.not_mem_nil, IsEmpty.forall_iff, implies_true, and_true]
    refine ⟨.array ?_, .array (by simp), .object .nil (by simp)⟩
    simp only [List.forall_mem_cons, List.not_mem_nil, IsEmpty.forall_iff, implies_true, and_true]
    exact ⟨.string _, .number _, .number _⟩
  rw [same ordered] at compact indented
  exact ⟨shallow, integral, compact, indented⟩

end Provenance
