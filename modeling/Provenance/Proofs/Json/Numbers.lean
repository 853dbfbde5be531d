import Mathlib
import Provenance.Proofs.Json.Same

/-!
# Depth and numbers of a value

How deep the arrays and objects of a value nest, which numbers stand in it, and
the value that other numbers in their places make.  Replacing the numbers changes
neither the depth nor the keys, and the value is the same exactly when every number
is replaced by itself (`mapNumbers_eq_self_iff`).
-/

namespace Provenance.Json

namespace Value

mutual

/-- How deep arrays and objects nest. -/
def depth : Value → Nat
  | array items => depthOfItems items + 1
  | object members => depthOfMembers members + 1
  | _ => 0
termination_by structural value => value

/-- The greatest depth of items. -/
def depthOfItems : List Value → Nat
  | [] => 0
  | item :: items => max item.depth (depthOfItems items)
termination_by structural items => items

/-- The greatest depth of the values of members. -/
def depthOfMembers : List (String × Value) → Nat
  | [] => 0
  | (_, value) :: members => max value.depth (depthOfMembers members)
termination_by structural members => members

end

theorem depth_le_depthOfItems {item : Value} {items : List Value} (isItem : item ∈ items) :
    item.depth ≤ depthOfItems items := by
  induction items with
  | nil => contradiction
  | cons first items ih =>
      rw [depthOfItems]
      rcases List.mem_cons.mp isItem with rfl | inItems
      · exact Nat.le_max_left _ _
      · exact Nat.le_trans (ih inItems) (Nat.le_max_right _ _)

theorem depth_le_depthOfMembers {key : String} {value : Value} {members : List (String × Value)}
    (isMember : (key, value) ∈ members) : value.depth ≤ depthOfMembers members := by
  induction members with
  | nil => contradiction
  | cons first members ih =>
      rw [depthOfMembers]
      rcases List.mem_cons.mp isMember with rfl | inMembers
      · exact Nat.le_max_left _ _
      · exact Nat.le_trans (ih inMembers) (Nat.le_max_right _ _)

theorem depthOfItems_le {bound : Nat} {items : List Value}
    (each : ∀ item ∈ items, item.depth ≤ bound) : depthOfItems items ≤ bound := by
  induction items with
  | nil => exact Nat.zero_le bound
  | cons first items ih =>
      rw [depthOfItems]
      exact Nat.max_le.mpr ⟨each first List.mem_cons_self,
        ih fun item isItem => each item (List.mem_cons_of_mem _ isItem)⟩

theorem depthOfMembers_le {bound : Nat} {members : Record}
    (each : ∀ member ∈ members, member.2.depth ≤ bound) : depthOfMembers members ≤ bound := by
  induction members with
  | nil => exact Nat.zero_le bound
  | cons first members ih =>
      rw [depthOfMembers]
      exact Nat.max_le.mpr ⟨each first List.mem_cons_self,
        ih fun member isMember => each member (List.mem_cons_of_mem _ isMember)⟩

mutual

/-- The numbers in a value, at any depth. -/
def numbers : Value → List Number
  | number value => [value]
  | array items => numbersOfItems items
  | object members => numbersOfMembers members
  | _ => []
termination_by structural value => value

/-- The numbers in items. -/
def numbersOfItems : List Value → List Number
  | [] => []
  | item :: items => item.numbers ++ numbersOfItems items
termination_by structural items => items

/-- The numbers in the values of members. -/
def numbersOfMembers : List (String × Value) → List Number
  | [] => []
  | (_, value) :: members => value.numbers ++ numbersOfMembers members
termination_by structural members => members

end

theorem mem_numbersOfItems_iff {wanted : Number} {items : List Value} :
    wanted ∈ numbersOfItems items ↔ ∃ item ∈ items, wanted ∈ item.numbers := by
  induction items with
  | nil => simp [numbersOfItems]
  | cons item items ih => simp [numbersOfItems, ih]

theorem mem_numbersOfMembers_iff {wanted : Number} {members : Record} :
    wanted ∈ numbersOfMembers members ↔ ∃ member ∈ members, wanted ∈ member.2.numbers := by
  induction members with
  | nil => simp [numbersOfMembers]
  | cons member members ih => simp [numbersOfMembers, ih]

theorem numbers_subset_numbersOfItems {item : Value} {items : List Value}
    (isItem : item ∈ items) : item.numbers ⊆ numbersOfItems items :=
  fun _ isNumber => mem_numbersOfItems_iff.mpr ⟨item, isItem, isNumber⟩

theorem numbers_subset_numbersOfMembers {key : String} {value : Value}
    {members : List (String × Value)} (isMember : (key, value) ∈ members) :
    value.numbers ⊆ numbersOfMembers members :=
  fun _ isNumber => mem_numbersOfMembers_iff.mpr ⟨(key, value), isMember, isNumber⟩

/-! ## Other numbers in their places -/

mutual

/-- The value with a change made to each number. -/
def mapNumbers (change : Number → Number) : Value → Value
  | number value => number (change value)
  | array items => array (mapNumbersOfItems change items)
  | object members => object (mapNumbersOfMembers change members)
  | value => value
termination_by structural value => value

/-- The items with a change made to each number. -/
def mapNumbersOfItems (change : Number → Number) : List Value → List Value
  | [] => []
  | item :: items => item.mapNumbers change :: mapNumbersOfItems change items
termination_by structural items => items

/-- The members with a change made to each number. -/
def mapNumbersOfMembers (change : Number → Number) : List (String × Value) → Record
  | [] => []
  | (key, value) :: members =>
      (key, value.mapNumbers change) :: mapNumbersOfMembers change members
termination_by structural members => members

end

section MapNumbers

variable (change : Number → Number)

theorem mapNumbersOfItems_eq_map (items : List Value) :
    mapNumbersOfItems change items = items.map (mapNumbers change) := by
  induction items with
  | nil => rfl
  | cons item items ih => rw [mapNumbersOfItems, ih, List.map_cons]

theorem mapNumbersOfMembers_eq_map (members : Record) :
    mapNumbersOfMembers change members =
      members.map fun member => (member.1, member.2.mapNumbers change) := by
  induction members with
  | nil => rfl
  | cons member members ih => rw [mapNumbersOfMembers, ih, List.map_cons]

theorem get?_mapNumbersOfMembers (members : Record) (key : String) :
    Record.get? (mapNumbersOfMembers change members) key =
      (Record.get? members key).map (mapNumbers change) := by
  induction members with
  | nil => rfl
  | cons member members ih =>
      obtain ⟨other, value⟩ := member
      rw [mapNumbersOfMembers, Record.get?_cons, Record.get?_cons, ih]
      split <;> rfl

/-- The keys stay as they are. -/
theorem ascending_mapNumbersOfMembers {members : Record} (ascending : members.Ascending) :
    (mapNumbersOfMembers change members).Ascending := by
  rw [mapNumbersOfMembers_eq_map]
  exact List.pairwise_map.mpr ascending

variable {change}

/-- A value is unchanged exactly when every number in it is. -/
theorem mapNumbers_eq_self_iff {value : Value} :
    value.mapNumbers change = value ↔ ∀ number ∈ value.numbers, change number = number := by
  induction value using inductionOn with
  | null => simp [mapNumbers, numbers]
  | bool truth => simp [mapNumbers, numbers]
  | number numeral => simp [mapNumbers, numbers]
  | string text => simp [mapNumbers, numbers]
  | array items ih =>
      have itemwise : items.map (mapNumbers change) = items ↔
          ∀ item ∈ items, item.mapNumbers change = item := by
        conv_lhs => rhs; rw [← List.map_id items]
        exact List.map_inj_left
      rw [mapNumbers, mapNumbersOfItems_eq_map, array.injEq, itemwise]
      simp only [numbers, mem_numbersOfItems_iff]
      constructor
      · rintro unchanged number ⟨item, isItem, isNumber⟩
        exact (ih item isItem).mp (unchanged item isItem) number isNumber
      · intro unchanged item isItem
        exact (ih item isItem).mpr fun number isNumber => unchanged number ⟨item, isItem, isNumber⟩
  | object members ih =>
      have memberwise :
          members.map (fun member => (member.1, member.2.mapNumbers change)) = members ↔
            ∀ member ∈ members, member.2.mapNumbers change = member.2 := by
        conv_lhs => rhs; rw [← List.map_id members]
        rw [List.map_inj_left]
        simp [Prod.ext_iff]
      rw [mapNumbers, mapNumbersOfMembers_eq_map, object.injEq, memberwise]
      simp only [numbers, mem_numbersOfMembers_iff]
      constructor
      · rintro unchanged number ⟨member, isMember, isNumber⟩
        exact (ih member isMember).mp (unchanged member isMember) number isNumber
      · intro unchanged member isMember
        exact (ih member isMember).mpr fun number isNumber =>
          unchanged number ⟨member, isMember, isNumber⟩

theorem mapNumbers_id (value : Value) : value.mapNumbers id = value :=
  mapNumbers_eq_self_iff.mpr fun _ _ => rfl

end MapNumbers

end Value

end Provenance.Json
