import Mathlib
import Provenance.Proofs.Json.Same

/-!
# Records of members

Inserting and erasing change what is under one key and nothing else.

The record of a list of members, looked at key by key: the last member with a
key counts (`get?_ofMembers_cons`).  So it does not depend on the order of
members with distinct keys (`ofMembers_eq_of_perm`), nor on a member whose key
comes again (`ofMembers_overridden`).
-/

namespace Provenance.Json.Record

theorem get?_insert_self (key : String) (value : Value) (record : Record) :
    (insert key value record).get? key = some value := by
  rw [get?_insert, if_pos rfl]

theorem get?_insert_of_ne {key wanted : String} (different : wanted ≠ key) (value : Value)
    (record : Record) : (insert key value record).get? wanted = record.get? wanted := by
  rw [get?_insert, if_neg different]

/-- Inserting the same member again changes nothing. -/
theorem insert_insert (key : String) (value : Value) (record : Record) :
    insert key value (insert key value record) = insert key value record := by
  have again (rest : Record) : insert key value ((key, value) :: rest) = (key, value) :: rest := by
    rw [insert, if_neg (lt_irrefl key), if_pos rfl]
  induction record with
  | nil => exact again []
  | cons member record ih =>
      obtain ⟨other, kept⟩ := member
      by_cases less : key < other
      · rw [insert, if_pos less]
        exact again _
      by_cases same : key = other
      · rw [insert, if_neg less, if_pos same]
        exact again _
      · rw [insert, if_neg less, if_neg same, insert, if_neg less, if_neg same, ih]

/-- Remove the members with a key. -/
def erase (key : String) (record : Record) : Record :=
  record.filter fun member => member.1 ≠ key

/-- Nothing is found under the key, and nothing changes under any other key. -/
theorem get?_erase (key : String) (record : Record) (wanted : String) :
    (erase key record).get? wanted = if wanted = key then none else record.get? wanted := by
  induction record with
  | nil => exact (ite_self none).symm
  | cons member record ih =>
      obtain ⟨other, kept⟩ := member
      by_cases erased : other = key
      · subst erased
        rw [erase, List.filter_cons_of_neg (by simp), ← erase, ih, get?_cons]
        split <;> rfl
      · rw [erase, List.filter_cons_of_pos (by simpa using erased), ← erase, get?_cons, get?_cons,
          ih]
        by_cases same : wanted = other
        · rw [if_pos same, if_neg (same ▸ erased), if_pos same]
        · rw [if_neg same, if_neg same]

/-! ## Records of lists of members -/

instance (record : Record) : Decidable record.Ascending :=
  inferInstanceAs (Decidable (List.Pairwise _ record))

theorem ascending_ofMembers (members : List (String × Value)) : (ofMembers members).Ascending := by
  have onto : ∀ record : Record, record.Ascending → (members.foldl
      (fun record member => insert member.1 member.2 record) record).Ascending := by
    induction members with
    | nil => exact fun record ascending => ascending
    | cons member members ih =>
        exact fun record ascending => ih _ (ascending.insert member.1 member.2)
  exact onto [] List.Pairwise.nil

/-- Nothing stands in the record of members but members. -/
theorem mem_of_mem_ofMembers {members : List (String × Value)} {member : String × Value}
    (isMember : member ∈ ofMembers members) : member ∈ members := by
  have onto : ∀ record : Record, member ∈ members.foldl
      (fun record member => insert member.1 member.2 record) record →
      member ∈ members ∨ member ∈ record := by
    clear isMember
    induction members with
    | nil => exact fun record inRecord => .inr inRecord
    | cons first members ih =>
        intro record isMember
        rcases ih _ isMember with inMembers | inserted
        · exact .inl (List.mem_cons_of_mem _ inMembers)
        · rcases mem_insert inserted with rfl | inRecord
          · exact .inl List.mem_cons_self
          · exact .inr inRecord
  exact (onto [] isMember).resolve_right List.not_mem_nil

/-- What is inserted last is found first. -/
theorem get?_foldl_insert (members : List (String × Value)) (record : Record) (key : String) :
    (members.foldl (fun record member => insert member.1 member.2 record) record).get? key =
      ((ofMembers members).get? key).or (record.get? key) := by
  induction members generalizing record with
  | nil => rfl
  | cons member members ih =>
      rw [ofMembers, List.foldl_cons, List.foldl_cons, ih, ih (insert member.1 member.2 []),
        get?_insert, get?_insert]
      by_cases same : key = member.1
      · simp [same]
      · simp [same]

/-- Of two members with one key the later one counts. -/
theorem get?_ofMembers_cons (member : String × Value) (members : List (String × Value))
    (key : String) : (ofMembers (member :: members)).get? key =
      ((ofMembers members).get? key).or (if key = member.1 then some member.2 else none) := by
  rw [ofMembers, List.foldl_cons, get?_foldl_insert, get?_insert, get?_nil]

/-- Exactly the keys of the members are present. -/
theorem get?_ofMembers_eq_none_iff {members : List (String × Value)} {key : String} :
    (ofMembers members).get? key = none ↔ key ∉ members.map Prod.fst := by
  induction members with
  | nil => simp [ofMembers]
  | cons member members ih =>
      rw [get?_ofMembers_cons, Option.or_eq_none_iff, ih]
      simp [and_comm]

/-- Members with distinct keys are all found. -/
theorem get?_ofMembers_eq_some_iff {members : List (String × Value)}
    (distinct : (members.map Prod.fst).Nodup) {key : String} {value : Value} :
    (ofMembers members).get? key = some value ↔ (key, value) ∈ members := by
  induction members with
  | nil => simp [ofMembers]
  | cons member members ih =>
      obtain ⟨other, kept⟩ := member
      obtain ⟨isNew, distinct⟩ := List.nodup_cons.mp distinct
      rw [get?_ofMembers_cons, List.mem_cons, Prod.mk.injEq]
      by_cases same : key = other
      · subst same
        have absent : (ofMembers members).get? key = none := get?_ofMembers_eq_none_iff.mpr isNew
        have notMember : (key, value) ∉ members := fun isMember =>
          isNew (List.mem_map.mpr ⟨_, isMember, rfl⟩)
        simp [absent, notMember, eq_comm]
      · simp [same, ih distinct]

/-- The order of members with distinct keys does not matter. -/
theorem ofMembers_eq_of_perm {members others : List (String × Value)} (perm : members.Perm others)
    (distinct : (members.map Prod.fst).Nodup) : ofMembers members = ofMembers others := by
  apply (ascending_ofMembers members).ext (ascending_ofMembers others)
  intro key
  have otherDistinct : (others.map Prod.fst).Nodup := (perm.map Prod.fst).nodup_iff.mp distinct
  ext value
  rw [get?_ofMembers_eq_some_iff distinct, get?_ofMembers_eq_some_iff otherDistinct]
  exact perm.mem_iff

/-- A member does not matter if its key comes again. -/
theorem ofMembers_overridden (before : List (String × Value)) {member : String × Value}
    {after : List (String × Value)} (again : member.1 ∈ after.map Prod.fst) :
    ofMembers (before ++ member :: after) = ofMembers (before ++ after) := by
  apply (ascending_ofMembers _).ext (ascending_ofMembers _)
  intro key
  have behind : (ofMembers (member :: after)).get? key = (ofMembers after).get? key := by
    rw [get?_ofMembers_cons]
    by_cases same : key = member.1
    · obtain ⟨value, found⟩ := Option.ne_none_iff_exists'.mp
        (mt get?_ofMembers_eq_none_iff.mp (not_not.mpr (same ▸ again)))
      rw [found]
      rfl
    · rw [if_neg same, Option.or_none]
  rw [ofMembers, ofMembers, List.foldl_append, List.foldl_append, get?_foldl_insert, behind,
    get?_foldl_insert after]

/-- With distinct keys, every member is found. -/
theorem get?_eq_some_iff {record : Record} (distinct : (record.map Prod.fst).Nodup) {key : String}
    {value : Value} : record.get? key = some value ↔ (key, value) ∈ record := by
  constructor
  · exact mem_of_get?_eq_some
  · intro isMember
    induction record with
    | nil => contradiction
    | cons member record ih =>
        obtain ⟨other, kept⟩ := member
        obtain ⟨isNew, distinct⟩ := List.nodup_cons.mp distinct
        rw [get?_cons]
        rcases List.mem_cons.mp isMember with isFirst | inRest
        · obtain ⟨rfl, rfl⟩ := Prod.mk.inj isFirst
          exact if_pos rfl
        · have different : key ≠ other := by
            rintro rfl
            exact isNew (List.mem_map.mpr ⟨_, inRest, rfl⟩)
          rw [if_neg different]
          exact ih distinct inRest

/-- A record with ascending keys is the record of its members. -/
theorem ofMembers_eq_self {record : Record} (ascending : record.Ascending) :
    ofMembers record = record := by
  have distinct : (record.map Prod.fst).Nodup :=
    (List.pairwise_map.mpr ascending).imp fun less => less.ne
  apply (ascending_ofMembers record).ext ascending
  intro key
  ext value
  rw [get?_ofMembers_eq_some_iff distinct, get?_eq_some_iff distinct]

end Provenance.Json.Record
