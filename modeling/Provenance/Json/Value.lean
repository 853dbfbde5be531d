import Provenance.Binary64.Basic

/-!
# JSON values

The data that documents are made of.  A number is an integer of at most
sixty-four bits or a finite double; the two are different values even when they
are equal as numbers.  The members of an object are a list of keyed values, and
a key is looked up from the front.

A *record* is the list of members of an object.  Records built with `insert`
have strictly ascending keys, so they depend only on what was inserted last
under each key; `sortKeys` brings any value into this form at every level.
-/

namespace Provenance.Json

/-- A JSON number. -/
inductive Number where
  /-- An integer of the signed or the unsigned sixty-four bit range. -/
  | integer (value : Int)
      (inRange : -0x8000000000000000 ≤ value ∧ value < 0x10000000000000000)
  /-- A finite double. -/
  | double (value : Binary64)
  deriving DecidableEq, Repr

/-- A JSON value. -/
inductive Value where
  | null
  | bool (value : Bool)
  | number (value : Number)
  | string (value : String)
  | array (items : List Value)
  | object (members : List (String × Value))
  deriving Repr

/-- The members of an object. -/
abbrev Record := List (String × Value)

/-- The double nearest to a number.  Integers of sixty-four bits are far from
overflow, so there always is one. -/
def Number.nearest? : Number → Option Binary64
  | .integer value _ => (Binary64.ofNat? value.natAbs).map (.withSign (value < 0))
  | .double value => some value

/-- A natural number below `2^64` as a JSON number. -/
def Number.ofNat (n : Nat) (bound : n < 0x10000000000000000) : Number :=
  .integer n (by omega)

/-! ## Records -/

namespace Record

/-- The value under a key. -/
def get? (record : Record) (key : String) : Option Value :=
  record.lookup key

/-- The key is present. -/
def contains (record : Record) (key : String) : Bool :=
  (record.get? key).isSome

/-- Set the value under a key, keeping the keys in ascending order. -/
def insert (key : String) (value : Value) : Record → Record
  | [] => [(key, value)]
  | (other, kept) :: rest =>
      if key < other then (key, value) :: (other, kept) :: rest
      else if key = other then (key, value) :: rest
      else (other, kept) :: insert key value rest

/-- The record of a list of members: of two members with one key the later one
counts. -/
def ofMembers (members : List (String × Value)) : Record :=
  members.foldl (fun record member => insert member.1 member.2 record) []

@[simp]
theorem get?_nil (key : String) : get? [] key = none :=
  rfl

theorem get?_cons (other : String) (kept : Value) (record : Record) (key : String) :
    get? ((other, kept) :: record) key = if key = other then some kept else record.get? key := by
  by_cases same : key = other
  · simp [get?, same]
  · simp [get?, List.lookup_cons, same, beq_false_of_ne same]

/-- What was inserted is found under its key, and nothing changes under any
other key. -/
theorem get?_insert (key : String) (value : Value) (record : Record) (wanted : String) :
    (insert key value record).get? wanted =
      if wanted = key then some value else record.get? wanted := by
  induction record with
  | nil => simp [insert, get?_cons]
  | cons member record ih =>
      obtain ⟨other, kept⟩ := member
      unfold insert
      split
      · rw [get?_cons]
      · split
        · next equal => subst equal; simp only [get?_cons]; split <;> rfl
        · next different =>
            rw [get?_cons, get?_cons, ih]
            by_cases same : wanted = other
            · subst same
              simp [Ne.symm different]
            · simp [same]

end Record

/-! ## Views of a value -/

namespace Value

/-- The members of an object. -/
def record? : Value → Option Record
  | object members => some members
  | _ => none

/-- The items of an array. -/
def items? : Value → Option (List Value)
  | array items => some items
  | _ => none

/-- The text of a string. -/
def string? : Value → Option String
  | string text => some text
  | _ => none

/-- The double nearest to a number. -/
def double? : Value → Option Binary64
  | number value => value.nearest?
  | _ => none

/-- The value under a key of an object. -/
def get? (value : Value) (key : String) : Option Value :=
  value.record?.bind (·.get? key)

/-! ## Member order -/

mutual

/-- The same value with the members of every object in ascending key order. -/
def sortKeys : Value → Value
  | array items => array (sortItems items)
  | object members => object (sortMembers members)
  | value => value
termination_by structural value => value

/-- Sort the members of every item. -/
def sortItems : List Value → List Value
  | [] => []
  | item :: items => item.sortKeys :: sortItems items
termination_by structural items => items

/-- Sort the members of an object and those of its values; of two members with
one key the first one counts, as it does in a look-up. -/
def sortMembers : List (String × Value) → Record
  | [] => []
  | (key, value) :: members => Record.insert key value.sortKeys (sortMembers members)
termination_by structural members => members

end

end Value

end Provenance.Json
