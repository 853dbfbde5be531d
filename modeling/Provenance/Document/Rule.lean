import Provenance.Document.Finding
import Provenance.Hash.ContentHash

/-!
# Rules

A rule is a finding and the condition on a record under which it does not
arise.  The rules of a record are tried in order and all of them are tried:
whether one is broken never decides whether another one is looked at.
-/

namespace Provenance

open Json

/-- A condition on a record and the finding that stands for its violation. -/
structure Rule where
  finding : Finding
  holds : Record → Bool

/-- Add the findings of the rules that a record breaks. -/
def Findings.check (findings : Findings) (rules : List Rule) (record : Record) : Findings :=
  rules.foldl
    (fun findings rule =>
      if rule.holds record then findings else findings.push rule.finding)
    findings

/-- The findings of the broken rules are added behind what was there. -/
theorem Findings.entries_check (findings : Findings) (rules : List Rule) (record : Record) :
    (findings.check rules record).entries =
      findings.entries ++
        (rules.filter fun rule => !rule.holds record).map Rule.finding := by
  unfold check
  induction rules generalizing findings with
  | nil => simp
  | cons rule rules ih =>
      rw [List.foldl_cons, ih]
      by_cases kept : rule.holds record <;> simp [kept]

/-! ## Repetitions -/

/-- One of the items has the canonical form of an item in front of it, or one that was
seen before.  The search ends at the first repetition. -/
def hasDuplicatesFrom (seen : List (List UInt8)) : List Value → Bool
  | [] => false
  | item :: items =>
      seen.contains item.canonicalBytes || hasDuplicatesFrom (item.canonicalBytes :: seen) items

/-- Two of the items have one canonical form. -/
def hasDuplicates (items : List Value) : Bool :=
  hasDuplicatesFrom [] items

/-! ## Conditions on a field, which may be absent -/

/-- The double nearest to `0.21`, the only entropy of a conformant source. -/
def canonicalEntropy : Binary64 :=
  ⟨false, 0x3FCAE147AE147AE1, by decide⟩

theorem ofRatio?_canonicalEntropy : Binary64.ofRatio? 21 100 = some canonicalEntropy := by
  decide +kernel

namespace Field

/-- The field is a string with the given text. -/
def isText (expected : String) (field : Option Value) : Bool :=
  field.bind Value.string? == some expected

/-- The field is a content hash. -/
def isContentHash (field : Option Value) : Bool :=
  (field.bind Value.string?).any ContentHash.isWellFormed

/-- The field is a number whose nearest double is the canonical entropy. -/
def isCanonicalEntropy (field : Option Value) : Bool :=
  (field.bind Value.double?).any canonicalEntropy.sameValue

/-- The field is a number that is not negative. -/
def isNonnegative (field : Option Value) : Bool :=
  (field.bind Value.double?).any Binary64.isNonnegative

/-- The field is the value true. -/
def isTrue : Option Value → Bool
  | some (.bool true) => true
  | _ => false

/-- The field is absent, null or false. -/
def isUnsetOrFalse : Option Value → Bool
  | none => true
  | some .null => true
  | some (.bool false) => true
  | _ => false

/-- The field is the name of a member of a vocabulary. -/
def isNamed (α : Type) [Vocabulary α] (field : Option Value) : Bool :=
  ((field.bind Value.string?).bind (Vocabulary.ofName? (α := α))).isSome

/-- The field is a list with at least one item and without repetition. -/
def isUniqueList (field : Option Value) : Bool :=
  match field.bind Value.items? with
  | some items => !items.isEmpty && !hasDuplicates items
  | none => false

/-- The field is a list of which every item is the name of an invariant. -/
def isInvariantList (field : Option Value) : Bool :=
  (field.bind Value.items?).any fun items => items.all fun item => isNamed Invariant (some item)

/-- The field is an object with a member that is literally true. -/
def hasTrue (key : String) (field : Option Value) : Bool :=
  isTrue (field.bind (·.get? key))

/-- The field is an object. -/
def isRecord (field : Option Value) : Bool :=
  (field.bind Value.record?).isSome

end Field

end Provenance
