import Provenance.Document.Section

/-!
# The identity of a replay

A replay declares the hash of the projection that it replays.  The hash is
computed over four values, taken from the document as they are: the hash of the
collapse result and the mode, the layout and the styling of the projection.
Nothing else of the document takes part.
-/

namespace Provenance

open Json

/-- The four values that a projection is identified by. -/
structure ProjectionKey where
  collapseResultHash : Value
  mode : Value
  layout : Value
  styling : Value

namespace ProjectionKey

/-- The key for a result hash and a projection that has a mode, a layout and a
styling. -/
def ofProjection? (collapseResultHash : Value) (projection : Record) : Option ProjectionKey := do
  let mode ← projection.get? "mode"
  let layout ← projection.get? "layout"
  let styling ← projection.get? "styling"
  pure ⟨collapseResultHash, mode, layout, styling⟩

/-- The key as an object. -/
def toValue (key : ProjectionKey) : Value :=
  .object
    [("collapse_result_hash", key.collapseResultHash), ("layout", key.layout),
      ("mode", key.mode), ("styling", key.styling)]

/-- The canonical text of the key. -/
def canonical (key : ProjectionKey) : String :=
  key.toValue.canonical

/-- The content hash of the canonical text. -/
def hash (key : ProjectionKey) : String :=
  ContentHash.ofBytes key.toValue.canonicalBytes

end ProjectionKey

/-- What the comparison of the declared and the computed hash says. -/
inductive ReplayIdentity where
  /-- The declared hash is the computed one. -/
  | matched (hash : String)
  /-- Another hash is declared, or none, or something that is no string. -/
  | mismatched (expected : String) (declared : Option String)
  /-- There is nothing to compute a hash of. -/
  | undetermined
  deriving DecidableEq, Repr

namespace ReplayIdentity

/-- The hashes agree. -/
def isValid : ReplayIdentity → Bool
  | matched _ => true
  | _ => false

/-- The computed hash, if there is one. -/
def expectedHash? : ReplayIdentity → Option String
  | matched hash => some hash
  | mismatched expected _ => some expected
  | undetermined => none

end ReplayIdentity

namespace Sections

/-- The projection key of a document, if source and projection are records that
have its parts. -/
def projectionKey? (sections : Sections) : Option ProjectionKey := do
  let source ← sections.source
  let projection ← sections.projection
  let collapseResultHash ← source.get? "collapse_result_hash"
  ProjectionKey.ofProjection? collapseResultHash projection

/-- What the replay declares as projection hash. -/
def declaredHash? (sections : Sections) : Option Value :=
  sections.replay.bind (·.get? "hash_projection")

/-- Compare the declared with the computed hash.  The values need not satisfy
the rules of their sections, but the replay must be a record. -/
def identity (sections : Sections) : ReplayIdentity :=
  match sections.replay, sections.projectionKey? with
  | some _, some key =>
      let declared := sections.declaredHash?.bind Value.string?
      if declared = some key.hash then .matched key.hash else .mismatched key.hash declared
  | _, _ => .undetermined

/-- Compare the hashes and add a finding if they differ. -/
def checkIdentity (sections : Sections) (findings : Findings) : ReplayIdentity × Findings :=
  match sections.identity with
  | .mismatched expected declared =>
      (.mismatched expected declared, findings.push .identityMismatch)
  | outcome => (outcome, findings)

/-- The outcome does not depend on what was found before. -/
@[simp]
theorem checkIdentity_fst (sections : Sections) (findings : Findings) :
    (sections.checkIdentity findings).1 = sections.identity := by
  unfold checkIdentity
  split <;> simp_all

end Sections

end Provenance
