import Provenance.Document.Rule

/-!
# Sections

A document has two markers and four sections.  Each section has required keys
and rules of its own.  `Sections.ofDocument` takes the sections out of a
document: an absent section is read as an empty record, so that its required
keys are reported, and a section that is no object is kept as `none`, so that
its rules are not looked at.

`Sections.scan` is the structural check: the markers and section keys of the
root, then the sections in order.
-/

namespace Provenance

open Json

/-- A section of a document. -/
inductive Section where
  | source
  | projection
  | replay
  | proofSurface
  deriving DecidableEq, Repr

instance : Vocabulary Section where
  all := [.source, .projection, .replay, .proofSurface]
  name
    | .source => "source"
    | .projection => "projection"
    | .replay => "replay"
    | .proofSurface => "proof_surface"
  noun := "section"

namespace Section

/-- The key of a section in the root. -/
def key (which : Section) : String :=
  Vocabulary.name which

/-- The path of a field of a section. -/
def field (which : Section) (key : String) : String :=
  which.key ++ "." ++ key

/-- The keys that a section must have. -/
def requiredKeys : Section → List String
  | source =>
      ["collapse_result_hash", "collapse_trace_hash", "entropy", "invariants",
        "compression_ratio"]
  | projection => ["mode", "layout", "styling"]
  | replay =>
      ["replay_identity_required", "hash_projection", "input_hash", "render_deterministic"]
  | proofSurface => ["show_entropy", "show_invariants", "show_compression_ratio"]

/-- A field must be a content hash. -/
def hashRule (which : Section) (key : String) : Rule where
  finding := .notContentHash (which.field key)
  holds record := Field.isContentHash (record.get? key)

/-- A field must be true. -/
def trueRule (which : Section) (key : String) : Rule where
  finding := .notTrue (which.field key)
  holds record := Field.isTrue (record.get? key)

/-- The only layout of a conformant projection. -/
def deterministicLayout : String := "deterministic"

/-- The rules of the source.  An invariant list is judged by its names only
when it has no repetition. -/
def sourceRules : List Rule :=
  [source.hashRule "collapse_result_hash",
    source.hashRule "collapse_trace_hash",
    { finding := .notEqual (source.field "entropy") "0.21"
      holds := fun record => Field.isCanonicalEntropy (record.get? "entropy") },
    { finding := .invariantsNotUnique
      holds := fun record => Field.isUniqueList (record.get? "invariants") },
    { finding := .invariantsNotCanonical
      holds := fun record =>
        !Field.isUniqueList (record.get? "invariants") ||
          Field.isInvariantList (record.get? "invariants") },
    { finding := .ratioNotNonnegative
      holds := fun record => Field.isNonnegative (record.get? "compression_ratio") }]

/-- A flag of the styling must be true, if the styling is an object at all. -/
def stylingRule (flag : String) : Rule where
  finding := .notTrue (projection.field ("styling." ++ flag))
  holds record :=
    !Field.isRecord (record.get? "styling") || Field.hasTrue flag (record.get? "styling")

/-- A flag of the animation may not be set.  An animation that is no object has
no flags. -/
def animationRule (flag : String) : Rule where
  finding := .notFalse (projection.field ("animation." ++ flag))
  holds record := Field.isUnsetOrFalse ((record.get? "animation").bind (·.get? flag))

/-- The rules of the projection. -/
def projectionRules : List Rule :=
  [{ finding := .unknownMode
     holds := fun record => Field.isNamed Mode (record.get? "mode") },
    { finding := .notEqual (projection.field "layout") ("'" ++ deterministicLayout ++ "'")
      holds := fun record => Field.isText deterministicLayout (record.get? "layout") },
    { finding := .stylingNotRecord
      holds := fun record => Field.isRecord (record.get? "styling") },
    stylingRule "pure",
    stylingRule "no_runtime_injection",
    animationRule "allowed",
    animationRule "async"]

/-- The rules of the replay. -/
def replayRules : List Rule :=
  [replay.trueRule "replay_identity_required",
    replay.trueRule "render_deterministic",
    replay.hashRule "hash_projection",
    replay.hashRule "input_hash"]

/-- The rules of a section.  The proof surface has none beyond its keys. -/
def rules : Section → List Rule
  | source => sourceRules
  | projection => projectionRules
  | replay => replayRules
  | proofSurface => []

/-- Add the findings of a section: its absent keys, then its broken rules. -/
def check (which : Section) (record : Record) (findings : Findings) : Findings :=
  (findings.requireKeys record which.requiredKeys which.key).check which.rules record

end Section

/-! ## The root -/

/-- The rules of the root: the two markers of the format. -/
def rootRules : List Rule :=
  [{ finding := .notEqual "@kux" "'v1'"
     holds := fun root => Field.isText "v1" (root.get? "@kux") },
    { finding := .notEqual "@status" "'canonical'"
      holds := fun root => Field.isText "canonical" (root.get? "@status") }]

/-- The members of a document; one that is no object has none. -/
def rootOf (document : Value) : Record :=
  document.record?.getD []

/-- The sections of a document: a record, or `none` for a section that is
present but no object. -/
structure Sections where
  source : Option Record
  projection : Option Record
  replay : Option Record
  proofSurface : Option Record

namespace Sections

/-- A section by name. -/
def get (sections : Sections) : Section → Option Record
  | .source => sections.source
  | .projection => sections.projection
  | .replay => sections.replay
  | .proofSurface => sections.proofSurface

/-- The section under a key of the root; an absent one is empty. -/
def read (root : Record) (which : Section) : Option Record :=
  match root.get? which.key with
  | none => some []
  | some value => value.record?

/-- The sections of a document. -/
def ofDocument (document : Value) : Sections where
  source := read (rootOf document) .source
  projection := read (rootOf document) .projection
  replay := read (rootOf document) .replay
  proofSurface := read (rootOf document) .proofSurface

/-- The source is a record and declares the canonical entropy. -/
def entropyValid (sections : Sections) : Bool :=
  sections.source.any fun source => Field.isCanonicalEntropy (source.get? "entropy")

/-- Projection and replay are records that declare the deterministic layout and
deterministic rendering. -/
def deterministicProjection (sections : Sections) : Bool :=
  (sections.projection.any fun projection =>
      Field.isText Section.deterministicLayout (projection.get? "layout")) &&
    sections.replay.any fun replay => Field.isTrue (replay.get? "render_deterministic")

/-- Add the findings of a section, unless it is no record. -/
def checkSection (sections : Sections) (findings : Findings) (which : Section) : Findings :=
  match sections.get which with
  | some record => which.check record findings
  | none => findings

/-- All structural findings of a document: markers, section keys, sections. -/
def scan (document : Value) : Findings :=
  let root := rootOf document
  let ofRoot :=
    (Findings.empty.check rootRules root).requireKeys root (Vocabulary.names Section) "root"
  (Vocabulary.all : List Section).foldl (checkSection (ofDocument document)) ofRoot

end Sections

end Provenance
