import Mathlib
import Provenance.Document.Identity
import Provenance.Proofs.Json.Writer

/-!
# What a projection hash depends on

A projection key is written as the canonical text of an object with four
members.  The text determines the four values up to the order of object members,
at any depth, and nothing else of the projection takes part.  The hash is the
digest of that text in hexadecimal digits, so keys with equal hashes and
different values are a collision of the digest.
-/

namespace Provenance

open Json

namespace ContentHash

theorem hexDigits_injective : Function.Injective hexDigits := by
  intro byte other equal
  have high : ∀ byte : UInt8, byte.toNat / 16 < 16 := fun byte => by
    have := byte.toNat_lt
    omega
  have low : ∀ byte : UInt8, byte.toNat % 16 < 16 := fun byte => Nat.mod_lt _ (by decide)
  obtain ⟨highEqual, lowEqual⟩ := List.cons.inj equal
  have sameHigh := congrArg hexValue highEqual
  have sameLow := congrArg hexValue (List.cons.inj lowEqual).1
  rw [hexValue_digitChar _ (high byte), hexValue_digitChar _ (high other)] at sameHigh
  rw [hexValue_digitChar _ (low byte), hexValue_digitChar _ (low other)] at sameLow
  apply UInt8.toNat_inj.mp
  rw [← Nat.div_add_mod byte.toNat 16, sameHigh, sameLow, Nat.div_add_mod]

theorem flatMap_hexDigits_injective :
    Function.Injective fun bytes : List UInt8 => bytes.flatMap hexDigits := by
  intro bytes others equal
  induction bytes generalizing others with
  | nil =>
      cases others with
      | nil => rfl
      | cons other others => simp [hexDigits] at equal
  | cons byte bytes ih =>
      cases others with
      | nil => simp [hexDigits] at equal
      | cons other others =>
          simp only [List.flatMap_cons] at equal
          obtain ⟨firstEqual, restEqual⟩ := List.append_inj equal rfl
          rw [hexDigits_injective firstEqual, ih restEqual]

/-- Content hashes are equal when the digests are. -/
theorem ofBytes_eq_iff {bytes others : List UInt8} :
    ofBytes bytes = ofBytes others ↔ Hash.Sha256.digest bytes = Hash.Sha256.digest others := by
  constructor
  · intro equal
    exact flatMap_hexDigits_injective (List.append_cancel_left (String.ofList_injective equal))
  · intro equal
    rw [ofBytes, equal, ← ofBytes]

end ContentHash

/-- Two different inputs with one digest. -/
def Hash.Sha256.IsCollision (bytes others : List UInt8) : Prop :=
  bytes ≠ others ∧ digest bytes = digest others

/-- Content hashes of different inputs are equal only by a collision. -/
theorem ContentHash.ofBytes_eq_iff_or_isCollision {bytes others : List UInt8} :
    ofBytes bytes = ofBytes others ↔
      bytes = others ∨ Hash.Sha256.IsCollision bytes others := by
  constructor
  · intro equal
    by_cases same : bytes = others
    · exact Or.inl same
    · exact Or.inr ⟨same, ofBytes_eq_iff.mp equal⟩
  · rintro (same | collision)
    · exact congrArg ofBytes same
    · exact ofBytes_eq_iff.mpr collision.2

/-! ## Projection keys -/

namespace ProjectionKey

/-- The fields of a projection that take part in its key. -/
def fields : List String :=
  ["mode", "layout", "styling"]

/-- The projection has everything that a key is made of. -/
def IsComplete (projection : Record) : Prop :=
  ∀ field ∈ fields, projection.contains field = true

instance (projection : Record) : Decidable (IsComplete projection) :=
  inferInstanceAs (Decidable (∀ field ∈ fields, projection.contains field = true))

/-- Two source hashes are the same and so are the projections in the fields that
take part. -/
def Agree (hash : Value) (projection : Record) (otherHash : Value) (other : Record) : Prop :=
  Value.Same hash otherHash ∧
    ∀ field ∈ fields, Option.Rel Value.Same (projection.get? field) (other.get? field)

theorem ofProjection?_eq_some {hash : Value} {projection : Record} {key : ProjectionKey} :
    ofProjection? hash projection = some key ↔
      key.collapseResultHash = hash ∧ projection.get? "mode" = some key.mode ∧
        projection.get? "layout" = some key.layout ∧
        projection.get? "styling" = some key.styling := by
  constructor
  · intro isKey
    unfold ofProjection? at isKey
    simp only [Option.bind_eq_bind, Option.bind_eq_some_iff] at isKey
    rcases isKey with ⟨mode, hasMode, layout, hasLayout, styling, hasStyling, isKey⟩
    obtain rfl := Option.some.inj isKey
    exact ⟨rfl, hasMode, hasLayout, hasStyling⟩
  · rintro ⟨rfl, hasMode, hasLayout, hasStyling⟩
    simp [ofProjection?, hasMode, hasLayout, hasStyling]

/-- A complete projection has a key. -/
theorem IsComplete.exists_key {projection : Record} (complete : IsComplete projection)
    (hash : Value) : ∃ key, ofProjection? hash projection = some key := by
  obtain ⟨mode, hasMode⟩ := Option.isSome_iff_exists.mp (complete "mode" (by decide))
  obtain ⟨layout, hasLayout⟩ := Option.isSome_iff_exists.mp (complete "layout" (by decide))
  obtain ⟨styling, hasStyling⟩ := Option.isSome_iff_exists.mp (complete "styling" (by decide))
  exact ⟨⟨hash, mode, layout, styling⟩,
    ofProjection?_eq_some.mpr ⟨rfl, hasMode, hasLayout, hasStyling⟩⟩

/-- Keys are the same as objects when their four values are. -/
theorem toValue_same_iff {key other : ProjectionKey} :
    Value.Same key.toValue other.toValue ↔
      Value.Same key.collapseResultHash other.collapseResultHash ∧
        Value.Same key.mode other.mode ∧ Value.Same key.layout other.layout ∧
        Value.Same key.styling other.styling := by
  constructor
  · intro same
    cases same with
    | object agree =>
        exact ⟨Option.rel_some_some.mp (agree "collapse_result_hash"),
          Option.rel_some_some.mp (agree "mode"), Option.rel_some_some.mp (agree "layout"),
          Option.rel_some_some.mp (agree "styling")⟩
  · rintro ⟨sameHash, sameMode, sameLayout, sameStyling⟩
    apply Value.Same.object
    intro name
    simp only [Record.get?_cons, Record.get?_nil]
    split
    · exact .some sameHash
    split
    · exact .some sameLayout
    split
    · exact .some sameMode
    split
    · exact .some sameStyling
    · exact .none

/-- Keys have equal canonical bytes when what they are made of agrees. -/
private theorem canonicalBytes_eq_iff_agree {hash otherHash : Value} {projection other : Record}
    {key otherKey : ProjectionKey} (isKey : ofProjection? hash projection = some key)
    (isOtherKey : ofProjection? otherHash other = some otherKey) :
    key.toValue.canonicalBytes = otherKey.toValue.canonicalBytes ↔
      Agree hash projection otherHash other := by
  obtain ⟨rfl, hasMode, hasLayout, hasStyling⟩ := ofProjection?_eq_some.mp isKey
  obtain ⟨rfl, otherMode, otherLayout, otherStyling⟩ := ofProjection?_eq_some.mp isOtherKey
  rw [Value.canonicalBytes_eq_iff, toValue_same_iff]
  simp [Agree, fields, hasMode, hasLayout, hasStyling, otherMode, otherLayout, otherStyling]

/-- Keys have equal canonical bytes exactly when the source hashes, the modes,
the layouts and the stylings are pairwise the same, whatever else the
projections hold; and equal hashes exactly then, or else their canonical bytes
are a collision of the digest. -/
theorem canonicalBytes_projectionKey {hash otherHash : Value} {projection other : Record}
    (complete : IsComplete projection) (otherComplete : IsComplete other) :
    ∃ key otherKey,
      ofProjection? hash projection = some key ∧ ofProjection? otherHash other = some otherKey ∧
        (key.toValue.canonicalBytes = otherKey.toValue.canonicalBytes ↔
          Agree hash projection otherHash other) ∧
        (key.hash = otherKey.hash ↔
          Agree hash projection otherHash other ∨
            Hash.Sha256.IsCollision key.toValue.canonicalBytes
              otherKey.toValue.canonicalBytes) := by
  obtain ⟨key, isKey⟩ := complete.exists_key hash
  obtain ⟨otherKey, isOtherKey⟩ := otherComplete.exists_key otherHash
  have sameBytes := canonicalBytes_eq_iff_agree isKey isOtherKey
  refine ⟨key, otherKey, isKey, isOtherKey, sameBytes, ?_⟩
  rw [← sameBytes]
  constructor
  · intro equal
    by_cases same : key.toValue.canonicalBytes = otherKey.toValue.canonicalBytes
    · exact Or.inl same
    · exact Or.inr ⟨same, ContentHash.ofBytes_eq_iff.mp equal⟩
  · rintro (same | collision)
    · exact congrArg ContentHash.ofBytes same
    · exact ContentHash.ofBytes_eq_iff.mpr collision.2

/-- The order of members and an animation make no difference. -/
theorem canonicalBytes_projectionKey_reordered :
    let pure : String × Value := ("pure", .bool true)
    let injection : String × Value := ("no_runtime_injection", .bool true)
    let projection : Record :=
      [("mode", .string "svg"), ("layout", .null), ("styling", .object [pure, injection])]
    let other : Record :=
      [("styling", .object [injection, pure]), ("animation", .null), ("layout", .null),
        ("mode", .string "svg")]
    IsComplete projection ∧ IsComplete other ∧
      ∃ key otherKey, ofProjection? (.string "result") projection = some key ∧
        ofProjection? (.string "result") other = some otherKey ∧ key.hash = otherKey.hash := by
  intro pure injection projection other
  have complete : IsComplete projection := by decide
  have otherComplete : IsComplete other := by decide
  refine ⟨complete, otherComplete, ?_⟩
  obtain ⟨key, otherKey, isKey, isOtherKey, _, hashes⟩ :=
    @canonicalBytes_projectionKey (.string "result") (.string "result") _ _ complete
      otherComplete
  refine ⟨key, otherKey, isKey, isOtherKey, hashes.mpr (Or.inl ⟨.string _, ?_⟩)⟩
  intro field isField
  have sameStyling : Value.Same (.object [pure, injection]) (.object [injection, pure]) :=
    .of_sortKeys_eq rfl
  simp only [fields, List.mem_cons, List.not_mem_nil, or_false] at isField
  rcases isField with rfl | rfl | rfl
  · exact .some (.string "svg")
  · exact .some .null
  · exact .some sameStyling

end ProjectionKey

end Provenance
