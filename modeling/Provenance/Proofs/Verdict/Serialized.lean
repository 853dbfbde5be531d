import Mathlib
import Provenance.Verdict.Reader
import Provenance.Proofs.Json.RoundTrip

/-!
# Verdicts are read back

The fields of a verdict are found in a text one after another, whatever their order
(`Verdict.ofBytes_spelled`): each one is copied into the draft of the fields that were
read before it, and once all have been copied the draft is the verdict.  So a verdict
is read back from every text that spells its six members, among them its line, its
canonical form and the indented text that is printed for it.
-/

namespace Provenance

namespace Json

namespace Spelling

variable {levels : Nat}

/-- The string that is meant. -/
def string? (levels : Nat) (spelling : Spelling) : Option String :=
  (spelling.value? levels).bind Value.string?

/-- Items that mean strings, taken as these. -/
theorem mapM_string? {items : List (Spaced Spelling)} {texts : List String}
    (means : (items.mapM fun item => item.content.value? levels) = some (texts.map .string)) :
    (items.mapM fun item => string? levels item.content) = some texts := by
  induction items generalizing texts with
  | nil => simpa using means
  | cons item items ih =>
      obtain ⟨value, others, isValue, areOthers, same⟩ := mapM_cons_eq_some_iff.mp means
      obtain ⟨text, texts, rfl, rfl, rfl⟩ := List.map_eq_cons_iff.mp same
      refine mapM_cons_eq_some_iff.mpr ⟨text, texts, ?_, ih areOthers, rfl⟩
      rw [string?, isValue]
      rfl

end Spelling

end Json

namespace Verdict

open Json
open Json.Reader (ascii Brackets skipBlanks skipBlanks_append solid_cons)
open Text.Utf8 (encode)

/-- The value of a field in the JSON form. -/
def fieldValue (verdict : Verdict) : FieldName → Value
  | .deterministicProjection => .bool verdict.deterministicProjection
  | .entropyValid => .bool verdict.entropyValid
  | .errors => .array (verdict.errors.map .string)
  | .passed => .bool verdict.passed
  | .replayIdentityValid => .bool verdict.replayIdentityValid
  | .schemaValid => .bool verdict.schemaValid

/-- The member of a field in the JSON form. -/
def member (verdict : Verdict) (name : FieldName) : String × Value :=
  (Vocabulary.name name, verdict.fieldValue name)

theorem toValue_eq (verdict : Verdict) :
    verdict.toValue = .object (Vocabulary.all.map verdict.member) :=
  rfl

/-- A field is found by its name. -/
theorem ofName?_name (name : FieldName) :
    Vocabulary.ofName? (Vocabulary.name name) = some name := by
  cases name <;> decide

namespace Draft

/-- The draft with one field of a verdict added. -/
def copy (draft : Draft) (verdict : Verdict) : FieldName → Draft
  | .deterministicProjection =>
      { draft with deterministicProjection := some verdict.deterministicProjection }
  | .entropyValid => { draft with entropyValid := some verdict.entropyValid }
  | .errors => { draft with errors := some verdict.errors }
  | .passed => { draft with passed := some verdict.passed }
  | .replayIdentityValid => { draft with replayIdentityValid := some verdict.replayIdentityValid }
  | .schemaValid => { draft with schemaValid := some verdict.schemaValid }

/-- The draft in which some fields of a verdict have been read. -/
def part (verdict : Verdict) (read : List FieldName) : Draft where
  deterministicProjection :=
    if .deterministicProjection ∈ read then some verdict.deterministicProjection else none
  entropyValid := if .entropyValid ∈ read then some verdict.entropyValid else none
  errors := if .errors ∈ read then some verdict.errors else none
  passed := if .passed ∈ read then some verdict.passed else none
  replayIdentityValid :=
    if .replayIdentityValid ∈ read then some verdict.replayIdentityValid else none
  schemaValid := if .schemaValid ∈ read then some verdict.schemaValid else none

theorem part_nil (verdict : Verdict) : part verdict [] = empty :=
  rfl

theorem has_part (verdict : Verdict) (read : List FieldName) (name : FieldName) :
    (part verdict read).has name = decide (name ∈ read) := by
  cases name <;> simp [has, part] <;> split <;> simp_all

theorem copy_part (verdict : Verdict) (read : List FieldName) (name : FieldName) :
    (part verdict read).copy verdict name = part verdict (name :: read) := by
  cases name <;> simp [copy, part]

/-- The draft with all fields is the verdict. -/
theorem verdict_part {verdict : Verdict} {read : List FieldName} (all : ∀ name, name ∈ read) :
    (part verdict read).verdict = .ok verdict := by
  simp [part, Draft.verdict, all, required, bind, Except.bind]

end Draft

namespace Reader

variable {rest : List UInt8}

theorem flag_spelled (truth : Bool) (blanks : List Blank) :
    flag (Blank.bytes blanks ++ ((Spelling.bool truth).bytes ++ rest)) = .ok (truth, rest) := by
  have skipped (byte : UInt8) (tail : List UInt8) (notBlank : Json.Reader.isBlank byte = false) :
      skipBlanks (Blank.bytes blanks ++ byte :: tail) = byte :: tail :=
    skipBlanks_append blanks (solid_cons notBlank tail)
  cases truth with
  | true =>
      change flag (Blank.bytes blanks ++ ascii 't' :: _) = _
      rw [flag, skipped _ _ (by decide)]
      rfl
  | false =>
      change flag (Blank.bytes blanks ++ ascii 'f' :: _) = _
      rw [flag, skipped _ _ (by decide)]
      rfl

theorem error_spelled (spelled : TextSpelling) (blanks : List Blank) :
    error (Blank.bytes blanks ++ (spelled.bytes ++ rest)) = .ok (spelled.text, rest) := by
  have isBytes : spelled.bytes ++ rest =
      ascii '"' :: (spelled.flatMap CharSpelling.bytes ++ ascii '"' :: rest) := by
    simp [TextSpelling.bytes]
  rw [error, isBytes, skipBlanks_append blanks (solid_cons (by decide) _)]
  exact Json.Reader.text_spelled spelled

/-- A list of spelled strings is read as these. -/
theorem errors_spelled {items : List (Spaced Spelling)} {closing : List Blank} {levels : Nat}
    {texts : List String}
    (means : (items.mapM fun item => item.content.value? levels) = some (texts.map .string))
    (blanks : List Blank) :
    errors (Blank.bytes blanks ++ ((Spelling.array items closing).bytes ++ rest)) =
      .ok (texts, rest) := by
  have reads : ∀ item ∈ items, ∀ rest, Json.Reader.Delimited rest →
      (error (item.content.bytes ++ rest)).toOption =
        (Spelling.string? levels item.content).map (·, rest) := by
    intro item isItem rest _
    obtain ⟨value, isValue, isMeaning⟩ := exists_value_of_mapM means isItem
    obtain ⟨text, -, rfl⟩ := List.mem_map.mp isValue
    obtain ⟨spelled, isSpelled, rfl⟩ := Spelling.value?_eq_string_iff.mp isMeaning
    rw [Spelling.string?, isMeaning, isSpelled]
    exact congrArg Except.toOption (error_spelled spelled [])
  have gathered := Json.Reader.toOption_separated Brackets.distinct_list items
    (fun item _ rest => Json.Reader.begins_item item.content rest) reads closing rest
  rw [Spelling.mapM_string? means] at gathered
  rw [errors, Json.Reader.array_bytes_append,
    skipBlanks_append blanks (solid_cons (by decide) _)]
  exact toOption_eq_some_iff.mp gathered

/-- A spelled field of a verdict is copied into the draft. -/
theorem field_spelled {verdict : Verdict} {name : FieldName} {spelling : Spelling} {levels : Nat}
    (means : spelling.value? levels = some (verdict.fieldValue name)) (draft : Draft)
    (blanks : List Blank) :
    field draft name (Blank.bytes blanks ++ (spelling.bytes ++ rest)) =
      .ok (draft.copy verdict name, rest) := by
  have ofFlag {truth : Bool} (isTruth : spelling.value? levels = some (.bool truth)) :
      flag (Blank.bytes blanks ++ (spelling.bytes ++ rest)) = .ok (truth, rest) := by
    obtain rfl := Spelling.value?_eq_bool_iff.mp isTruth
    exact flag_spelled truth blanks
  cases name with
  | errors =>
      obtain ⟨items, closing, inner, rfl, rfl, mapped⟩ := Spelling.value?_eq_array_iff.mp means
      rw [field, Json.Reader.map, errors_spelled mapped]
      rfl
  | _ =>
      rw [field, Json.Reader.map, ofFlag means]
      rfl

/-- How a spelled member is added to a draft: its field must not have been read. -/
def take (verdict : Verdict) (draft : Draft) (keyed : Keyed Spelling) : Option Draft :=
  (Vocabulary.ofName? keyed.key.text).bind fun name =>
    if draft.has name then none else some (draft.copy verdict name)

theorem toOption_failInObject {α : Type} (cause : Cause) (rest : List UInt8) :
    (failInObject cause rest : Except Failure α).toOption = none := by
  rw [failInObject]
  split
  · rfl
  · split <;> rfl

section Member

variable {verdict : Verdict} {keyed : Keyed Spelling} {name : FieldName} {levels : Nat}
  (means : keyed.member? (Spelling.value? levels) = some (verdict.member name))

include means

/-- A spelled member of a verdict has the name of its field as key. -/
theorem ofName?_key : Vocabulary.ofName? keyed.key.text = some name := by
  obtain ⟨value, -, same⟩ := Option.map_eq_some_iff.mp means
  rw [(Prod.mk.inj same).1, ofName?_name]

/-- A spelled member of a verdict is copied into a draft that lacks its field. -/
theorem toOption_memberOf (draft : Draft) :
    (memberOf draft (keyed.bytes Spelling.bytes ++ rest)).toOption =
      (take verdict draft keyed).map (·, rest) := by
  have isName := ofName?_key means
  obtain ⟨value, isValue, same⟩ := Option.map_eq_some_iff.mp means
  obtain ⟨-, rfl⟩ := Prod.mk.inj same
  obtain ⟨key, beforeColon, behindColon, spelling⟩ := keyed
  have isBytes : Keyed.bytes Spelling.bytes ⟨key, beforeColon, behindColon, spelling⟩ ++ rest =
      ascii '"' :: (key.flatMap CharSpelling.bytes ++ ascii '"' ::
        (Blank.bytes beforeColon ++ ascii ':' ::
          (Blank.bytes behindColon ++ (spelling.bytes ++ rest)))) := by
    simp [Keyed.bytes, TextSpelling.bytes]
  rw [isBytes, memberOf, if_pos rfl, Json.Reader.text_spelled, take, isName]
  dsimp only [bind, Except.bind, Option.bind_some] at isName ⊢
  rw [isName]
  dsimp only
  by_cases isRead : draft.has name = true
  · rw [if_pos isRead, if_pos isRead]
    exact toOption_failInObject _ _
  · rw [if_neg isRead, if_neg isRead, Json.Reader.colon_eq_ok_iff.mpr ⟨beforeColon, rfl⟩]
    exact congrArg Except.toOption (field_spelled isValue draft behindColon)

/-- A field that has not been read is one more that has. -/
theorem take_part {read : List FieldName} (fresh : name ∉ read) :
    take verdict (Draft.part verdict read) keyed = some (Draft.part verdict (name :: read)) := by
  rw [take, ofName?_key means, Option.bind_some, Draft.has_part, if_neg (by simpa using fresh),
    Draft.copy_part]

end Member

section Members

variable {verdict : Verdict} {listed : List (Spaced (Keyed Spelling))} {names : List FieldName}
  {levels : Nat}
  (means : (listed.mapM fun member => member.content.member? (Spelling.value? levels)) =
    some (names.map verdict.member))

include means

/-- The members of different fields are read one after another. -/
theorem foldlM_take {read : List FieldName} (fresh : (names ++ read).Nodup) :
    (listed.foldlM (fun draft member => take verdict draft member.content)
      (Draft.part verdict read)) = some (Draft.part verdict (names.reverse ++ read)) := by
  induction names generalizing listed read with
  | nil =>
      cases listed with
      | nil => rfl
      | cons member listed =>
          obtain ⟨_, _, _, _, absurd⟩ := mapM_cons_eq_some_iff.mp means
          contradiction
  | cons name names ih =>
      cases listed with
      | nil => cases means
      | cons member listed =>
          obtain ⟨first, others, isFirst, areOthers, same⟩ := mapM_cons_eq_some_iff.mp means
          obtain ⟨rfl, rfl⟩ := List.cons.inj same
          have apart : name ∉ names ++ read := (List.nodup_cons.mp fresh).1
          have notRead : name ∉ read := fun isRead => apart (List.mem_append_right names isRead)
          have rest := ih areOthers (List.nodup_middle.mpr fresh)
          rw [List.foldlM_cons, take_part isFirst notRead]
          rw [List.reverse_cons, List.append_assoc]
          exact rest

/-- The members of all fields, in any order, are read as the verdict. -/
theorem ofMembers_spelled (complete : names.Perm Vocabulary.all) (closing : List Blank) :
    ofMembers (listedBytes (Keyed.bytes Spelling.bytes) true listed ++
      (Blank.bytes closing ++ Brackets.object.close :: rest)) = .ok (verdict, rest) := by
  have begins : ∀ member ∈ listed, ∀ rest, Json.Reader.Begins .object
      (member.content.bytes Spelling.bytes ++ rest) :=
    fun member _ rest => Json.Reader.begins_member member.content rest
  have reads : ∀ member ∈ listed, ∀ draft rest, Json.Reader.Delimited rest →
      (memberOf draft (member.content.bytes Spelling.bytes ++ rest)).toOption =
        (take verdict draft member.content).map (·, rest) := by
    intro member isMember draft rest _
    obtain ⟨pair, isPair, isMeaning⟩ := exists_value_of_mapM means isMember
    obtain ⟨name, -, rfl⟩ := List.mem_map.mp isPair
    exact toOption_memberOf isMeaning draft
  have distinct : names.Nodup := complete.nodup_iff.mpr (by decide)
  have gathered := Json.Reader.toOption_gather Brackets.distinct_object begins reads .empty
    closing rest
  have readAll := foldlM_take means ((List.append_nil names).symm ▸ distinct)
  rw [← Draft.part_nil verdict, readAll] at gathered
  have isComplete : ∀ name, name ∈ names.reverse ++ [] := by
    intro name
    rw [List.append_nil, List.mem_reverse, complete.mem_iff]
    cases name <;> decide
  rw [ofMembers]
  change (Json.Reader.gather .object memberOf (Draft.part verdict []) _ >>= fun found =>
    finish found.1 found.2) = _
  rw [toOption_eq_some_iff.mp gathered]
  change finish _ rest = _
  rw [finish, Draft.verdict_part isComplete]

end Members

end Reader

/-! ## Whole texts -/

/-- A verdict is read from any text of an object that spells its six members, in any
order. -/
theorem ofBytes_spelled {verdict : Verdict} {names : List FieldName}
    (complete : names.Perm Vocabulary.all) {listed : List (Spaced (Keyed Spelling))} {levels : Nat}
    (means : (listed.mapM fun member => member.content.member? (Spelling.value? levels)) =
      some (names.map verdict.member)) (before closing behind : List Blank) :
    ofBytes (WholeText.bytes ⟨before, .object listed closing, behind⟩) = .ok verdict := by
  have read : Reader.verdict (WholeText.bytes ⟨before, .object listed closing, behind⟩) =
      .ok (verdict, Blank.bytes behind) := by
    rw [WholeText.bytes, Reader.verdict, Json.Reader.object_bytes_append,
      skipBlanks_append before (solid_cons (by decide) _)]
    exact Reader.ofMembers_spelled means complete closing
  exact Json.Reader.complete_eq_ok_iff.mpr ⟨behind, read⟩

theorem ordered_fieldValue (verdict : Verdict) (name : FieldName) :
    (verdict.fieldValue name).Ordered := by
  cases name with
  | errors =>
      apply Value.Ordered.array
      intro item isItem
      obtain ⟨error, -, rfl⟩ := List.mem_map.mp isItem
      exact .string error
  | _ => exact .bool _

/-- The fields are declared in the order of their names. -/
theorem ordered_toValue (verdict : Verdict) : verdict.toValue.Ordered := by
  have sorted : (Vocabulary.all : List FieldName).Pairwise fun first second =>
      Vocabulary.name first < Vocabulary.name second := by
    decide
  rw [toValue_eq]
  apply Value.Ordered.object (List.pairwise_map.mpr sorted)
  intro member isMember
  obtain ⟨name, -, rfl⟩ := List.mem_map.mp isMember
  exact verdict.ordered_fieldValue name

theorem numbers_fieldValue (verdict : Verdict) (name : FieldName) :
    (verdict.fieldValue name).numbers = [] := by
  cases name with
  | errors =>
      rw [List.eq_nil_iff_forall_not_mem]
      intro number isNumber
      obtain ⟨item, isItem, inItem⟩ := Value.mem_numbersOfItems_iff.mp isNumber
      obtain ⟨error, -, rfl⟩ := List.mem_map.mp isItem
      contradiction
  | _ => rfl

/-- The text of a field is a spelling of its value. -/
theorem isMemberWrittenAs_member (verdict : Verdict) (layout : Layout) (name : FieldName) :
    Value.IsMemberWrittenAs layout (verdict.fieldValue name).depth (verdict.member name)
      (verdict.member name) := by
  have readAs : ∀ number ∈ (verdict.fieldValue name).numbers, number.IsReadAs (id number) := by
    rw [numbers_fieldValue]
    exact List.forall_mem_nil _
  have written := (verdict.fieldValue name).isWrittenAs_sortKeys readAs layout
  rw [(verdict.ordered_fieldValue name).sortKeys_eq, Value.mapNumbers_id] at written
  exact Value.isMemberWrittenAs_of_isWrittenAs written _

/-- A verdict is read back from its JSON form in any layout, whatever blanks follow. -/
theorem ofBytes_write (verdict : Verdict) (layout : Layout) (behind : List Blank) :
    ofBytes (encode (verdict.toValue.write layout) ++ Blank.bytes behind) = .ok verdict := by
  have each : ∀ member ∈ Vocabulary.all.map verdict.member,
      Value.IsMemberWrittenAs layout.inner verdict.toValue.depth member (id member) := by
    intro member isMember
    obtain ⟨name, isName, rfl⟩ := List.mem_map.mp isMember
    exact (verdict.isMemberWrittenAs_member layout.inner name).mono
      ((Value.depth_le_depthOfMembers isMember).trans (Nat.le_succ _))
  obtain ⟨listed, closing, isBytes, means⟩ := Value.exists_object_bytes each
  rw [toValue_eq, ← isBytes]
  rw [List.map_id] at means
  exact ofBytes_spelled (.refl _) (means _ le_rfl) [] closing behind

/-- A verdict is read back from its line, which has the bytes of the canonical form, from
the indented form and from the line that is printed for it. -/
theorem ofBytes_serialized (verdict : Verdict) :
    ofBytes (encode verdict.line.toList) = .ok verdict ∧
      encode verdict.line.toList = verdict.toValue.canonicalBytes ∧
      ofBytes (encode verdict.toValue.pretty.toList) = .ok verdict ∧
      ofBytes (encode (Command.unlines [verdict.toValue.pretty]).toList) = .ok verdict := by
  have sorted := verdict.ordered_toValue.sortKeys_eq
  have written (layout : Layout) :
      ofBytes (encode (verdict.toValue.write layout)) = .ok verdict := by
    have read := verdict.ofBytes_write layout []
    rwa [Blank.bytes, List.map_nil, List.append_nil] at read
  refine ⟨?_, ?_, ?_, ?_⟩
  · rw [line, String.toList_ofList]
    exact written .compact
  · rw [line, String.toList_ofList, Value.canonicalBytes, Value.canonicalText, sorted]
  · rw [Value.pretty, String.toList_ofList, sorted]
    exact written (.indented 0)
  · rw [Command.unlines_singleton, String.toList_append, Value.pretty, String.toList_ofList, sorted,
      Text.Utf8.encode_append]
    exact verdict.ofBytes_write (.indented 0) [.lineFeed]

end Verdict

end Provenance
