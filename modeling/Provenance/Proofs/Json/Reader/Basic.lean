import Mathlib
import Provenance.Proofs.Json.Spelling

/-!
# The parts of readers

What readers do with a text whose spelling is known, and how every text looks
that they accept: blanks, words, colons, and items with commas between them.

For items both directions speak about any reader of items that agrees with a way
to spell them, so arrays and objects share them.
-/

namespace Provenance.Json

/-- A result of two steps. -/
theorem bind_eq_ok_iff {ε α β : Type} {first : Except ε α} {next : α → Except ε β} {result : β} :
    (first >>= next) = .ok result ↔ ∃ value, first = .ok value ∧ next value = .ok result := by
  cases first with
  | error failure => simp [bind, Except.bind]
  | ok value => simp [bind, Except.bind]

/-- The result of two steps, failures left out. -/
theorem toOption_bind {ε α β : Type} (first : Except ε α) (next : α → Except ε β) :
    (first >>= next).toOption = first.toOption.bind fun value => (next value).toOption := by
  cases first <;> rfl

/-- A failure is no result. -/
theorem toOption_eq_some_iff {ε α : Type} {result : Except ε α} {value : α} :
    result.toOption = some value ↔ result = .ok value := by
  cases result <;> simp [Except.toOption]

namespace Reader

variable {bytes rest : List UInt8}

/-- What a reader yields when a function is applied to what it reads. -/
theorem map_eq_ok_iff {α β : Type} {f : α → β} {reader : Reader α} {result : β} :
    map f reader bytes = .ok (result, rest) ↔
      ∃ value, reader bytes = .ok (value, rest) ∧ f value = result := by
  rw [map, bind_eq_ok_iff]
  constructor
  · rintro ⟨⟨value, left⟩, read, same⟩
    obtain ⟨rfl, rfl⟩ := Prod.mk.inj (Except.ok.inj same)
    exact ⟨value, read, rfl⟩
  · rintro ⟨value, read, rfl⟩
    exact ⟨(value, rest), read, rfl⟩

/-- What a reader yields when a function is applied, failures left out. -/
theorem toOption_map {α β : Type} (f : α → β) (reader : Reader α) (bytes : List UInt8) :
    (map f reader bytes).toOption =
      (reader bytes).toOption.map fun (value, rest) => (f value, rest) := by
  rw [map, toOption_bind]
  cases (reader bytes).toOption <;> rfl

/-- Blanks are the bytes that are skipped. -/
theorem isBlank_iff {byte : UInt8} : isBlank byte = true ↔ ∃ blank, Blank.byte blank = byte := by
  constructor
  · intro isOne
    simp only [isBlank, Bool.or_eq_true, beq_iff_eq] at isOne
    rcases isOne with ((rfl | rfl) | rfl) | rfl
    · exact ⟨.space, rfl⟩
    · exact ⟨.lineFeed, rfl⟩
    · exact ⟨.tab, rfl⟩
    · exact ⟨.carriageReturn, rfl⟩
  · rintro ⟨blank, rfl⟩
    cases blank <;> rfl

/-- A text that does not begin with a blank. -/
def Solid (bytes : List UInt8) : Prop :=
  ∀ byte ∈ bytes.head?, isBlank byte = false

theorem solid_cons {byte : UInt8} (notBlank : isBlank byte = false) (rest : List UInt8) :
    Solid (byte :: rest) := by
  rintro first ⟨⟩
  exact notBlank

/-- Blanks are skipped up to what is none. -/
theorem skipBlanks_append (blanks : List Blank) (solid : Solid rest) :
    skipBlanks (Blank.bytes blanks ++ rest) = rest := by
  induction blanks with
  | nil =>
      cases rest with
      | nil => rfl
      | cons byte rest => exact List.dropWhile_cons_of_neg (by simp [solid byte rfl])
  | cons blank blanks ih =>
      rw [skipBlanks, Blank.bytes, List.map_cons, List.cons_append,
        List.dropWhile_cons_of_pos (isBlank_iff.mpr ⟨blank, rfl⟩)]
      exact ih

/-- What is skipped are blanks, and all of them. -/
theorem exists_blanks (bytes : List UInt8) :
    ∃ blanks, bytes = Blank.bytes blanks ++ skipBlanks bytes ∧ Solid (skipBlanks bytes) := by
  induction bytes with
  | nil => exact ⟨[], rfl, by rintro byte ⟨⟩⟩
  | cons byte bytes ih =>
      cases blank : isBlank byte with
      | false =>
          have kept : skipBlanks (byte :: bytes) = byte :: bytes :=
            List.dropWhile_cons_of_neg (by simp [blank])
          rw [kept]
          exact ⟨[], rfl, solid_cons blank bytes⟩
      | true =>
          have skipped : skipBlanks (byte :: bytes) = skipBlanks bytes :=
            List.dropWhile_cons_of_pos blank
          obtain ⟨first, rfl⟩ := isBlank_iff.mp blank
          obtain ⟨blanks, isRest, solid⟩ := ih
          rw [skipped]
          exact ⟨first :: blanks, congrArg (first.byte :: ·) isRest, solid⟩

/-- A word is read byte by byte. -/
theorem word_eq_ok_iff {α : Type} {value found : α} {chars : List Char} :
    word value chars bytes = .ok (found, rest) ↔
      found = value ∧ bytes = chars.map ascii ++ rest := by
  induction chars generalizing bytes with
  | nil =>
      rw [word, Except.ok.injEq, Prod.mk.injEq]
      simp [eq_comm]
  | cons char chars ih =>
      cases bytes with
      | nil => simp [word, failHere]
      | cons byte bytes =>
          rw [word]
          split
          · rename_i same
            subst same
            rw [ih]
            simp
          · rename_i different
            simp [failHere, different]

/-- A colon is read behind blanks. -/
theorem colon_eq_ok_iff :
    colon bytes = .ok ((), rest) ↔ ∃ blanks, bytes = Blank.bytes blanks ++ ascii ':' :: rest := by
  constructor
  · intro read
    obtain ⟨blanks, isBytes, -⟩ := exists_blanks bytes
    unfold colon at read
    split at read
    · contradiction
    · rename_i byte tail skipped
      split at read
      · rename_i isColon
        obtain ⟨-, rfl⟩ := Prod.mk.inj (Except.ok.inj read)
        exact ⟨blanks, isBytes.trans (by rw [skipped, isColon])⟩
      · contradiction
  · rintro ⟨blanks, rfl⟩
    have skipped : skipBlanks (Blank.bytes blanks ++ ascii ':' :: rest) = ascii ':' :: rest :=
      skipBlanks_append blanks (solid_cons (by decide) rest)
    unfold colon
    rw [skipped]
    rfl

/-! ## Separated items -/

/-- A text whose beginning no number can be carried on with. -/
def Delimited (bytes : List UInt8) : Prop :=
  ∀ byte ∈ bytes.head?,
    isDigit byte = false ∧ byte ≠ ascii '.' ∧ byte ≠ ascii 'e' ∧ byte ≠ ascii 'E'

/-- Blanks and what ends an item end a number. -/
theorem delimited_append (blanks : List Blank) (delimited : Delimited rest) :
    Delimited (Blank.bytes blanks ++ rest) := by
  cases blanks with
  | nil => exact delimited
  | cons blank blanks =>
      rintro byte ⟨⟩
      cases blank <;> decide

/-- The closing bracket can be told from what else may stand in its place. -/
structure Brackets.Distinct (brackets : Brackets) : Prop where
  notBlank : isBlank brackets.close = false
  notComma : ascii ',' ≠ brackets.close
  delimited (rest : List UInt8) : Delimited (brackets.close :: rest)

theorem Brackets.distinct_list : Brackets.list.Distinct where
  notBlank := by decide
  notComma := by decide
  delimited := by
    rintro rest byte ⟨⟩
    decide

theorem Brackets.distinct_object : Brackets.object.Distinct where
  notBlank := by decide
  notComma := by decide
  delimited := by
    rintro rest byte ⟨⟩
    decide

/-- A text at which another item is seen to begin. -/
structure Begins (brackets : Brackets) (bytes : List UInt8) : Prop where
  solid : Solid bytes
  notEmpty : bytes ≠ []
  notClosed : bytes.head? ≠ some brackets.close

section Another

variable {brackets : Brackets} {isFirst : Bool}

/-- No item is left in front of the closing bracket. -/
theorem another_close (distinct : brackets.Distinct) (blanks : List Blank) :
    another brackets isFirst (Blank.bytes blanks ++ brackets.close :: rest) =
      .ok (false, rest) := by
  unfold another
  rw [skipBlanks_append blanks (solid_cons distinct.notBlank rest)]
  exact if_pos rfl

/-- Blanks and a comma are passed up to the next item. -/
theorem another_item (distinct : brackets.Distinct) (begins : Begins brackets rest)
    (lead before : List Blank) :
    another brackets isFirst
      (Blank.bytes lead ++ (comma isFirst ++ (Blank.bytes before ++ rest))) =
        .ok (true, rest) := by
  obtain ⟨byte, tail, rfl⟩ := List.exists_cons_of_ne_nil begins.notEmpty
  have notClose : byte ≠ brackets.close := fun same => begins.notClosed (congrArg some same)
  unfold another
  cases isFirst with
  | true =>
      rw [comma, if_pos rfl, List.nil_append, ← List.append_assoc, ← Blank.bytes_append,
        skipBlanks_append _ begins.solid]
      simp only [if_neg notClose, if_true]
  | false =>
      have skipped : skipBlanks
          (Blank.bytes lead ++ ascii ',' :: (Blank.bytes before ++ byte :: tail)) =
            ascii ',' :: (Blank.bytes before ++ byte :: tail) :=
        skipBlanks_append lead (solid_cons (by decide) _)
      rw [comma, if_neg Bool.false_ne_true, List.singleton_append, skipped]
      simp only [if_neg distinct.notComma, Bool.false_eq_true, if_false, if_true,
        skipBlanks_append before begins.solid, if_neg begins.notClosed]

/-- What was passed when another item was looked for. -/
theorem of_another {more : Bool} (found : another brackets isFirst bytes = .ok (more, rest)) :
    (more = false ∧ ∃ blanks, bytes = Blank.bytes blanks ++ brackets.close :: rest) ∨
      (more = true ∧ Solid rest ∧ ∃ lead before, (isFirst = true → lead = []) ∧
        bytes = Blank.bytes lead ++ (comma isFirst ++ (Blank.bytes before ++ rest))) := by
  obtain ⟨blanks, isBytes, solid⟩ := exists_blanks bytes
  unfold another at found
  split at found
  · contradiction
  rename_i byte tail skipped
  rw [skipped] at isBytes solid
  split at found
  · rename_i closed
    obtain ⟨rfl, rfl⟩ := Prod.mk.inj (Except.ok.inj found)
    exact .inl ⟨rfl, blanks, closed ▸ isBytes⟩
  split at found
  · rename_i first
    obtain ⟨rfl, rfl⟩ := Prod.mk.inj (Except.ok.inj found)
    refine .inr ⟨rfl, solid, [], blanks, fun _ => rfl, ?_⟩
    rw [comma, if_pos first]
    exact isBytes
  split at found
  · rename_i notFirst isComma
    obtain ⟨before, isTail, tailSolid⟩ := exists_blanks tail
    dsimp only at found
    split at found
    · contradiction
    · obtain ⟨rfl, rfl⟩ := Prod.mk.inj (Except.ok.inj found)
      refine .inr ⟨rfl, tailSolid, blanks, before, fun first => absurd first notFirst, ?_⟩
      rw [comma, if_neg notFirst, ← isTail, ← isComma]
      exact isBytes
  · contradiction

end Another

section Gather

variable {σ α : Type} {brackets : Brackets} {item : σ → Reader σ}
  {spell : α → List UInt8} {take : σ → α → Option σ}

/-- Every item takes at least a byte. -/
theorem length_le_length_listedBytes {items : List (Spaced α)}
    (begins : ∀ item ∈ items, ∀ rest, Begins brackets (spell item.content ++ rest))
    (isFirst : Bool) : items.length ≤ (listedBytes spell isFirst items).length := by
  induction items generalizing isFirst with
  | nil => exact Nat.le_refl 0
  | cons item items ih =>
      have notEmpty : 0 < (spell item.content).length := by
        rw [← List.append_nil (spell item.content)]
        exact List.length_pos_iff.mpr (begins item (.head _) []).notEmpty
      have others := ih (fun item member => begins item (.tail _ member)) false
      rw [listedBytes]
      simp only [List.length_append, List.length_cons]
      omega

/-- Spelled items are gathered one after another. -/
theorem toOption_gatherFrom (distinct : brackets.Distinct) {items : List (Spaced α)}
    (begins : ∀ item ∈ items, ∀ rest, Begins brackets (spell item.content ++ rest))
    (reads : ∀ spaced ∈ items, ∀ gathered rest, Delimited rest →
      (item gathered (spell spaced.content ++ rest)).toOption =
        (take gathered spaced.content).map (·, rest))
    {clock : List UInt8} (enough : items.length < clock.length)
    (isFirst : Bool) (gathered : σ) (lead closing : List Blank) (rest : List UInt8) :
    (gatherFrom brackets item clock isFirst gathered
      (Blank.bytes lead ++ (listedBytes spell isFirst items ++
        (Blank.bytes closing ++ brackets.close :: rest)))).toOption =
      (items.foldlM (fun gathered item => take gathered item.content) gathered).map (·, rest) := by
  induction items generalizing clock isFirst gathered lead with
  | nil =>
      obtain ⟨tick, clock, rfl⟩ := List.exists_cons_of_length_pos enough
      rw [listedBytes, List.nil_append, ← List.append_assoc, ← Blank.bytes_append, gatherFrom,
        another_close distinct]
      rfl
  | cons spaced items ih =>
      obtain ⟨tick, clock, rfl⟩ := List.exists_cons_of_length_pos (Nat.zero_lt_of_lt enough)
      have behind : ∀ items : List (Spaced α), Delimited (listedBytes spell false items ++
          (Blank.bytes closing ++ brackets.close :: rest)) := by
        rintro (_ | ⟨other, others⟩)
        · exact delimited_append closing (distinct.delimited rest)
        · rintro byte ⟨⟩
          decide
      have next := fun gathered => ih (fun item member => begins item (.tail _ member))
        (fun item member => reads item (.tail _ member)) (Nat.lt_of_succ_lt_succ enough)
        false gathered spaced.behind
      rw [listedBytes, List.foldlM_cons]
      simp only [List.append_assoc]
      rw [gatherFrom, another_item distinct (begins spaced (.head _) _)]
      change (item gathered _ >>= fun (gathered, rest) =>
        gatherFrom brackets item clock false gathered rest).toOption = _
      rw [toOption_bind, reads spaced (.head _) _ _ (delimited_append _ (behind items))]
      cases take gathered spaced.content with
      | none => rfl
      | some after => exact next after

/-- Spelled items are gathered behind the opening bracket. -/
theorem toOption_gather (distinct : brackets.Distinct) {items : List (Spaced α)}
    (begins : ∀ item ∈ items, ∀ rest, Begins brackets (spell item.content ++ rest))
    (reads : ∀ spaced ∈ items, ∀ gathered rest, Delimited rest →
      (item gathered (spell spaced.content ++ rest)).toOption =
        (take gathered spaced.content).map (·, rest))
    (start : σ) (closing : List Blank) (rest : List UInt8) :
    (gather brackets item start
      (listedBytes spell true items ++ (Blank.bytes closing ++ brackets.close :: rest))).toOption =
      (items.foldlM (fun gathered item => take gathered item.content) start).map (·, rest) := by
  have enough : items.length < (0 :: (listedBytes spell true items ++
      (Blank.bytes closing ++ brackets.close :: rest))).length := by
    have least := length_le_length_listedBytes begins true
    rw [List.length_cons, List.length_append]
    omega
  exact toOption_gatherFrom distinct begins reads enough true start [] closing rest

/-- Whatever is gathered is the text of items. -/
theorem exists_of_gatherFrom
    (reads : ∀ gathered after bytes rest, Solid bytes → item gathered bytes = .ok (after, rest) →
      ∃ content, bytes = spell content ++ rest ∧ take gathered content = some after)
    {clock : List UInt8} {isFirst : Bool} {gathered result : σ}
    (read : gatherFrom brackets item clock isFirst gathered bytes = .ok (result, rest)) :
    ∃ lead items closing, (isFirst = true → lead = []) ∧
      bytes = Blank.bytes lead ++ (listedBytes spell isFirst items ++
        (Blank.bytes closing ++ brackets.close :: rest)) ∧
      items.foldlM (fun gathered item => take gathered item.content) gathered = some result := by
  induction clock generalizing isFirst gathered bytes with
  | nil => contradiction
  | cons tick clock ih =>
      obtain ⟨⟨more, next⟩, found, followed⟩ := bind_eq_ok_iff.mp read
      rcases of_another found with ⟨rfl, closing, rfl⟩ | ⟨rfl, solid, lead, before, first, rfl⟩
      · obtain ⟨rfl, rfl⟩ := Prod.mk.inj (Except.ok.inj followed)
        exact ⟨[], [], closing, fun _ => rfl, rfl, rfl⟩
      · obtain ⟨⟨after, tail⟩, readItem, readRest⟩ := bind_eq_ok_iff.mp followed
        obtain ⟨content, rfl, taken⟩ := reads gathered after next tail solid readItem
        obtain ⟨behind, items, closing, -, rfl, takenAll⟩ := ih readRest
        refine ⟨lead, ⟨before, content, behind⟩ :: items, closing, first, ?_, ?_⟩
        · simp only [listedBytes, List.append_assoc]
        · rw [List.foldlM_cons, taken]
          exact takenAll

end Gather

section Separated

variable {α β : Type} {brackets : Brackets} {item : Reader β}
  {spell : α → List UInt8} {meaning : α → Option β}

/-- Put what an item means in front of what was already read. -/
def pushMeaning (meaning : α → Option β) (done : List β) (content : α) : Option (List β) :=
  (meaning content).map (· :: done)

theorem foldlM_pushMeaning (items : List (Spaced α)) (done : List β) :
    items.foldlM (fun done item => pushMeaning meaning done item.content) done =
      (items.mapM fun item => meaning item.content).map fun read => read.reverse ++ done := by
  induction items generalizing done with
  | nil => rfl
  | cons item items ih =>
      rw [List.foldlM_cons, List.mapM_cons, pushMeaning]
      cases meaning item.content with
      | none => rfl
      | some value =>
          change List.foldlM _ (value :: done) items = _
          rw [ih]
          cases items.mapM fun item => meaning item.content with
          | none => rfl
          | some values => simp

/-- A list is read from spelled items. -/
theorem toOption_separated (distinct : brackets.Distinct) (items : List (Spaced α))
    (begins : ∀ item ∈ items, ∀ rest, Begins brackets (spell item.content ++ rest))
    (reads : ∀ spaced ∈ items, ∀ rest, Delimited rest →
      (item (spell spaced.content ++ rest)).toOption =
        (meaning spaced.content).map (·, rest)) (closing : List Blank) (rest : List UInt8) :
    (separated brackets item
      (listedBytes spell true items ++ (Blank.bytes closing ++ brackets.close :: rest))).toOption =
      (items.mapM fun item => meaning item.content).map (·, rest) := by
  have readsOnto : ∀ spaced ∈ items, ∀ done rest, Delimited rest →
      (map (· :: done) item (spell spaced.content ++ rest)).toOption =
        (pushMeaning meaning done spaced.content).map (·, rest) := by
    intro spaced member done rest delimited
    rw [toOption_map, reads spaced member rest delimited, pushMeaning]
    cases meaning spaced.content <;> rfl
  have gathered := toOption_gather distinct begins readsOnto [] closing rest
  rw [foldlM_pushMeaning] at gathered
  refine (toOption_bind _ _).trans ((congrArg (Option.bind · _) gathered).trans ?_)
  cases items.mapM fun item => meaning item.content with
  | none => rfl
  | some values => simp [Except.toOption]

/-- Whatever is read as a list is the text of items. -/
theorem exists_of_separated
    (reads : ∀ value bytes rest, Solid bytes → item bytes = .ok (value, rest) →
      ∃ content, bytes = spell content ++ rest ∧ meaning content = some value)
    {result : List β} (read : separated brackets item bytes = .ok (result, rest)) :
    ∃ items closing, bytes = listedBytes spell true items ++
        (Blank.bytes closing ++ brackets.close :: rest) ∧
      (items.mapM fun item => meaning item.content) = some result := by
  obtain ⟨⟨done, left⟩, gathered, same⟩ := bind_eq_ok_iff.mp read
  obtain ⟨rfl, rfl⟩ := Prod.mk.inj (Except.ok.inj same)
  have readsOnto : ∀ done after bytes rest, Solid bytes →
      map (· :: done) item bytes = .ok (after, rest) →
      ∃ content, bytes = spell content ++ rest ∧
        pushMeaning meaning done content = some after := by
    intro done after bytes rest solid readOnto
    obtain ⟨value, readItem, rfl⟩ := map_eq_ok_iff.mp readOnto
    obtain ⟨content, isBytes, means⟩ := reads value bytes rest solid readItem
    exact ⟨content, isBytes, congrArg (Option.map (· :: done)) means⟩
  obtain ⟨lead, items, closing, noLead, isBytes, taken⟩ := exists_of_gatherFrom readsOnto gathered
  rw [noLead rfl] at isBytes
  rw [foldlM_pushMeaning] at taken
  obtain ⟨values, means, rfl⟩ := Option.map_eq_some_iff.mp taken
  exact ⟨items, closing, isBytes, by simpa using means⟩

end Separated

end Reader

end Provenance.Json
