import Mathlib
import Provenance.Command.Run
import Provenance.Proofs.Document.Field
import Provenance.Proofs.Json.Same
import Provenance.Proofs.Json.Token

/-!
# Lines

What a command writes are lines, each with a line feed behind it.  Texts without
line feeds that are written as lines are the lines that a reader finds
(`lines_unlines`).  Values are shown with their texts quoted, so that they take
one line whatever they hold (`isLine_inspect`).
-/

namespace Provenance.Command

open Json
open Text (Quoted.encode Quoted.encodeChar)

/-- The text has no line feed in it. -/
def IsLine (text : String) : Prop :=
  '\n' ∉ text.toList

instance (text : String) : Decidable (IsLine text) :=
  inferInstanceAs (Decidable ('\n' ∉ text.toList))

theorem isLine_append {text other : String} :
    IsLine (text ++ other) ↔ IsLine text ∧ IsLine other := by
  rw [IsLine, String.toList_append, List.mem_append, not_or]
  rfl

theorem isLine_ofList {chars : List Char} : IsLine (String.ofList chars) ↔ '\n' ∉ chars := by
  rw [IsLine, String.toList_ofList]

theorem isLine_intercalate {separator : String} (isLine : IsLine separator) {texts : List String}
    (areLines : ∀ text ∈ texts, IsLine text) : IsLine (separator.intercalate texts) := by
  induction texts with
  | nil => exact List.not_mem_nil
  | cons text texts ih =>
      obtain ⟨first, others⟩ := List.forall_mem_cons.mp areLines
      cases texts with
      | nil =>
          rw [String.intercalate_singleton]
          exact first
      | cons next texts =>
          rw [String.intercalate_cons_cons, isLine_append, isLine_append]
          exact ⟨⟨first, isLine⟩, ih others⟩

theorem isLine_toString_nat (n : Nat) : IsLine (toString n) := by
  intro isMember
  rw [Nat.toString_eq_repr, Nat.toList_repr] at isMember
  exact absurd (Nat.isDigit_of_mem_toDigits (by decide) (by decide) isMember) (by decide)

/-- The lines of a text that have a line feed behind them. -/
def lines (text : String) : List String :=
  (text.toList.splitOn '\n').dropLast.map String.ofList

theorem unlines_nil : unlines [] = "" := by
  simp [unlines]

theorem unlines_cons (text : String) (texts : List String) :
    unlines (text :: texts) = text ++ "\n" ++ unlines texts := by
  simp [unlines]

theorem toList_unlines (texts : List String) :
    (unlines texts).toList = ['\n'].intercalate (texts.map String.toList ++ [[]]) := by
  induction texts with
  | nil =>
      rw [unlines_nil]
      rfl
  | cons text texts ih =>
      rw [unlines_cons, String.toList_append, String.toList_append, ih, List.map_cons,
        List.cons_append, List.intercalate_cons_of_ne_nil (List.append_ne_nil_of_right_ne_nil _
          (List.cons_ne_nil _ _))]
      rfl

/-- Texts that are written as lines are found as lines. -/
theorem lines_unlines {texts : List String} (areLines : ∀ text ∈ texts, IsLine text) :
    lines (unlines texts) = texts := by
  have pieces : (unlines texts).toList.splitOn '\n' = texts.map String.toList ++ [[]] := by
    rw [toList_unlines]
    apply List.splitOn_intercalate '\n' _ (by simp)
    simp only [List.forall_mem_append, List.forall_mem_map, List.forall_mem_singleton]
    exact ⟨areLines, List.not_mem_nil⟩
  rw [lines, pieces, List.dropLast_concat, List.map_map]
  simp

/-- A text with a line feed behind it is written as lines, at least one. -/
theorem exists_unlines (text : String) :
    ∃ first rest, (∀ line ∈ first :: rest, IsLine line) ∧
      text ++ "\n" = unlines (first :: rest) := by
  obtain ⟨chars, rfl⟩ : ∃ chars, String.ofList chars = text := ⟨text.toList, String.ofList_toList⟩
  induction chars with
  | nil => exact ⟨"", [], by decide, by simp [unlines]⟩
  | cons char chars ih =>
      obtain ⟨first, rest, areLines, written⟩ := ih
      have split : String.ofList (char :: chars) ++ "\n" =
          String.ofList [char] ++ (String.ofList chars ++ "\n") := by
        apply String.toList_inj.mp
        simp
      by_cases isFeed : char = '\n'
      · refine ⟨"", first :: rest, List.forall_mem_cons.mpr ⟨by decide, areLines⟩, ?_⟩
        rw [split, isFeed, unlines_cons, ← written]
        rfl
      · obtain ⟨firstIsLine, restAreLines⟩ := List.forall_mem_cons.mp areLines
        refine ⟨String.ofList [char] ++ first, rest, List.forall_mem_cons.mpr ⟨?_, restAreLines⟩,
          ?_⟩
        · rw [isLine_append, isLine_ofList]
          exact ⟨by simpa using Ne.symm isFeed, firstIsLine⟩
        · rw [split, written, unlines_cons, unlines_cons]
          simp only [String.append_assoc]

/-! ## Quoted texts and values -/

theorem lineFeed_not_mem_toDigits (n : Nat) : '\n' ∉ Nat.toDigits 16 n := by
  have ofDigit : ∀ digit < 16, '\n' ∉ [Nat.digitChar digit] := by decide
  induction n using Nat.strongRecOn with
  | ind n ih =>
      rw [Nat.toDigits_eq_if (by decide)]
      split
      · rename_i isDigit
        exact ofDigit n isDigit
      · rw [List.mem_append, not_or]
        exact ⟨ih _ (by omega), ofDigit _ (Nat.mod_lt n (by decide))⟩

/-- A character between quotes is written without line feeds, a line feed too. -/
theorem lineFeed_not_mem_encodeChar (char : Char) : '\n' ∉ Quoted.encodeChar char := by
  unfold Quoted.encodeChar
  split
  all_goals try decide
  rename_i _ _ notFeed _ _ _
  split
  · exact fun isMember => notFeed (List.mem_singleton.mp isMember).symm
  · simp [lineFeed_not_mem_toDigits]

theorem isLine_encode (text : String) : IsLine (Quoted.encode text) := by
  rw [Quoted.encode, isLine_ofList]
  simp [lineFeed_not_mem_encodeChar]

theorem inspectItems_eq_map (items : List Value) :
    Value.inspectItems items = items.map Value.inspect := by
  induction items with
  | nil => rfl
  | cons item items ih => rw [Value.inspectItems, ih, List.map_cons]

theorem inspectMembers_eq_map (members : List (String × Value)) :
    Value.inspectMembers members =
      members.map fun member => Quoted.encode member.1 ++ ": " ++ member.2.inspect := by
  induction members with
  | nil => rfl
  | cons member members ih => rw [Value.inspectMembers, ih, List.map_cons]

/-- Whatever a value holds, it is shown in one line. -/
theorem isLine_inspect (value : Value) : IsLine value.inspect := by
  induction value using Value.inductionOn with
  | null => decide
  | bool truth => cases truth <;> decide
  | number numeral =>
      rw [Value.inspect, isLine_append, isLine_append]
      refine ⟨⟨by decide, isLine_ofList.mpr fun isMember => ?_⟩, by decide⟩
      have isNumeral := List.all_eq_true.mp numeral.all_isNumeralChar_text '\n' isMember
      exact absurd isNumeral (by decide)
  | string text =>
      rw [Value.inspect, isLine_append, isLine_append]
      exact ⟨⟨by decide, isLine_encode text⟩, by decide⟩
  | array items ih =>
      rw [Value.inspect, isLine_append, isLine_append, inspectItems_eq_map]
      exact ⟨⟨by decide, isLine_intercalate (by decide) (List.forall_mem_map.mpr ih)⟩, by decide⟩
  | object members ih =>
      rw [Value.inspect, isLine_append, isLine_append, inspectMembers_eq_map]
      refine ⟨⟨by decide, isLine_intercalate (by decide) (List.forall_mem_map.mpr ?_)⟩, by decide⟩
      intro member isMember
      rw [isLine_append, isLine_append]
      exact ⟨⟨isLine_encode member.1, by decide⟩, ih member isMember⟩

theorem isLine_inspect? (field : Option Value) : IsLine (Value.inspect? field) := by
  cases field with
  | none => decide
  | some value =>
      rw [Value.inspect?, isLine_append, isLine_append]
      exact ⟨⟨by decide, isLine_inspect value⟩, by decide⟩

theorem isLine_hash (key : ProjectionKey) : IsLine key.hash := by
  obtain ⟨digits, isHash, _, areDigits⟩ :=
    (ContentHash.isWellFormed_iff key.hash).mp (ContentHash.isWellFormed_ofBytes _)
  rw [isHash, isLine_ofList, List.mem_append, not_or]
  exact ⟨by decide, fun isDigit => absurd (areDigits _ isDigit) (by decide)⟩

theorem isLine_toString_bool (value : Bool) : IsLine (toString value) := by
  cases value <;> decide

end Provenance.Command
