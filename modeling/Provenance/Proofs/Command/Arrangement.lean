import Mathlib
import Provenance.Proofs.Command.Verify

/-!
# Verbosity flags among the arguments

Flags that ask for more diagnostics may stand in front of a subcommand and anywhere
behind it, and so may `--json` behind it.  However they are arranged, one and the same
request is read from them (`Arrangement.ofArguments_arguments`): the verbosity is
counted behind the subcommand, and in front of it only if no flag stands behind.

The verbosity decides which diagnostics are shown and nothing else.  The log at one
verbosity is a part of the log at a greater one, line by line and in order
(`lines_stderr_runVerify_sublist`).
-/

namespace Provenance.Command

/-- A flag that asks for more verbosity: its name, or letters joined behind one dash. -/
inductive VerbosityFlag where
  | named
  | letters (further : Nat)
  deriving DecidableEq, Repr

namespace VerbosityFlag

/-- How often the flag asks for more. -/
def count : VerbosityFlag → Nat
  | named => 1
  | letters further => further + 1

/-- The argument that the flag is. -/
def argument : VerbosityFlag → String
  | named => "--verbose"
  | letters further => String.ofList ('-' :: List.replicate (further + 1) 'v')

end VerbosityFlag

/-- Something that stands behind a subcommand. -/
inductive Piece where
  | verbose (flag : VerbosityFlag)
  | json
  | document (path : String)
  deriving DecidableEq, Repr

namespace Piece

/-- The argument that a piece is. -/
def argument : Piece → String
  | verbose flag => flag.argument
  | json => "--json"
  | document path => path

/-- How often a piece asks for more verbosity. -/
def count : Piece → Nat
  | verbose flag => flag.count
  | _ => 0

/-- The document that a piece names. -/
def document? : Piece → Option String
  | document path => some path
  | _ => none

end Piece

/-- Arguments with one subcommand, one document that no dash begins, at most one
`--json` and any verbosity flags, in any order that is possible. -/
structure Arrangement where
  leading : List VerbosityFlag
  action : Action
  behind : List Piece
  document : String
  oneDocument : behind.filterMap Piece.document? = [document]
  oneJson : behind.count .json ≤ 1
  undashed : document.toList.head? ≠ some '-'

namespace Arrangement

/-- The arguments from left to right. -/
def arguments (arrangement : Arrangement) : List String :=
  arrangement.leading.map VerbosityFlag.argument ++
    arrangement.action.name :: arrangement.behind.map Piece.argument

/-- JSON is asked for. -/
def json (arrangement : Arrangement) : Bool :=
  arrangement.behind.contains .json

/-- The verbosity asked for in front of the subcommand. -/
def verbosityInFront (arrangement : Arrangement) : Nat :=
  (arrangement.leading.map VerbosityFlag.count).sum

/-- The verbosity asked for behind the subcommand. -/
def verbosityBehind (arrangement : Arrangement) : Nat :=
  (arrangement.behind.map Piece.count).sum

/-- The verbosity that counts: the one behind the subcommand, if any is asked for
there. -/
def verbosity (arrangement : Arrangement) : Nat :=
  if arrangement.verbosityBehind = 0 then arrangement.verbosityInFront
  else arrangement.verbosityBehind

/-- The arguments without verbosity flags and with `--json` behind the document. -/
def plainArguments (arrangement : Arrangement) : List String :=
  arrangement.action.name :: arrangement.document ::
    if arrangement.json then ["--json"] else []

/-- Two arrangements are the same command but for verbosity flags. -/
structure SameCommand (first second : Arrangement) : Prop where
  action : first.action = second.action
  document : first.document = second.document
  json : first.json = second.json

end Arrangement

theorem ofString_letters (further : Nat) :
    Argument.ofString (VerbosityFlag.letters further).argument =
      .short (List.replicate (further + 1) 'v') := by
  rw [VerbosityFlag.argument, Argument.ofString, String.toList_ofList, List.replicate_succ]
  split
  · rename_i isEnd
    exact absurd (List.cons.inj (List.cons.inj isEnd).2).1 (by decide)
  · rename_i isLong
    exact absurd (List.cons.inj (List.cons.inj isLong).2).1 (by decide)
  · rename_i isShort
    rw [(List.cons.inj isShort).2]
  · rename_i notShort
    exact absurd rfl (notShort _ _)

theorem ofString_of_undashed {path : String} (undashed : path.toList.head? ≠ some '-') :
    Argument.ofString path = .plain path := by
  rw [Argument.ofString]
  split
  · rename_i isEnd
    exact absurd (by rw [isEnd]; rfl) undashed
  · rename_i isLong
    exact absurd (by rw [isLong]; rfl) undashed
  · rename_i isShort
    exact absurd (by rw [isShort]; rfl) undashed
  · rfl

/-! ## Behind the subcommand -/

namespace Given

/-- What is given once a verbosity flag has been taken. -/
def addFlag (given : Given) (flag : VerbosityFlag) : Given :=
  addVerbosity^[flag.count] given

/-- What is given once a piece has been taken. -/
def take (given : Given) : Piece → Given
  | .verbose flag => given.addFlag flag
  | .json => given.addJson
  | .document path => { given with document := some path }

/-- Asking for verbosity changes nothing else that is asked for. -/
theorem iterate_addVerbosity (given : Given) (count : Nat) :
    (addVerbosity^[count] given).document = given.document ∧
      (addVerbosity^[count] given).json = given.json ∧
      (addVerbosity^[count] given).verbosity = given.verbosity + count := by
  induction count with
  | zero => exact ⟨rfl, rfl, rfl⟩
  | succ count ih =>
      rcases ih with ⟨sameDocument, sameJson, more⟩
      rw [Function.iterate_succ_apply']
      refine ⟨sameDocument, sameJson, ?_⟩
      change (addVerbosity^[count] given).verbosity + 1 = _
      rw [more, Nat.add_assoc]

theorem document_take (given : Given) (piece : Piece) :
    (given.take piece).document = piece.document?.or given.document := by
  cases piece with
  | verbose flag => exact (given.iterate_addVerbosity flag.count).1
  | json => rfl
  | document path => rfl

theorem json_take (given : Given) (piece : Piece) :
    (given.take piece).json = (given.json || piece == .json) := by
  cases piece with
  | verbose flag =>
      rw [beq_false_of_ne Piece.noConfusion, Bool.or_false]
      exact (given.iterate_addVerbosity flag.count).2.1
  | json => exact (Bool.or_true _).symm
  | document path =>
      rw [beq_false_of_ne Piece.noConfusion, Bool.or_false]
      rfl

theorem verbosity_take (given : Given) (piece : Piece) :
    (given.take piece).verbosity = given.verbosity + piece.count := by
  cases piece with
  | verbose flag => exact (given.iterate_addVerbosity flag.count).2.2
  | json => rfl
  | document path => rfl

end Given

theorem takeShort_replicate (action : Action) (count : Nat) (given : Given) :
    takeShort action (List.replicate count 'v') given =
      .ok (Given.addVerbosity^[count] given) := by
  induction count generalizing given with
  | zero => rfl
  | succ count ih =>
      rw [List.replicate_succ, takeShort, if_pos rfl, ih, Function.iterate_succ_apply]

section Behind

variable (action : Action) (given : Given) (arguments : List String)

theorem takeAll_verbose (flag : VerbosityFlag) :
    takeAll action false (flag.argument :: arguments) given =
      takeAll action false arguments (given.addFlag flag) := by
  cases flag with
  | named => rfl
  | letters further =>
      rw [takeAll, ofString_letters]
      dsimp only
      rw [takeShort_replicate]
      rfl

theorem takeAll_json {given : Given} (isFirst : given.json = false) :
    takeAll action false ("--json" :: arguments) given =
      takeAll action false arguments given.addJson := by
  have isLong : Argument.ofString "--json" = .long "json" none := by decide
  rw [takeAll, isLong]
  dsimp only
  rw [takeLong, isFirst]
  rfl

theorem takeAll_document {given : Given} (isFirst : given.document = none) {path : String}
    (undashed : path.toList.head? ≠ some '-') :
    takeAll action false (path :: arguments) given =
      takeAll action false arguments { given with document := some path } := by
  rw [takeAll, ofString_of_undashed undashed]
  dsimp only
  rw [takeDocument, isFirst]
  rfl

end Behind

/-- Pieces are taken one by one, as long as there is room for a document and for
`--json`. -/
theorem takeAll_pieces (action : Action) {pieces : List Piece} {given : Given}
    (oneDocument : (pieces.filterMap Piece.document? ++ given.document.toList).length ≤ 1)
    (oneJson : pieces.count .json + given.json.toNat ≤ 1)
    (undashed : ∀ path ∈ pieces.filterMap Piece.document?, path.toList.head? ≠ some '-') :
    takeAll action false (pieces.map Piece.argument) given =
      .ok (pieces.foldl Given.take given) := by
  induction pieces generalizing given with
  | nil => rfl
  | cons piece pieces ih =>
      have step : takeAll action false ((piece :: pieces).map Piece.argument) given =
          takeAll action false (pieces.map Piece.argument) (given.take piece) := by
        cases piece with
        | verbose flag => exact takeAll_verbose action given _ flag
        | json =>
            have isFirst : given.json = false := by
              rw [List.count_cons_self] at oneJson
              exact Bool.toNat_eq_zero.mp (by omega)
            exact takeAll_json action _ isFirst
        | document path =>
            have isFirst : given.document = none := by
              rw [← Option.toList_eq_nil_iff, ← List.length_eq_zero_iff]
              simp only [List.filterMap_cons, Piece.document?, List.length_append,
                List.length_cons] at oneDocument
              omega
            exact takeAll_document action _ isFirst (undashed path List.mem_cons_self)
      rw [step, List.foldl_cons]
      apply ih
      · rw [Given.document_take]
        cases piece with
        | verbose flag => exact oneDocument
        | json => exact oneDocument
        | document path =>
            simp only [List.filterMap_cons, Piece.document?, List.length_append,
              List.length_cons, Option.some_or, Option.toList_some, List.length_nil]
              at oneDocument ⊢
            omega
      · rw [Given.json_take]
        by_cases isJson : piece = .json
        · subst isJson
          rw [List.count_cons_self] at oneJson
          rw [beq_self_eq_true, Bool.or_true]
          exact (Nat.le_add_right _ _).trans oneJson
        · rw [List.count_cons_of_ne isJson] at oneJson
          rwa [beq_false_of_ne isJson, Bool.or_false]
      · intro path isPath
        apply undashed
        exact ((List.sublist_cons_self piece pieces).filterMap Piece.document?).subset isPath

/-- What is given once all pieces have been taken. -/
theorem foldl_take (pieces : List Piece) (given : Given) :
    (pieces.foldl Given.take given).document =
        (pieces.filterMap Piece.document?).getLast?.or given.document ∧
      (pieces.foldl Given.take given).json = (given.json || pieces.contains .json) ∧
      (pieces.foldl Given.take given).verbosity =
        given.verbosity + (pieces.map Piece.count).sum := by
  induction pieces generalizing given with
  | nil => exact ⟨rfl, (Bool.or_false _).symm, rfl⟩
  | cons piece pieces ih =>
      rcases ih (given.take piece) with ⟨isDocument, isJson, isVerbosity⟩
      rw [Given.document_take] at isDocument
      rw [Given.json_take] at isJson
      rw [Given.verbosity_take] at isVerbosity
      refine ⟨isDocument.trans ?_, isJson.trans ?_, isVerbosity.trans ?_⟩
      · cases isPath : piece.document? with
        | none => rw [List.filterMap_cons_none isPath, Option.none_or]
        | some path =>
            rw [List.filterMap_cons_some isPath, List.getLast?_cons, Option.some_or]
            cases (pieces.filterMap Piece.document?).getLast? <;> rfl
      · rw [List.contains_cons, Bool.or_assoc, Bool.beq_comm]
      · rw [List.map_cons, List.sum_cons, Nat.add_assoc]

theorem takeLeadingShort_replicate (count verbosity : Nat) :
    takeLeadingShort (List.replicate count 'v') verbosity = .ok (verbosity + count) := by
  induction count generalizing verbosity with
  | zero => rfl
  | succ count ih =>
      rw [List.replicate_succ, takeLeadingShort, if_pos rfl, ih]
      congr 1
      omega

theorem requestFrom_verbose (flag : VerbosityFlag) (arguments : List String) (verbosity : Nat) :
    requestFrom (flag.argument :: arguments) verbosity =
      requestFrom arguments (verbosity + flag.count) := by
  cases flag with
  | named => rfl
  | letters further =>
      rw [requestFrom, ofString_letters]
      dsimp only
      rw [takeLeadingShort_replicate]
      rfl

/-- The flags in front of a subcommand are counted. -/
theorem requestFrom_leading (flags : List VerbosityFlag) (arguments : List String)
    (verbosity : Nat) :
    requestFrom (flags.map VerbosityFlag.argument ++ arguments) verbosity =
      requestFrom arguments (verbosity + (flags.map VerbosityFlag.count).sum) := by
  induction flags generalizing verbosity with
  | nil => rfl
  | cons flag flags ih =>
      rw [List.map_cons, List.cons_append, requestFrom_verbose, ih, List.map_cons, List.sum_cons,
        Nat.add_assoc]

theorem requestFrom_name (action : Action) (arguments : List String) (verbosity : Nat) :
    requestFrom (action.name :: arguments) verbosity = subcommand action verbosity arguments := by
  cases action <;> rfl

namespace Arrangement

theorem subcommand_behind (arrangement : Arrangement) (verbosity : Nat) :
    subcommand arrangement.action verbosity (arrangement.behind.map Piece.argument) =
      .run
        { action := arrangement.action
          document := arrangement.document
          json := arrangement.json
          verbosity :=
            if arrangement.verbosityBehind = 0 then verbosity
            else arrangement.verbosityBehind } := by
  have documents := arrangement.oneDocument
  have taken : takeAll arrangement.action false (arrangement.behind.map Piece.argument) .empty =
      .ok (arrangement.behind.foldl Given.take .empty) := by
    apply takeAll_pieces
    · rw [documents]
      exact le_rfl
    · exact arrangement.oneJson
    · rw [documents, List.forall_mem_singleton]
      exact arrangement.undashed
  rcases foldl_take arrangement.behind .empty with ⟨isDocument, isJson, isVerbosity⟩
  rw [documents] at isDocument
  change _ = 0 + arrangement.verbosityBehind at isVerbosity
  rw [Nat.zero_add] at isVerbosity
  rw [subcommand, taken]
  dsimp only
  rw [isDocument, isJson, isVerbosity]
  rfl

/-- However the flags are arranged, the command is requested with the verbosity that
counts. -/
theorem ofArguments_arguments (arrangement : Arrangement) :
    Request.ofArguments arrangement.arguments =
      .run
        { action := arrangement.action
          document := arrangement.document
          json := arrangement.json
          verbosity := arrangement.verbosity } := by
  rw [Request.ofArguments, arguments, requestFrom_leading, requestFrom_name, subcommand_behind,
    Nat.zero_add]
  rfl

/-- The arrangement without verbosity flags and with `--json` behind the document. -/
def plain (arrangement : Arrangement) : Arrangement where
  leading := []
  action := arrangement.action
  behind := .document arrangement.document :: if arrangement.json then [.json] else []
  document := arrangement.document
  oneDocument := by cases arrangement.json <;> rfl
  oneJson := by
    rw [List.count_cons_of_ne Piece.noConfusion]
    cases arrangement.json <;> decide
  undashed := arrangement.undashed

theorem arguments_plain (arrangement : Arrangement) :
    arrangement.plain.arguments = arrangement.plainArguments := by
  change arrangement.action.name :: arrangement.document ::
    (if arrangement.json then [Piece.json] else []).map Piece.argument = _
  rw [plainArguments]
  cases arrangement.json <;> rfl

theorem sameCommand_plain (arrangement : Arrangement) :
    arrangement.SameCommand arrangement.plain where
  action := rfl
  document := rfl
  json := by
    change arrangement.json = (Piece.document arrangement.document ::
      if arrangement.json then [Piece.json] else []).contains Piece.json
    cases arrangement.json <;> rfl

end Arrangement

/-! ## What the verbosity decides -/

/-- A greater verbosity only adds lines to the log. -/
theorem lines_stderr_runVerify_sublist (files : Files) (path : String) (json : Bool)
    {verbosity other : Nat} (order : verbosity ≤ other) :
    (lines (runVerify files path json verbosity).stderr).Sublist
      (lines (runVerify files path json other).stderr) := by
  cases loaded : loadDocument files path with
  | error failure =>
      -- The path may hold line feeds, but the warning is the whole log at both verbosities.
      rw [runVerify_of_failure json verbosity loaded, runVerify_of_failure json other loaded]
  | ok document =>
      have isLogged (verbosity : Nat) :
          lines (runVerify files path json verbosity).stderr =
            ((events (audit document)).filter (·.isShown verbosity)).map Event.line := by
        rw [runVerify_of_document json verbosity loaded]
        apply lines_unlines
        intro line isLine
        rcases List.mem_map.mp isLine with ⟨event, isShown, rfl⟩
        exact (isLine_of_mem_events document event (List.mem_filter.mp isShown).1).1
      have shownToo : ∀ event : Event, event.isShown verbosity = true →
          event.isShown other = true := by
        intro event isShown
        exact decide_eq_true ((of_decide_eq_true isShown).trans order)
      rw [isLogged, isLogged]
      exact (List.monotone_filter_right _ shownToo).map Event.line

/-- From the verbosity of the least important events on, everything is shown. -/
theorem runVerify_eq_of_all_shown (files : Files) (path : String) (json : Bool)
    {verbosity other : Nat} (all : Level.debug.verbosity ≤ verbosity)
    (allToo : Level.debug.verbosity ≤ other) :
    runVerify files path json verbosity = runVerify files path json other := by
  have most : ∀ level : Level, level.verbosity ≤ Level.debug.verbosity := by
    intro level
    cases level <;> decide
  have isShown {verbosity : Nat} (all : Level.debug.verbosity ≤ verbosity) (event : Event) :
      event.isShown verbosity = true :=
    decide_eq_true ((most event.level).trans all)
  have sameShown : (fun event : Event => event.isShown verbosity) =
      fun event => event.isShown other := by
    funext event
    rw [isShown all, isShown allToo]
  rw [runVerify, runVerify, sameShown]

/-- Verbosity flags never influence results.  However flags, `--json` and the document
are arranged, the command runs with the verbosity that counts, and its exit code and
what it prints are those of the command without verbosity flags.  The log of a
verification is a part of its log at any greater verbosity, and all of it from a
verbosity of two on; the other output of printing a hash does not depend on the
verbosity at all. -/
theorem run_arguments (files : Files) (first second : Arrangement)
    (same : first.SameCommand second) :
    Request.ofArguments first.arguments =
        .run ⟨first.action, first.document, first.json, first.verbosity⟩ ∧
      (run files first.arguments).exit = (run files first.plainArguments).exit ∧
      (run files first.arguments).stdout = (run files first.plainArguments).stdout ∧
      match first.action with
      | .verify =>
          (first.verbosity ≤ second.verbosity →
            (lines (run files first.arguments).stderr).Sublist
              (lines (run files second.arguments).stderr)) ∧
          (2 ≤ first.verbosity → 2 ≤ second.verbosity →
            run files first.arguments = run files second.arguments)
      | .hash => (run files first.arguments).stderr = (run files second.arguments).stderr := by
  have request := first.ofArguments_arguments
  have otherRequest := second.ofArguments_arguments
  have plainRequest := first.plain.ofArguments_arguments
  rw [← same.action, ← same.document, ← same.json] at otherRequest
  rw [first.arguments_plain, ← first.sameCommand_plain.action, ← first.sameCommand_plain.document,
    ← first.sameCommand_plain.json] at plainRequest
  simp only [run, request, otherRequest, plainRequest]
  cases first.action with
  | verify =>
      exact ⟨trivial, rfl, rfl,
        lines_stderr_runVerify_sublist files first.document first.json,
        runVerify_eq_of_all_shown files first.document first.json⟩
  | hash => exact ⟨trivial, rfl, rfl, rfl⟩

/-- A verification with flags in front, joined and behind the document, and the same
verification with fewer of them. -/
theorem run_arguments_verify :
    let first : Arrangement :=
      { leading := [.named, .letters 2], action := .verify
        behind := [.json, .document "document.json", .verbose (.letters 0)]
        document := "document.json"
        oneDocument := by decide, oneJson := by decide, undashed := by decide }
    let second : Arrangement :=
      { leading := [], action := .verify
        behind := [.verbose (.letters 1), .document "document.json", .verbose .named, .json]
        document := "document.json"
        oneDocument := by decide, oneJson := by decide, undashed := by decide }
    let files : Files := fun _ => .ok [0x7B, 0x7D]
    first.SameCommand second ∧
      first.arguments = ["--verbose", "-vvv", "verify", "--json", "document.json", "-v"] ∧
      second.arguments = ["verify", "-vv", "document.json", "--verbose", "--json"] ∧
      first.plainArguments = ["verify", "document.json", "--json"] ∧
      first.verbosity = 1 ∧ second.verbosity = 3 ∧
      (run files first.arguments).exit = (run files first.plainArguments).exit ∧
      (lines (run files first.arguments).stderr).Sublist
        (lines (run files second.arguments).stderr) := by
  intro first second files
  have same : first.SameCommand second := ⟨rfl, rfl, rfl⟩
  rcases run_arguments files first second same with ⟨-, sameExit, -, shorter, -⟩
  exact ⟨same, by decide, by decide, by decide, by decide, by decide, sameExit,
    shorter (by decide)⟩

end Provenance.Command
