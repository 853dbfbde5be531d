import Provenance.Command.Usage

/-!
# Arguments

What a list of arguments asks for.  Options may stand in front of the
subcommand and, anywhere, behind it; `--` ends them.  Short options may be
joined behind one dash.  The first argument that asks for help or that has no
place decides, and the arguments behind it are not looked at.
-/

namespace Provenance.Command

/-- An action on a document. -/
structure Invocation where
  action : Action
  document : String
  json : Bool
  verbosity : Nat
  deriving DecidableEq, Repr

/-- What a list of arguments asks for. -/
inductive Request where
  | run (invocation : Invocation)
  | help (page : Page)
  | version
  | reject (error : UsageError)
  deriving DecidableEq, Repr

/-- How an argument reads while options are still recognised. -/
inductive Argument where
  /-- Two dashes alone: only documents follow. -/
  | endOfOptions
  /-- A name behind two dashes, with a value behind an equals sign. -/
  | long (name : String) (value : Option String)
  /-- Letters behind one dash. -/
  | short (letters : List Char)
  /-- Anything else; a dash alone is no option. -/
  | plain (text : String)
  deriving DecidableEq, Repr

/-- Classify an argument. -/
def Argument.ofString (text : String) : Argument :=
  match text.toList with
  | ['-', '-'] => endOfOptions
  | '-' :: '-' :: rest =>
      let name := rest.takeWhile (· != '=')
      let value :=
        match rest.dropWhile (· != '=') with
        | [] => none
        | _ :: value => some (String.ofList value)
      long (String.ofList name) value
  | '-' :: letter :: letters => short (letter :: letters)
  | _ => plain text

/-! ## Behind the subcommand -/

/-- The options and the document behind a subcommand. -/
structure Given where
  document : Option String
  json : Bool
  verbosity : Nat
  /-- The flags in the order in which they last appeared. -/
  flags : List Flag
  /-- A flag stands behind the document. -/
  flagBehindDocument : Bool
  deriving DecidableEq, Repr

namespace Given

/-- Nothing has been given. -/
def empty : Given := ⟨none, false, 0, [], false⟩

/-- Note the use of a flag. -/
def note (given : Given) (flag : Flag) : Given :=
  { given with
    flags := given.flags.filter (· ≠ flag) ++ [flag]
    flagBehindDocument := given.document.isSome }

/-- Ask for JSON. -/
def addJson (given : Given) : Given :=
  { given.note .json with json := true }

/-- More verbosity. -/
def addVerbosity (given : Given) : Given :=
  { given.note .verbose with verbosity := given.verbosity + 1 }

/-- The usage line of an action with the flags that have been given. -/
def synopsis (given : Given) (action : Action) : Synopsis :=
  if given.document.isNone then .given (.behind action) given.flags
  else .withFlags (.behind action) given.flags

/-- The usage line that shows how a flag is meant.  The document is among the
things given only once a flag has followed it. -/
def synopsisOf (given : Given) (action : Action) (flag : Flag) : Synopsis :=
  .showing (.behind action) given.flags (given.json || given.flagBehindDocument) flag

end Given

/-- Take joined short options. -/
def takeShort (action : Action) : List Char → Given → Except Request Given
  | [], given => .ok given
  | letter :: letters, given =>
      if letter = 'v' then takeShort action letters given.addVerbosity
      else if letter = 'h' then .error (.help (.ofAction action false))
      else
        .error (.reject
          (.unexpectedArgument (String.ofList ['-', letter]) (some .asDocument)
            (.ofAction action)))

/-- Take a long option. -/
def takeLong (action : Action) (name : String) (value : Option String) (given : Given) :
    Except Request Given :=
  let withoutValue (flag : Flag) (next : Except Request Given) : Except Request Given :=
    match value with
    | none => next
    | some value => .error (.reject (.unexpectedValue value flag (given.synopsisOf action flag)))
  if name = "json" then
    withoutValue .json
      (if given.json then .error (.reject (.repeatedFlag .json (.ofAction action)))
      else .ok given.addJson)
  else if name = "verbose" then withoutValue .verbose (.ok given.addVerbosity)
  else if name = "help" then withoutValue .help (.error (.help (.ofAction action true)))
  else
    .error (.reject
      (.unexpectedArgument ("--" ++ name) (some .asDocument) (given.synopsis action)))

/-- Take the document; there is room for one. -/
def takeDocument (action : Action) (text : String) (given : Given) : Except Request Given :=
  if given.document.isNone then .ok { given with document := some text }
  else .error (.reject (.unexpectedArgument text none (.ofAction action)))

/-- Take the arguments behind a subcommand.  Once options have ended, every
argument is a document. -/
def takeAll (action : Action) : Bool → List String → Given → Except Request Given
  | _, [], given => .ok given
  | true, text :: texts, given => do
      takeAll action true texts (← takeDocument action text given)
  | false, text :: texts, given =>
      match Argument.ofString text with
      | .endOfOptions => takeAll action true texts given
      | .long name value => do takeAll action false texts (← takeLong action name value given)
      | .short letters => do takeAll action false texts (← takeShort action letters given)
      | .plain text => do takeAll action false texts (← takeDocument action text given)

/-- The request of a subcommand.  Verbosity behind it replaces the verbosity in
front of it. -/
def subcommand (action : Action) (verbosityBefore : Nat) (texts : List String) : Request :=
  match takeAll action false texts .empty with
  | .error request => request
  | .ok given =>
      match given.document with
      | none => .reject (.noDocument (.withFlags (.behind action) given.flags))
      | some document =>
          let verbosity := if given.verbosity = 0 then verbosityBefore else given.verbosity
          .run { action, document, json := given.json, verbosity }

/-! ## In front of the subcommand -/

/-- The page that `help` asks for with the names behind it. -/
def helpFor : List String → Request
  | [] => .help .overview
  | name :: names =>
      let page (page : Page) (synopsis : Synopsis) : Request :=
        match names with
        | [] => .help page
        | name :: _ => .reject (.unknownSubcommand name synopsis)
      if name = "verify" then page .ofVerifyAtLength (.ofAction .verify)
      else if name = "hash" then page .ofHash (.ofAction .hash)
      else if name = "help" then page .ofHelp .ofHelp
      else .reject (.unknownSubcommand name .overview)

/-- Take joined short options in front of the subcommand and count the
verbosity. -/
def takeLeadingShort : List Char → Nat → Except Request Nat
  | [], verbosity => .ok verbosity
  | letter :: letters, verbosity =>
      if letter = 'v' then takeLeadingShort letters (verbosity + 1)
      else if letter = 'h' then .error (.help .overview)
      else if letter = 'V' then .error .version
      else .error (.reject (.unexpectedArgument (String.ofList ['-', letter]) none .overview))

/-- The flags that stand in front of a subcommand with a verbosity. -/
def leadingFlags (verbosity : Nat) : List Flag :=
  if verbosity = 0 then [] else [.verbose]

/-- Take a long option in front of the subcommand. -/
def takeLeadingLong (name : String) (value : Option String) (verbosity : Nat) :
    Except Request Nat :=
  let flags := leadingFlags verbosity
  let withoutValue (flag : Flag) (next : Except Request Nat) : Except Request Nat :=
    match value with
    | none => next
    | some value =>
        .error (.reject (.unexpectedValue value flag (.showing .front flags (!flags.isEmpty) flag)))
  if name = "verbose" then withoutValue .verbose (.ok (verbosity + 1))
  else if name = "help" then withoutValue .help (.error (.help .overview))
  else if name = "version" then withoutValue .version (.error .version)
  else .error (.reject (.unexpectedArgument ("--" ++ name) none (.given .front flags)))

/-- The request when no subcommand can follow: what stands behind `--` is none. -/
def withoutSubcommand (verbosity : Nat) : List String → Request
  | [] => .reject (if verbosity = 0 then .nothingGiven else .noSubcommand)
  | text :: _ =>
      if text ∈ ["verify", "hash", "help"] then
        .reject (.unexpectedArgument text (some .asSubcommand) .overview)
      else .reject (.unknownSubcommand text .overview)

/-- The request of the arguments, given the verbosity of those in front. -/
def requestFrom : List String → Nat → Request
  | [], verbosity => withoutSubcommand verbosity []
  | text :: texts, verbosity =>
      let proceed : Except Request Nat → Request
        | .ok verbosity => requestFrom texts verbosity
        | .error request => request
      match Argument.ofString text with
      | .endOfOptions => withoutSubcommand verbosity texts
      | .long name value => proceed (takeLeadingLong name value verbosity)
      | .short letters => proceed (takeLeadingShort letters verbosity)
      | .plain text =>
          if text = "verify" then subcommand .verify verbosity texts
          else if text = "hash" then subcommand .hash verbosity texts
          else if text = "help" then helpFor texts
          else .reject (.unknownSubcommand text .overview)

/-- What a list of arguments asks for. -/
def Request.ofArguments (texts : List String) : Request :=
  requestFrom texts 0

end Provenance.Command
