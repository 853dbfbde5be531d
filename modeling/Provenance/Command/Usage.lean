import Provenance.Text.Terminal

/-!
# Help pages and usage errors

The texts that explain the command line, and those that reject one.
-/

namespace Provenance.Command

/-- What a command line asks to be done with a document. -/
inductive Action where
  | verify
  | hash
  deriving DecidableEq, Repr

/-- The name of an action on the command line. -/
def Action.name : Action → String
  | verify => "verify"
  | hash => "hash"

/-- A page of help. -/
inductive Page where
  | overview
  | ofVerify
  /-- The page with the exit codes. -/
  | ofVerifyAtLength
  | ofHash
  | ofHelp
  deriving DecidableEq, Repr

namespace Page

private def verbosityHelp : String :=
  "Increase diagnostic verbosity on stderr (-v info, -vv debug, -vvv trace)"

/-- The lines of a page. -/
def lines : Page → List String
  | overview =>
      ["K-UX v1: deterministic conformance checks over collapse/projection/replay documents",
        "",
        "Usage: kux [OPTIONS] <COMMAND>",
        "",
        "Commands:",
        "  verify  Verify a K-UX document: schema, entropy pin, replay identity",
        "  hash    Print the canonical projection hash a document's replay must declare",
        "  help    Print this message or the help of the given subcommand(s)",
        "",
        "Options:",
        "  -v, --verbose...  " ++ verbosityHelp,
        "  -h, --help        Print help",
        "  -V, --version     Print version"]
  | ofVerify =>
      ["Verify a K-UX document: schema, entropy pin, replay identity",
        "",
        "Usage: kux verify [OPTIONS] <DOCUMENT>",
        "",
        "Arguments:",
        "  <DOCUMENT>  Path to the K-UX JSON document",
        "",
        "Options:",
        "      --json        Output the verdict as JSON",
        "  -v, --verbose...  " ++ verbosityHelp,
        "  -h, --help        Print help (see more with '--help')"]
  | ofVerifyAtLength =>
      ["Verify a K-UX document: schema, entropy pin, replay identity",
        "",
        "Exits 0 when conformant, 1 when not, 2 when the input is unreadable or not JSON.",
        "",
        "Usage: kux verify [OPTIONS] <DOCUMENT>",
        "",
        "Arguments:",
        "  <DOCUMENT>",
        "          Path to the K-UX JSON document",
        "",
        "Options:",
        "      --json",
        "          Output the verdict as JSON",
        "",
        "  -v, --verbose...",
        "          " ++ verbosityHelp,
        "",
        "  -h, --help",
        "          Print help (see a summary with '-h')"]
  | ofHash =>
      ["Print the canonical projection hash a document's replay must declare",
        "",
        "Usage: kux hash [OPTIONS] <DOCUMENT>",
        "",
        "Arguments:",
        "  <DOCUMENT>  Path to the K-UX JSON document",
        "",
        "Options:",
        "      --json        Output as JSON",
        "  -v, --verbose...  " ++ verbosityHelp,
        "  -h, --help        Print help"]
  | ofHelp =>
      ["Print this message or the help of the given subcommand(s)",
        "",
        "Usage: kux help [COMMAND]...",
        "",
        "Arguments:",
        "  [COMMAND]...  Print help for the subcommand(s)"]

/-- The page of an action, in the short or the long form. -/
def ofAction : Action → Bool → Page
  | .verify, false => ofVerify
  | .verify, true => ofVerifyAtLength
  | .hash, _ => ofHash

end Page

/-- The line that names and numbers the program. -/
def versionLine : String := "kux 0.1.0"

/-! ## Usage lines -/

/-- An option. -/
inductive Flag where
  | json
  | verbose
  | help
  | version
  deriving DecidableEq, Repr

/-- How an option is shown. -/
def Flag.shown : Flag → String
  | json => "--json"
  | verbose => "--verbose..."
  | help => "--help"
  | version => "--version"

/-- A place for arguments: in front of the subcommand, or behind it. -/
inductive Place where
  | front
  | behind (action : Action)
  deriving DecidableEq, Repr

namespace Place

/-- The words that lead to a place. -/
def words : Place → List String
  | front => ["kux"]
  | behind action => ["kux", action.name]

/-- What must stand at a place. -/
def operand : Place → String
  | front => "<COMMAND>"
  | behind _ => "<DOCUMENT>"

/-- The options that are shown as one choice once something of the choice has
been given. -/
def choice : Place → List Flag
  | front => [.verbose]
  | behind _ => [.json]

/-- The choice together with what must stand at the place. -/
def choiceShown : Place → List String
  | front => ["<--verbose...>", "<COMMAND>"]
  | behind _ => ["<DOCUMENT|--json>"]

end Place

/-- The usage line that goes with an error. -/
inductive Synopsis where
  /-- The usage at a place in general. -/
  | general (place : Place)
  /-- The usage with some options. -/
  | withFlags (place : Place) (flags : List Flag)
  /-- The usage with some options next to the choice. -/
  | withChoice (place : Place) (flags : List Flag)
  | ofHelp
  deriving DecidableEq, Repr

namespace Synopsis

/-- The usage in front of a subcommand. -/
def overview : Synopsis := general .front

/-- The usage of an action. -/
def ofAction (action : Action) : Synopsis := general (.behind action)

/-- The usage after options have been given. -/
def given (place : Place) (flags : List Flag) : Synopsis :=
  if flags.isEmpty then general place else withFlags place flags

/-- The usage that shows how an option is meant, after others have been given.
`chosen` tells that something of the choice was among them. -/
def showing (place : Place) (flags : List Flag) (chosen : Bool) (flag : Flag) : Synopsis :=
  let flags := if flag ∈ flags then flags else flags ++ [flag]
  if chosen then withChoice place (flags.filter (· ∉ place.choice))
  else withFlags place flags

/-- The wording of a usage line. -/
def text : Synopsis → String
  | general place => " ".intercalate (place.words ++ ["[OPTIONS]", place.operand])
  | withFlags place flags =>
      " ".intercalate (place.words ++ flags.map Flag.shown ++ [place.operand])
  | withChoice place flags =>
      " ".intercalate (place.words ++ flags.map Flag.shown ++ place.choiceShown)
  | ofHelp => "kux help [COMMAND]..."

/-- The line that points to the help.  The help on help has none. -/
def pointer : Synopsis → List String
  | ofHelp => []
  | _ => ["", "For more information, try '--help'."]

end Synopsis

/-! ## Rejected command lines -/

/-- What can be done about an argument that has no place. -/
inductive Hint where
  /-- Give it as a document. -/
  | asDocument
  /-- Use it as the subcommand that it names. -/
  | asSubcommand
  deriving DecidableEq, Repr

/-- The wording of a hint. -/
def Hint.text (argument : String) : Hint → String
  | asDocument => "to pass '" ++ argument ++ "' as a value, use '-- " ++ argument ++ "'"
  | asSubcommand =>
      "subcommand '" ++ argument ++ "' exists; to use it, remove the '--' before it"

/-- Why a command line is rejected. -/
inductive UsageError where
  /-- There are no arguments at all. -/
  | nothingGiven
  /-- There are only options. -/
  | noSubcommand
  | unknownSubcommand (name : String) (synopsis : Synopsis)
  /-- An argument that has no place, with a hint where there is one. -/
  | unexpectedArgument (argument : String) (hint : Option Hint) (synopsis : Synopsis)
  /-- An option that takes no value was given one. -/
  | unexpectedValue (value : String) (flag : Flag) (synopsis : Synopsis)
  | repeatedFlag (flag : Flag) (synopsis : Synopsis)
  | noDocument (synopsis : Synopsis)
  deriving DecidableEq, Repr

namespace UsageError

private def rejection (reason : List String) (synopsis : Synopsis) : List String :=
  reason ++ ["", "Usage: " ++ synopsis.text] ++ synopsis.pointer

/-- The lines of an error.  What is repeated from the command line is shown
without its control sequences. -/
def lines : UsageError → List String
  | nothingGiven => Page.overview.lines
  | noSubcommand =>
      rejection
        ["error: 'kux' requires a subcommand but one was not provided",
          "  [subcommands: verify, hash, help]"]
        .overview
  | unknownSubcommand name synopsis =>
      rejection ["error: unrecognized subcommand '" ++ Text.Terminal.plain name ++ "'"] synopsis
  | unexpectedArgument argument hint synopsis =>
      let argument := Text.Terminal.plain argument
      let tip :=
        match hint with
        | some hint => ["", "  tip: " ++ hint.text argument]
        | none => []
      rejection (("error: unexpected argument '" ++ argument ++ "' found") :: tip) synopsis
  | unexpectedValue value flag synopsis =>
      rejection
        ["error: unexpected value '" ++ Text.Terminal.plain value ++ "' for '" ++ flag.shown ++
          "' found; no more were expected"]
        synopsis
  | repeatedFlag flag synopsis =>
      rejection
        ["error: the argument '" ++ flag.shown ++ "' cannot be used multiple times"] synopsis
  | noDocument synopsis =>
      rejection
        ["error: the following required arguments were not provided:", "  <DOCUMENT>"] synopsis

end UsageError

end Provenance.Command
