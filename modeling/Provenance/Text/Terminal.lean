/-!
# Text without control sequences

Some texts end up on a terminal, where control characters and the sequences
that an escape character begins would be obeyed instead of shown.  `plain`
removes them.  It follows the grammar of ECMA-48: escape sequences, control
sequences, device control strings, operating system commands and the other
strings of that standard.  Tabs, line feeds, form feeds and carriage returns are
kept.

A kept blank inside a control sequence interrupts it: what follows is shown up
to the next control character, and there the sequence goes on.
-/

namespace Provenance.Text.Terminal

/-- How much of a sequence has been read. -/
inductive State where
  /-- There is no sequence. -/
  | ground
  /-- Behind the escape character. -/
  | escape
  /-- Within an escape sequence that has more than one character. -/
  | escapeIntermediate
  /-- Within a control sequence. -/
  | controlSequence
  /-- At the start of a device control string. -/
  | device
  /-- Within the parameters of a device control string. -/
  | deviceParameters
  /-- Behind the parameters of a device control string. -/
  | deviceIntermediate
  /-- Within the content of a device control string or of a string that has no
  parameters. -/
  | content
  /-- Within an operating system command. -/
  | systemCommand
  deriving DecidableEq, Repr

/-- The state behind a graphic character of ASCII, given by its code. -/
def State.graphic (state : State) (code : Nat) : State :=
  match state with
  | ground => ground
  | escape =>
      if code < 0x30 then escapeIntermediate
      else if code = 0x5B then controlSequence
      else if code = 0x5D then systemCommand
      else if code = 0x50 then device
      else if code = 0x58 ∨ code = 0x5E ∨ code = 0x5F then content
      else ground
  | escapeIntermediate => if code < 0x30 then escapeIntermediate else ground
  | controlSequence => if code < 0x40 then controlSequence else ground
  | device =>
      if code < 0x30 then deviceIntermediate
      else if code < 0x40 then deviceParameters
      else content
  | deviceParameters =>
      if code < 0x30 then deviceIntermediate
      else if code < 0x3C then deviceParameters
      else content
  | deviceIntermediate => if code < 0x30 then deviceIntermediate else content
  | content => content
  | systemCommand => systemCommand

/-- The state behind a character.  Cancel and substitute end every sequence, an
escape begins a new one, and a bell ends an operating system command.  The byte
`9C` ends the content of a string, also where it is part of a character. -/
def State.next (state : State) (char : Char) : State :=
  let code := char.toNat
  if code = 0x18 ∨ code = 0x1A then ground
  else if code = 0x1B then escape
  else if code < 0x20 then if state = systemCommand ∧ code = 0x07 then ground else state
  else if code < 0x7F then state.graphic code
  else if state = content ∧ 0x9C ∈ String.utf8EncodeChar char then ground
  else state

/-- A control character that is kept. -/
def isBlank (char : Char) : Bool :=
  char == '\t' || char == '\n' || char == '\x0c' || char == '\r'

/-- A character is shown in a state: outside of sequences if it is no control
character of ASCII, and otherwise only a blank that stands in no string. -/
def State.shows (state : State) (char : Char) : Bool :=
  match state with
  | ground => isBlank char || (0x20 ≤ char.toNat && char.toNat ≠ 0x7F)
  | escape | escapeIntermediate | controlSequence => isBlank char
  | _ => false

/-- The characters that are shown, from a state on.  The flag tells that the
character before was shown. -/
def keep : Bool → State → List Char → List Char
  | _, _, [] => []
  | afterShown, state, char :: chars =>
      if state.shows char || (afterShown && State.ground.shows char) then
        char :: keep true (if 0x80 ≤ char.toNat then .ground else state) chars
      else keep false (state.next char) chars

/-- A text without control characters and control sequences. -/
def plain (text : String) : String :=
  String.ofList (keep false .ground text.toList)

/-- A text that has nothing to remove is kept as it is. -/
theorem keep_eq_self (afterShown : Bool) (chars : List Char)
    (shown : ∀ char ∈ chars, State.ground.shows char = true) :
    keep afterShown .ground chars = chars := by
  induction chars generalizing afterShown with
  | nil => rfl
  | cons char chars ih =>
      have here := shown char List.mem_cons_self
      have rest := ih true fun other found => shown other (List.mem_cons_of_mem _ found)
      simp [keep, here, rest]

end Provenance.Text.Terminal
