import Provenance.Text.Visible

/-!
# Quoted text

Text between quotes in which every character can be told apart: quotes,
backslashes and the usual control characters have short escapes, and whatever
shows no mark of its own is written as its code point in braces.
-/

namespace Provenance.Text.Quoted

/-- How a character is written between quotes. -/
def encodeChar (char : Char) : List Char :=
  match char with
  | '"' => ['\\', '"']
  | '\\' => ['\\', '\\']
  | '\n' => ['\\', 'n']
  | '\r' => ['\\', 'r']
  | '\t' => ['\\', 't']
  | '\x00' => ['\\', '0']
  | char =>
      if isVisible char then [char]
      else '\\' :: 'u' :: '\x7b' :: Nat.toDigits 16 char.toNat ++ ['\x7d']

/-- A text between quotes. -/
def encode (text : String) : String :=
  String.ofList ('"' :: text.toList.flatMap encodeChar ++ ['"'])

end Provenance.Text.Quoted
