import TimelineStore.Text.Printable

/-!
# Quoted texts

A quoted text stands in double quotes.  Quotes and backslashes in it, and the
characters that do not show by themselves, are escaped, so that a message shows
exactly which text it is about.
-/

namespace TimelineStore.Text

/-- A character by its code. -/
def codeEscape (c : Char) : List Char :=
  ['\\', 'u', '\x7b'] ++ Nat.toDigits 16 c.toNat ++ ['\x7d']

/-- A character as it stands in a quoted text. -/
def quoteChar (c : Char) : List Char :=
  match c with
  | '\x00' => ['\\', '0']
  | '\t' => ['\\', 't']
  | '\r' => ['\\', 'r']
  | '\n' => ['\\', 'n']
  | '\\' => ['\\', '\\']
  | '"' => ['\\', '"']
  | _ => if isPrintable c then [c] else codeEscape c

/-- The quoted form of a text. -/
def quoted (text : String) : String :=
  String.ofList ('"' :: (text.toList.flatMap quoteChar ++ ['"']))

end TimelineStore.Text
