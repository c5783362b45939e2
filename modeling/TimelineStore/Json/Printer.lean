import TimelineStore.Decimal.Layout
import TimelineStore.Json.Value

/-!
# Writing JSON documents

Documents are written without blanks.  In a string only the quote, the
backslash and control characters are escaped.
-/

namespace TimelineStore

/-- The digit for a value below sixteen, in lower case. -/
def hexDigit (value : Nat) : Char :=
  Nat.digitChar value

/-- The text of a number. -/
def JsonNumber.write : JsonNumber → List Char
  | .whole value => (toString value).toList
  | .real value => Decimal.jsonText value

namespace Json

/-- A character as it stands in a string. -/
def writeChar (c : Char) : List Char :=
  if c = '"' then ['\\', '"']
  else if c = '\\' then ['\\', '\\']
  else if c = '\x08' then ['\\', 'b']
  else if c = '\x0c' then ['\\', 'f']
  else if c = '\n' then ['\\', 'n']
  else if c = '\r' then ['\\', 'r']
  else if c = '\t' then ['\\', 't']
  else if c.toNat < 0x20 then
    ['\\', 'u', '0', '0', hexDigit (c.toNat / 16), hexDigit (c.toNat % 16)]
  else [c]

/-- A string with its quotes. -/
def writeString (text : String) : List Char :=
  '"' :: (text.toList.flatMap writeChar ++ ['"'])

mutual

/-- The text of a value. -/
def write : Json → List Char
  | .null => ['n', 'u', 'l', 'l']
  | .bool true => ['t', 'r', 'u', 'e']
  | .bool false => ['f', 'a', 'l', 's', 'e']
  | .number n => n.write
  | .string text => writeString text
  | .array [] => ['[', ']']
  | .array (first :: others) => '[' :: (write first ++ writeElements others)
  | .object [] => ['{', '}']
  | .object ((name, value) :: others) =>
    '{' :: (writeString name ++ ':' :: (write value ++ writeMembers others))

/-- The further elements of an array and its closing bracket. -/
def writeElements : List Json → List Char
  | [] => [']']
  | next :: others => ',' :: (write next ++ writeElements others)

/-- The further members of an object and its closing brace. -/
def writeMembers : List (String × Json) → List Char
  | [] => ['}']
  | (name, value) :: others =>
    ',' :: (writeString name ++ ':' :: (write value ++ writeMembers others))

end

/-- The document of a value. -/
def print (value : Json) : String :=
  String.ofList value.write

end Json

end TimelineStore
