import TimelineStore.Json.Number

/-!
# Reading JSON documents

`Json.read?` accepts a complete document with blanks around it.  Containers may
nest to a fixed depth, the members of an object may repeat a name, and a `\u`
escape of half a surrogate pair is refused.
-/

namespace TimelineStore.Json

/-- The blanks of a document. -/
def isBlank (c : Char) : Bool :=
  c = ' ' || c = '\t' || c = '\n' || c = '\r'

/-- The text without the blanks at its front. -/
def skipBlanks (cs : List Char) : List Char :=
  cs.dropWhile isBlank

/-- Where the reader stands within a string. -/
inductive StringScan where
  /-- Between characters. -/
  | plain
  /-- After a backslash. -/
  | escaped
  /-- Within the digits of a code, after the first half of a pair if there is one. -/
  | hex (high : Option Nat) (left : Nat) (code : Nat)
  /-- After the first half of a pair. -/
  | half (high : Nat)
  /-- After the first half of a pair and a backslash. -/
  | halfEscaped (high : Nat)

/-- The character that a letter after a backslash stands for. -/
def escape? (c : Char) : Option Char :=
  match c with
  | '"' => some '"'
  | '\\' => some '\\'
  | '/' => some '/'
  | 'b' => some '\x08'
  | 'f' => some '\x0c'
  | 'n' => some '\n'
  | 'r' => some '\r'
  | 't' => some '\t'
  | _ => none

/-- The value of a hexadecimal digit. -/
def hexValue? (c : Char) : Option Nat :=
  if c.isDigit then some (c.toNat - '0'.toNat)
  else if 'a' ≤ c ∧ c ≤ 'f' then some (c.toNat - 'a'.toNat + 10)
  else if 'A' ≤ c ∧ c ≤ 'F' then some (c.toNat - 'A'.toNat + 10)
  else none

/-- The code is the first half of a surrogate pair. -/
def isHighHalf (code : Nat) : Bool :=
  0xD800 ≤ code && code ≤ 0xDBFF

/-- The code is the second half of a surrogate pair. -/
def isLowHalf (code : Nat) : Bool :=
  0xDC00 ≤ code && code ≤ 0xDFFF

/-- The character of a surrogate pair. -/
def joinHalves (high low : Nat) : Char :=
  Char.ofNat (0x10000 + (high - 0xD800) * 0x400 + (low - 0xDC00))

/-- The characters of a string up to its closing quote, and what follows the quote. -/
def readString? : StringScan → List Char → Option (List Char × List Char)
  | _, [] => none
  | .plain, c :: rest =>
    if c = '"' then
      some ([], rest)
    else if c = '\\' then
      readString? .escaped rest
    else if c.toNat < 0x20 then
      none
    else
      (readString? .plain rest).map fun (cs, after) => (c :: cs, after)
  | .escaped, c :: rest =>
    if c = 'u' then
      readString? (.hex none 3 0) rest
    else
      match escape? c with
      | none => none
      | some x => (readString? .plain rest).map fun (cs, after) => (x :: cs, after)
  | .hex high left code, c :: rest =>
    match hexValue? c with
    | none => none
    | some digit =>
      let code := code * 16 + digit
      match left, high with
      | left + 1, _ => readString? (.hex high left code) rest
      | 0, none =>
        if isLowHalf code then
          none
        else if isHighHalf code then
          readString? (.half code) rest
        else
          (readString? .plain rest).map fun (cs, after) => (Char.ofNat code :: cs, after)
      | 0, some first =>
        if isLowHalf code then
          (readString? .plain rest).map fun (cs, after) => (joinHalves first code :: cs, after)
        else
          none
  | .half high, c :: rest =>
    if c = '\\' then readString? (.halfEscaped high) rest else none
  | .halfEscaped high, c :: rest =>
    if c = 'u' then readString? (.hex (some high) 3 0) rest else none

/-- How deep the containers of a document may nest. -/
def depthLimit : Nat := 127

/-- The value if the text goes on with the given characters. -/
def expect (word : List Char) (value : Json) (cs : List Char) : Option (Json × List Char) :=
  if word.isPrefixOf cs then some (value, cs.drop word.length) else none

mutual

/-- A value at the front of a text, and the rest of the text.  Each call takes one unit of
fuel; a text never needs more than two for each of its characters and two at its end. -/
def readValue? : (fuel depth : Nat) → List Char → Option (Json × List Char)
  | 0, _, _ => none
  | fuel + 1, depth, cs =>
    match skipBlanks cs with
    | 'n' :: rest => expect ['u', 'l', 'l'] .null rest
    | 't' :: rest => expect ['r', 'u', 'e'] (.bool true) rest
    | 'f' :: rest => expect ['a', 'l', 's', 'e'] (.bool false) rest
    | '"' :: rest =>
      (readString? .plain rest).map fun (text, after) => (.string (String.ofList text), after)
    | '[' :: rest =>
      match depth with
      | 0 => none
      | depth + 1 =>
        match skipBlanks rest with
        | ']' :: after => some (.array [], after)
        | inner =>
          match readValue? fuel depth inner with
          | none => none
          | some (first, after) =>
            (readElements? fuel depth after).map fun (others, after) =>
              (.array (first :: others), after)
    | '{' :: rest =>
      match depth with
      | 0 => none
      | depth + 1 =>
        match skipBlanks rest with
        | '}' :: after => some (.object [], after)
        | inner =>
          match readMember? fuel depth inner with
          | none => none
          | some (first, after) =>
            (readMembers? fuel depth after).map fun (others, after) =>
              (.object (fieldsOf (first :: others)), after)
    | other => (JsonNumber.read? other).map fun (n, after) => (.number n, after)

/-- The further elements of an array, up to its closing bracket. -/
def readElements? : (fuel depth : Nat) → List Char → Option (List Json × List Char)
  | 0, _, _ => none
  | fuel + 1, depth, cs =>
    match skipBlanks cs with
    | ']' :: after => some ([], after)
    | ',' :: rest =>
      match readValue? fuel depth rest with
      | none => none
      | some (next, after) =>
        (readElements? fuel depth after).map fun (others, after) => (next :: others, after)
    | _ => none

/-- A name, a colon and a value. -/
def readMember? : (fuel depth : Nat) → List Char → Option ((String × Json) × List Char)
  | 0, _, _ => none
  | fuel + 1, depth, cs =>
    match skipBlanks cs with
    | '"' :: rest =>
      match readString? .plain rest with
      | none => none
      | some (name, after) =>
        match skipBlanks after with
        | ':' :: rest =>
          (readValue? fuel depth rest).map fun (value, after) =>
            ((String.ofList name, value), after)
        | _ => none
    | _ => none

/-- The further members of an object, up to its closing brace. -/
def readMembers? : (fuel depth : Nat) → List Char → Option (List (String × Json) × List Char)
  | 0, _, _ => none
  | fuel + 1, depth, cs =>
    match skipBlanks cs with
    | '}' :: after => some ([], after)
    | ',' :: rest =>
      match readMember? fuel depth rest with
      | none => none
      | some (next, after) =>
        (readMembers? fuel depth after).map fun (others, after) => (next :: others, after)
    | _ => none

end

/-- The value that a text is, if it is one complete document. -/
def read? (text : String) : Option Json :=
  let cs := text.toList
  match readValue? (2 * cs.length + 2) depthLimit cs with
  | none => none
  | some (value, after) => if skipBlanks after = [] then some value else none

end TimelineStore.Json
