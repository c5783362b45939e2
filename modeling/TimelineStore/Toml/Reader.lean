import TimelineStore.Toml.Moment
import TimelineStore.Toml.Table
import TimelineStore.Toml.Text

/-!
# Statements of a settings document

A statement is blank, opens a table or assigns a value; a comment may end it.
Values in square brackets may go over several lines, those in braces not.
-/

namespace TimelineStore.Toml

/-- Letters, digits, underscores and dashes need no quotes in a key. -/
def isBare (c : Char) : Bool :=
  c.isAlphanum || c = '_' || c = '-'

/-- How deep values may lie in one another, and how many parts a key may have. -/
def depthLimit : Nat := 79

section Keys

/-- One part of a key, and the rest. -/
def readPart? (cs : List Char) : Option (String × List Char) :=
  match cs with
  | '"' :: rest => (readQuoted? rest).map fun (part, after) => (String.ofList part, after)
  | '\'' :: rest => (readLiteral? rest).map fun (part, after) => (String.ofList part, after)
  | _ =>
    match cs.span isBare with
    | ([], _) => none
    | (part, after) => some (String.ofList part, after)

/-- A key of at most `limit` parts with dots between them, and what follows the blanks
after it. -/
def readPath? : (limit : Nat) → List Char → Option (Path × List Char)
  | 0, _ => none
  | limit + 1, cs =>
    match readPart? (skipBlanks cs) with
    | none => none
    | some (part, after) =>
      match skipBlanks after with
      | '.' :: rest => (readPath? limit rest).map fun (path, after) => (part :: path, after)
      | after => some ([part], after)

end Keys

section Values

/-- An unquoted word ends here. -/
def endsWord (c : Char) : Bool :=
  isBlank c || c = '\n' || c = '\r' || c = '#' || c = ',' || c = ']' || c = '}'

/-- The value of an unquoted word. -/
def word? (cs : List Char) : Option Node :=
  if cs = ['t', 'r', 'u', 'e'] then some (.truth true)
  else if cs = ['f', 'a', 'l', 's', 'e'] then some (.truth false)
  else if isMoment cs then some (.moment (String.ofList cs))
  else
    match whole? cs with
    | some value => some (.whole value)
    | none => (real? cs).map .real

/-- The word at the front, and the rest.  A date takes in the time after a single blank. -/
def splitWord (cs : List Char) : List Char × List Char :=
  let (word, after) := cs.span (!endsWord ·)
  match after with
  | ' ' :: c :: rest =>
    if isDate word && c.isDigit then
      let (time, after) := (c :: rest).span (!endsWord ·)
      (word ++ ' ' :: time, after)
    else
      (word, after)
  | _ => (word, after)

/-- Skips blanks, line ends and comments; comments hold no control characters. -/
def skipFiller? : (comment : Bool) → List Char → Option (List Char)
  | _, [] => some []
  | _, '\n' :: rest => skipFiller? false rest
  | _, '\r' :: '\n' :: rest => skipFiller? false rest
  | true, c :: rest => if isAllowed c then skipFiller? true rest else none
  | false, c :: rest =>
    if c = '#' then skipFiller? true rest
    else if isBlank c then skipFiller? false rest
    else some (c :: rest)

mutual

/-- A value, and the rest, given how deep further values may lie in it.  Each value takes
a character at least, which bounds the fuel. -/
def readNode? (fuel depth : Nat) (cs : List Char) : Option (Node × List Char) :=
  match fuel with
  | 0 => none
  | fuel + 1 =>
    match cs with
    | [] => none
    | '[' :: rest =>
      if depth = 0 then none
      else (readItems? fuel (depth - 1) rest).map fun (items, after) => (.array items, after)
    | '{' :: rest =>
      if depth = 0 then
        none
      else
        match skipBlanks rest with
        | '}' :: after => some (.table .inline [], after)
        | rest =>
          match readAssignments? fuel (depth - 1) rest with
          | none => none
          | some (assignments, after) =>
            (Entries.ofAssignments? assignments).map fun entries =>
              (.table .inline entries, after)
    | c :: rest =>
      if c = '"' || c = '\'' then
        (readText? (c :: rest)).map fun (text, after) => (.text (String.ofList text), after)
      else
        let (word, after) := splitWord (c :: rest)
        (word? word).map (·, after)

/-- The values up to a closing bracket, and the rest. -/
def readItems? (fuel depth : Nat) (cs : List Char) : Option (List Node × List Char) :=
  match fuel with
  | 0 => none
  | fuel + 1 =>
    match skipFiller? false cs with
    | none => none
    | some (']' :: after) => some ([], after)
    | some cs =>
      match readNode? fuel depth cs with
      | none => none
      | some (item, rest) =>
        match skipFiller? false rest with
        | some (',' :: rest) =>
          (readItems? fuel depth rest).map fun (items, after) => (item :: items, after)
        | some (']' :: after) => some ([item], after)
        | _ => none

/-- The assignments up to a closing brace, and the rest. -/
def readAssignments? (fuel depth : Nat) (cs : List Char) :
    Option (List (Path × Node) × List Char) :=
  match fuel with
  | 0 => none
  | fuel + 1 =>
    match readPath? depthLimit cs with
    | some (path, '=' :: rest) =>
      match readNode? fuel depth (skipBlanks rest) with
      | none => none
      | some (value, rest) =>
        match skipBlanks rest with
        | ',' :: rest =>
          (readAssignments? fuel depth rest).map fun (assignments, after) =>
            ((path, value) :: assignments, after)
        | '}' :: after => some ([(path, value)], after)
        | _ => none
    | _ => none

end

end Values

section Statements

/-- The rest after the end of a statement: blanks and a comment up to a line end, or to the
end of the document. -/
def afterStatement? (cs : List Char) : Option (List Char) :=
  let rest :=
    match skipBlanks cs with
    | '#' :: comment => comment.dropWhile isAllowed
    | rest => rest
  if rest.isEmpty then some []
  else if atLineEnd rest then some (skipLineEnd rest)
  else none

/-- What a header says, and the rest after its line. -/
def readHeader? (cs : List Char) : Option (Statement × List Char) :=
  match cs with
  | '[' :: '[' :: rest =>
    match readPath? depthLimit rest with
    | some (path, ']' :: ']' :: after) => (afterStatement? after).map (.element path, ·)
    | _ => none
  | '[' :: rest =>
    match readPath? depthLimit rest with
    | some (path, ']' :: after) => (afterStatement? after).map (.header path, ·)
    | _ => none
  | _ => none

/-- The statement at the front, and the rest. -/
def readStatement? (cs : List Char) : Option (Statement × List Char) :=
  match skipBlanks cs with
  | [] => some (.blank, [])
  | '[' :: rest => readHeader? ('[' :: rest)
  | c :: rest =>
    if c = '#' || atLineEnd (c :: rest) then
      (afterStatement? (c :: rest)).map (.blank, ·)
    else
      match readPath? depthLimit (c :: rest) with
      | some (path, '=' :: rest) =>
        match readNode? (2 * rest.length + 1) depthLimit (skipBlanks rest) with
        | none => none
        | some (value, after) => (afterStatement? after).map (.assignment path value, ·)
      | _ => none

end Statements

end TimelineStore.Toml
