import TimelineStore.Toml.Number

/-!
# Texts of a settings document

A text stands in single or in double quotes, on one line or, in three quotes, on
several.  Escapes count in double quotes only.  In three quotes a line end right
after the opening ones is dropped, and up to two quotes may stand before the
closing ones.
-/

namespace TimelineStore.Toml

/-- Blanks within a line. -/
def isBlank (c : Char) : Bool :=
  c = ' ' || c = '\t'

/-- The text without the blanks at its front. -/
def skipBlanks (cs : List Char) : List Char :=
  cs.dropWhile isBlank

/-- Control characters may not stand in a text or a comment, tabs apart. -/
def isAllowed (c : Char) : Bool :=
  c = '\t' || (0x20 ≤ c.toNat && c.toNat ≠ 0x7f)

/-- The character of a code in hexadecimal digits. -/
def codeChar? (cs : List Char) : Option Char :=
  match cs.mapM (digitValue? 16) with
  | none => none
  | some digits =>
    let code := ofDigits 16 digits
    if code.isValidChar then some (Char.ofNat code) else none

/-- The character that a mark after a backslash stands for. -/
def escaped? : Char → Option Char
  | 'b' => some '\x08'
  | 't' => some '\t'
  | 'n' => some '\n'
  | 'f' => some '\x0c'
  | 'r' => some '\r'
  | '"' => some '"'
  | '\\' => some '\\'
  | _ => none

/-- A character of a text and what was read after it. -/
def andThen (c : Char) : Option (List Char × List Char) → Option (List Char × List Char)
  | none => none
  | some (cs, after) => some (c :: cs, after)

/-- The characters of a text in double quotes up to its closing quote, and the rest. -/
def readQuoted? : List Char → Option (List Char × List Char)
  | '"' :: rest => some ([], rest)
  | '\\' :: 'u' :: a :: b :: c :: d :: rest =>
    match codeChar? [a, b, c, d] with
    | none => none
    | some x => andThen x (readQuoted? rest)
  | '\\' :: 'U' :: a :: b :: c :: d :: e :: f :: g :: h :: rest =>
    match codeChar? [a, b, c, d, e, f, g, h] with
    | none => none
    | some x => andThen x (readQuoted? rest)
  | '\\' :: mark :: rest =>
    match escaped? mark with
    | none => none
    | some x => andThen x (readQuoted? rest)
  | c :: rest =>
    if isAllowed c && c ≠ '\\' then andThen c (readQuoted? rest) else none
  | [] => none

/-- The characters of a text in single quotes up to its closing quote, and the rest. -/
def readLiteral? : List Char → Option (List Char × List Char)
  | '\'' :: rest => some ([], rest)
  | c :: rest => if isAllowed c then andThen c (readLiteral? rest) else none
  | [] => none

/-- The text begins with a line end. -/
def atLineEnd : List Char → Bool
  | '\n' :: _ => true
  | '\r' :: '\n' :: _ => true
  | _ => false

/-- The text without a line end at its front. -/
def skipLineEnd : List Char → List Char
  | '\n' :: rest => rest
  | '\r' :: '\n' :: rest => rest
  | cs => cs

/-- The characters of a text in three double quotes up to the closing ones, and the rest.
While it folds, blanks and line ends are dropped: a backslash at the end of a line folds
until the next character of another kind. -/
def readQuotedBlock? : (folds : Bool) → List Char → Option (List Char × List Char)
  | _, '"' :: '"' :: '"' :: '"' :: '"' :: rest => some (['"', '"'], rest)
  | _, '"' :: '"' :: '"' :: '"' :: rest => some (['"'], rest)
  | _, '"' :: '"' :: '"' :: rest => some ([], rest)
  | folds, '\r' :: '\n' :: rest =>
    if folds then readQuotedBlock? true rest else andThen '\n' (readQuotedBlock? false rest)
  | folds, '\n' :: rest =>
    if folds then readQuotedBlock? true rest else andThen '\n' (readQuotedBlock? false rest)
  | _, '\\' :: 'u' :: a :: b :: c :: d :: rest =>
    match codeChar? [a, b, c, d] with
    | none => none
    | some x => andThen x (readQuotedBlock? false rest)
  | _, '\\' :: 'U' :: a :: b :: c :: d :: e :: f :: g :: h :: rest =>
    match codeChar? [a, b, c, d, e, f, g, h] with
    | none => none
    | some x => andThen x (readQuotedBlock? false rest)
  | _, '\\' :: mark :: rest =>
    if atLineEnd (skipBlanks (mark :: rest)) then
      readQuotedBlock? true rest
    else
      match escaped? mark with
      | none => none
      | some x => andThen x (readQuotedBlock? false rest)
  | folds, c :: rest =>
    if folds && isBlank c then readQuotedBlock? true rest
    else if isAllowed c && c ≠ '\\' then andThen c (readQuotedBlock? false rest)
    else none
  | _, [] => none

/-- The characters of a text in three single quotes up to the closing ones, and the rest. -/
def readLiteralBlock? : List Char → Option (List Char × List Char)
  | '\'' :: '\'' :: '\'' :: '\'' :: '\'' :: rest => some (['\'', '\''], rest)
  | '\'' :: '\'' :: '\'' :: '\'' :: rest => some (['\''], rest)
  | '\'' :: '\'' :: '\'' :: rest => some ([], rest)
  | '\r' :: '\n' :: rest => andThen '\n' (readLiteralBlock? rest)
  | '\n' :: rest => andThen '\n' (readLiteralBlock? rest)
  | c :: rest => if isAllowed c then andThen c (readLiteralBlock? rest) else none
  | [] => none

/-- A text from its opening quote on, and the rest. -/
def readText? : List Char → Option (List Char × List Char)
  | '"' :: '"' :: '"' :: rest => readQuotedBlock? false (skipLineEnd rest)
  | '"' :: rest => readQuoted? rest
  | '\'' :: '\'' :: '\'' :: rest => readLiteralBlock? (skipLineEnd rest)
  | '\'' :: rest => readLiteral? rest
  | _ => none

end TimelineStore.Toml
