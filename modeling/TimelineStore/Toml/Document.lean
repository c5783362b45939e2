import TimelineStore.Toml.Reader

/-!
# Reading settings documents

A document is read statement by statement.  An assignment belongs to the table
that the last header opened.
-/

namespace TimelineStore.Toml

/-- What has been read, and the path of the table that the last header opened. -/
structure Document where
  entries : Entries
  present : Path

namespace Document

/-- Nothing has been read. -/
def empty : Document :=
  ⟨[], []⟩

/-- The document after one more statement. -/
def read? (document : Document) : Statement → Option Document
  | .blank => some document
  | .header path =>
    (document.entries.open? Entries.openTable? path).map fun entries => ⟨entries, path⟩
  | .element path =>
    (document.entries.open? Entries.openElement? path).map fun entries => ⟨entries, path⟩
  | .assignment path value =>
    (document.entries.within? (Entries.assign? value path) document.present).map
      fun entries => { document with entries }

/-- The document after the statements of a text.  Each statement but the last takes a
character at least, which bounds the fuel. -/
def readAll? : (fuel : Nat) → Document → List Char → Option Document
  | 0, _, _ => none
  | fuel + 1, document, cs =>
    match readStatement? cs with
    | none => none
    | some (statement, rest) =>
      match document.read? statement with
      | none => none
      | some document => if rest.isEmpty then some document else readAll? fuel document rest

/-- The text without a byte order mark at its front. -/
def withoutMark : List Char → List Char
  | '\ufeff' :: rest => rest
  | cs => cs

/-- The document that a text is, if it is one. -/
def ofText? (text : String) : Option Document :=
  let cs := withoutMark text.toList
  readAll? (cs.length + 1) empty cs

/-- What the document has under a key of one part. -/
def get? (document : Document) (key : String) : Option Node :=
  document.entries.lookup key

end Document

end TimelineStore.Toml
