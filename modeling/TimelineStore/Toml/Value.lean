/-!
# Settings documents

A settings document is a TOML document: a table of values by key, in which a
value may be a table again.  A table remembers what made it, because that decides
what may still be added to it.
-/

namespace TimelineStore.Toml

/-- What made a table. -/
inductive Origin where
  /-- Braces, which say all that it holds. -/
  | inline
  /-- The parts of a dotted key before its last. -/
  | dotted
  /-- The parts of a header before its last. -/
  | implied
  /-- A header of its own. -/
  | header
deriving DecidableEq

/-- A value under a key. -/
inductive Node where
  | text (value : String)
  | whole (value : Int)
  | real (value : Float)
  | truth (value : Bool)
  | moment (literal : String)
  | array (items : List Node)
  | table (origin : Origin) (entries : List (String × Node))
  /-- Tables under one key, each made by a header in double brackets. -/
  | tables (elements : List (List (String × Node)))

/-- What a table holds, by key. -/
abbrev Entries := List (String × Node)

/-- A key, part by part from the outside in. -/
abbrev Path := List String

/-- What one statement of a document says. -/
inductive Statement where
  | blank
  | header (path : Path)
  | element (path : Path)
  | assignment (path : Path) (value : Node)

end TimelineStore.Toml
