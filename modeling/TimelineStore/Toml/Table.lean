import TimelineStore.Toml.Value

/-!
# Tables of a settings document

A key may be assigned once, and nothing can be both a value and a table.  What
may be added to a table depends on its origin: dotted keys add to tables that
dotted keys made, a header opens a table once, and a table in braces is closed.
-/

namespace TimelineStore.Toml

namespace Entries

/-- The entries with another value under a key that they have. -/
def replace (entries : Entries) (key : String) (value : Node) : Entries :=
  entries.map fun entry => if entry.1 = key then (key, value) else entry

/-- The tables under a key with the last of them changed. -/
def changeLast (change : Entries → Option Entries) : List Entries → Option (List Entries)
  | [] => none
  | [last] => (change last).map ([·])
  | first :: rest => (changeLast change rest).map (first :: ·)

/-- The entries with a value under a dotted key.  Its parts before the last lead through
tables that dotted keys or longer headers made, but the last part is added to one that
dotted keys made. -/
def assign? (value : Node) : Path → Entries → Option Entries
  | [], _ => none
  | [key], entries =>
    match entries.lookup key with
    | none => some (entries ++ [(key, value)])
    | some _ => none
  | key :: next :: rest, entries =>
    match entries.lookup key with
    | none =>
      (assign? value (next :: rest) []).map fun inner => entries ++ [(key, .table .dotted inner)]
    | some (.table .dotted inner) =>
      (assign? value (next :: rest) inner).map fun inner =>
        replace entries key (.table .dotted inner)
    | some (.table .implied inner) =>
      if rest.isEmpty then
        none
      else
        (assign? value (next :: rest) inner).map fun inner =>
          replace entries key (.table .implied inner)
    | some (.tables elements) =>
      if rest.isEmpty then
        none
      else
        (changeLast (assign? value (next :: rest)) elements).map fun elements =>
          replace entries key (.tables elements)
    | some _ => none

/-- The entries after a header, given what the header does with its last part.  The parts
before it lead through any tables that are not closed; of several tables under one key the
last one counts. -/
def open? (last : String → Entries → Option Entries) : Path → Entries → Option Entries
  | [], _ => none
  | [key], entries => last key entries
  | key :: next :: rest, entries =>
    match entries.lookup key with
    | none =>
      (open? last (next :: rest) []).map fun inner => entries ++ [(key, .table .implied inner)]
    | some (.table .inline _) => none
    | some (.table origin inner) =>
      (open? last (next :: rest) inner).map fun inner =>
        replace entries key (.table origin inner)
    | some (.tables elements) =>
      (changeLast (open? last (next :: rest)) elements).map fun elements =>
        replace entries key (.tables elements)
    | some _ => none

/-- A header opens a table that is new, or that longer headers only passed through. -/
def openTable? (key : String) (entries : Entries) : Option Entries :=
  match entries.lookup key with
  | none => some (entries ++ [(key, .table .header [])])
  | some (.table .implied inner) => some (replace entries key (.table .header inner))
  | some _ => none

/-- A header in double brackets adds a table to those under its key. -/
def openElement? (key : String) (entries : Entries) : Option Entries :=
  match entries.lookup key with
  | none => some (entries ++ [(key, .tables [[]])])
  | some (.tables elements) => some (replace entries key (.tables (elements ++ [[]])))
  | some _ => none

/-- The entries with a change in the table that a header opened. -/
def within? (change : Entries → Option Entries) : Path → Entries → Option Entries
  | [], entries => change entries
  | key :: rest, entries =>
    match entries.lookup key with
    | some (.table origin inner) =>
      (within? change rest inner).map fun inner => replace entries key (.table origin inner)
    | some (.tables elements) =>
      (changeLast (within? change rest) elements).map fun elements =>
        replace entries key (.tables elements)
    | _ => none

/-- The table in braces that holds some assignments. -/
def ofAssignments? (assignments : List (Path × Node)) : Option Entries :=
  assignments.foldlM (fun entries (path, value) => entries.assign? value path) []

end Entries

end TimelineStore.Toml
