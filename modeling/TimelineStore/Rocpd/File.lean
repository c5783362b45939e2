import TimelineStore.Rocpd.Source

/-!
# Opening database files

What is found at a path decides whether it can be opened: the names of the
tables tell the known formats apart, and only a rocpd file with its three
necessary tables becomes a source.  Views are not tables.
-/

namespace TimelineStore.Rocpd

/-- The tables and views of a database file.  A table of another name has a name only. -/
structure Schema where
  strings : Option (List StringRow)
  calls : Option (List CallRow)
  dispatches : Option (List DispatchRow)
  samples : Option (List SampleRow)
  links : Option (List LinkRow)
  frames : Option (List FrameRow)
  others : List String
  views : List String

namespace Schema

/-- No table and no view. -/
def empty : Schema :=
  ⟨none, none, none, none, none, none, [], []⟩

/-- Rows of a table from their identifiers and cells, if each has as many cells as there
are columns. -/
def rows? {ρ : Type} (ofCells? : Int → List Sql.Cell → Option ρ)
    (cells : List (Int × List Sql.Cell)) : Option (Option (List ρ)) :=
  (cells.mapM fun (id, cells) => ofCells? id cells).map some

/-- The schema with one more table, if its rows fit it. -/
def withTable? (schema : Schema) (name : String) (cells : List (Int × List Sql.Cell)) :
    Option Schema :=
  match name with
  | "rocpd_string" => do return { schema with strings := ← rows? StringRow.ofCells? cells }
  | "rocpd_api" => do return { schema with calls := ← rows? CallRow.ofCells? cells }
  | "rocpd_op" => do return { schema with dispatches := ← rows? DispatchRow.ofCells? cells }
  | "rocpd_monitor" => do return { schema with samples := ← rows? SampleRow.ofCells? cells }
  | "rocpd_api_ops" => do return { schema with links := ← rows? LinkRow.ofCells? cells }
  | "rocpd_stackframe" => do return { schema with frames := ← rows? FrameRow.ofCells? cells }
  | _ => some { schema with others := name :: schema.others }

/-- A name stands for a table that is there. -/
def named {α : Type} (name : String) : Option α → List String
  | some _ => [name]
  | none => []

/-- The names of the tables. -/
def tableNames (schema : Schema) : List String :=
  named "rocpd_string" schema.strings ++ named "rocpd_api" schema.calls ++
    named "rocpd_op" schema.dispatches ++ named "rocpd_monitor" schema.samples ++
    named "rocpd_api_ops" schema.links ++ named "rocpd_stackframe" schema.frames ++
    schema.others

/-- There is a table of exactly this name. -/
def hasTable (schema : Schema) (name : String) : Bool :=
  schema.tableNames.contains name

/-- The rows of a table; one that has a name only holds none. -/
def rowsOf {ρ : Type} (schema : Schema) (name : String) : Option (List ρ) → Option (List ρ)
  | some rows => some rows
  | none => if schema.others.contains name then some [] else none

/-- The tables that a source reads. -/
def tables (schema : Schema) : Tables where
  strings := stringTable (schema.strings.getD [])
  calls := callTable (schema.calls.getD [])
  dispatches := dispatchTable (schema.dispatches.getD [])
  samples := (schema.rowsOf "rocpd_monitor" schema.samples).map sampleTable
  links := (schema.rowsOf "rocpd_api_ops" schema.links).map linkTable
  frames := (schema.rowsOf "rocpd_stackframe" schema.frames).map frameTable
  bare := schema.others

end Schema

/-- What is found at a path. -/
inductive Contents where
  | nothing
  | text (contents : String)
  | database (schema : Schema)

/-- A path and what is found there. -/
structure File where
  path : String
  contents : Contents

/-- The format of a database. -/
inductive Format where
  | rocpd
  | rocprof
  | unknown
deriving DecidableEq

instance : ToString Format where
  toString
    | .rocpd => "Rocpd"
    | .rocprof => "Rocprof"
    | .unknown => "Unknown"

section Matching

/-- The text begins as the pattern says: an underscore of the pattern stands for any
one character, and the case of English letters does not count. -/
def beginsLike : (pattern text : List Char) → Bool
  | [], _ => true
  | _ :: _, [] => false
  | p :: pattern, c :: text => (p = '_' || p.toLower = c.toLower) && beginsLike pattern text

/-- How the names of the tables of the other known format begin. -/
def rocprofPattern : String := "rocpd_info_node_"

/-- The format that the tables show. -/
def Schema.format (schema : Schema) : Format :=
  if schema.hasTable "rocpd_api" then .rocpd
  else if schema.tableNames.any fun name => beginsLike rocprofPattern.toList name.toList then
    .rocprof
  else
    .unknown

end Matching

namespace File

/-- The tables and views of the file; the empty file is a database without any. -/
def schema (file : File) : Except DatabaseFailure Schema :=
  match file.contents with
  | .nothing => .error (.inputOutput s!"{file.path} does not exist")
  | .text contents =>
    if contents = "" then .ok .empty else .error (.query "file is not a database")
  | .database schema => .ok schema

/-- The format of the file. -/
def detect (file : File) : Except DatabaseFailure Format :=
  file.schema.map Schema.format

/-- The tables that a rocpd file must have, in the order in which they are looked for. -/
def necessary : List String :=
  ["rocpd_api", "rocpd_op", "rocpd_string"]

/-- The file as a rocpd source. -/
def openRocpd (file : File) : Except DatabaseFailure Source := do
  let schema ← file.schema
  match necessary.find? fun name => !schema.hasTable name with
  | some missing => .error (.schema s!"{file.path} has no {missing} table")
  | none => .ok (schema.tables.toSource file.path)

end File

/-- What a caller knows about a file. -/
inductive FileKind where
  | autodetect
  | rocpd
  | rocprof
  | memory
deriving DecidableEq

namespace FileKind

/-- Every kind, at the position of its number. -/
def all : List FileKind :=
  [.autodetect, .rocpd, .rocprof, .memory]

/-- The number of the kind. -/
def number : FileKind → Nat
  | .autodetect => 0
  | .rocpd => 1
  | .rocprof => 2
  | .memory => 3

/-- The kind with a number. -/
def ofNumber? (number : Nat) : Option FileKind :=
  all[number]?

instance : ToString FileKind where
  toString
    | .autodetect => "Autodetect"
    | .rocpd => "RocpdSqlite"
    | .rocprof => "RocprofSqlite"
    | .memory => "Memory"

end FileKind

namespace File

/-- The known format of another profiler. -/
def rocprofUnsupported : DatabaseFailure :=
  .unsupported "rocprofiler-sdk databases"

/-- The file as a source, its format known or to be detected. -/
def openAs (file : File) : FileKind → Except DatabaseFailure Source
  | .rocpd => file.openRocpd
  | .rocprof => .error rocprofUnsupported
  | .memory =>
    .error (.unsupported "memory sources are registered directly, not opened from a path")
  | .autodetect => do
    match ← file.detect with
    | .rocpd => file.openRocpd
    | .rocprof => .error rocprofUnsupported
    | .unknown => .error (.unknownFormat file.path)

end File

end TimelineStore.Rocpd
