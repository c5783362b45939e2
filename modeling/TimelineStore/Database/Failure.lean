import TimelineStore.Failure

/-!
# Failures of databases

Why a profiling database could not be opened or read.  A store that reads one
reports such a failure as one of its own.
-/

namespace TimelineStore

/-- Why a database could not be opened or read. -/
inductive DatabaseFailure where
  | query (what : String)
  | inputOutput (what : String)
  | unknownFormat (path : String)
  | unsupported (what : String)
  | schema (what : String)
deriving DecidableEq

namespace DatabaseFailure

/-- The text of the failure. -/
def message : DatabaseFailure → String
  | .query what => s!"sqlite error: {what}"
  | .inputOutput what => s!"I/O error: {what}"
  | .unknownFormat path => s!"unrecognized database format: {path}"
  | .unsupported what => s!"unsupported database: {what}"
  | .schema what => s!"schema mismatch: {what}"

/-- The name of the cause. -/
def cause : DatabaseFailure → String
  | .query _ => "Sqlite"
  | .inputOutput _ => "Io"
  | .unknownFormat _ => "UnknownFormat"
  | .unsupported _ => "Unsupported"
  | .schema _ => "Schema"

/-- The failure of each cause with a text. -/
def each (text : String) : List DatabaseFailure :=
  [.query text, .inputOutput text, .unknownFormat text, .unsupported text, .schema text]

/-- The failure with the name of a cause and a text. -/
def ofCause? (cause text : String) : Option DatabaseFailure :=
  (each text).find? (·.cause = cause)

/-- The failure as a store reports it. -/
def toFailure : DatabaseFailure → Failure
  | .inputOutput what => .inputOutput what
  | .unsupported what => .unsupported what
  | failure => .databaseAccess failure.message

end DatabaseFailure

/-- The outcome of a database as a store reports it. -/
def reportFailure {α : Type} : Except DatabaseFailure α → Except Failure α
  | .ok value => .ok value
  | .error failure => .error failure.toFailure

end TimelineStore
