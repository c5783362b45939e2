import TimelineStore.Rocpd.Tables

/-!
# Statements of queries

A table of a file may have the name of a known table and none of its columns.  A
query that mentions such a column is refused before it reads a row, with the
first such column that it looks up, the text of its statement and the position of
the column in the text.
-/

namespace TimelineStore.Rocpd

/-- A piece of a statement: words, or the first mention of a column of a table. -/
inductive Piece where
  | words (text : String)
  | column (table name : String)
deriving DecidableEq

/-- The text of a piece. -/
def Piece.text : Piece → String
  | .words text => text
  | .column _ name => name

/-- The statement of a query.  One that unites several selections looks up the columns of
the last one first. -/
structure Statement where
  pieces : List Piece
  lastFirst : Bool
deriving DecidableEq

/-- A column where a statement mentions it. -/
structure Mention where
  table : String
  name : String
  position : Nat
deriving DecidableEq

namespace Statement

/-- The text of the statement. -/
def text (statement : Statement) : String :=
  String.join (statement.pieces.map Piece.text)

/-- The columns that pieces mention, the first of the pieces at a position. -/
def mentionsFrom (position : Nat) : List Piece → List Mention
  | [] => []
  | .words text :: rest => mentionsFrom (position + text.utf8ByteSize) rest
  | .column table name :: rest =>
    ⟨table, name, position⟩ :: mentionsFrom (position + name.utf8ByteSize) rest

/-- The columns that the statement mentions, in the order in which they are looked up. -/
def mentions (statement : Statement) : List Mention :=
  let mentions := mentionsFrom 0 statement.pieces
  if statement.lastFirst then mentions.reverse else mentions

/-- The statement is refused if a table that it mentions a column of has none. -/
def check (statement : Statement) (bare : List String) : Except DatabaseFailure Unit :=
  match statement.mentions.find? fun mention => bare.contains mention.table with
  | none => .ok ()
  | some mention =>
    .error (.query (s!"no such column: {mention.name} in {statement.text} at offset " ++
      toString mention.position))

end Statement

section Statements

/-- The statement that finds the time that the tables cover. -/
def boundsStatement (samples : Bool) : Statement where
  pieces := [
    .words "SELECT MIN(s), MAX(e) FROM (SELECT MIN(", .column "rocpd_api" "start",
    .words ") AS s, MAX(end) AS e FROM rocpd_api UNION ALL SELECT MIN(",
    .column "rocpd_op" "start", .words "), MAX(end) FROM rocpd_op"] ++
    (if samples then [
      .words " UNION ALL SELECT MIN(", .column "rocpd_monitor" "start",
      .words "), MAX(start) FROM rocpd_monitor"]
    else []) ++
    [.words ")"]
  lastFirst := true

/-- The statement that selects calls of a window. -/
def callStatement : Statement where
  pieces := [
    .words "SELECT ", .column "rocpd_api" "A.pid", .words ", A.tid, A.id, A.start, A.end, ",
    .column "rocpd_string" "S1.string",
    .words (", S2.string FROM rocpd_api A " ++
      "LEFT JOIN rocpd_string S1 ON S1.id = A.apiName_id " ++
      "LEFT JOIN rocpd_string S2 ON S2.id = A.args_id " ++
      "WHERE A.start < ?2 AND (A.end > ?1 OR A.start >= ?1) ORDER BY start")]
  lastFirst := false

/-- The statement that selects dispatches of a window. -/
def dispatchStatement : Statement where
  pieces := [
    .words "SELECT ", .column "rocpd_op" "O.gpuId",
    .words ", O.queueId, O.id, O.start, O.end, ", .column "rocpd_string" "S1.string",
    .words (", S2.string FROM rocpd_op O " ++
      "LEFT JOIN rocpd_string S1 ON S1.id = O.opType_id " ++
      "LEFT JOIN rocpd_string S2 ON S2.id = O.description_id " ++
      "WHERE O.start < ?2 AND (O.end > ?1 OR O.start >= ?1) ORDER BY start")]
  lastFirst := false

/-- The statement that selects samples of a window. -/
def sampleStatement : Statement where
  pieces := [
    .words "SELECT ", .column "rocpd_monitor" "deviceId",
    .words (", monitorType, start, CAST(value AS REAL) FROM rocpd_monitor " ++
      "WHERE deviceId > 0 AND start >= ?1 AND start < ?2 ORDER BY start")]
  lastFirst := false

/-- The statement that selects the dispatches that a call is linked to. -/
def linkedDispatchStatement : Statement where
  pieces := [
    .words "SELECT ", .column "rocpd_api_ops" "L.op_id", .words ", ",
    .column "rocpd_op" "O.gpuId",
    .words (", O.queueId, O.start FROM rocpd_api_ops L JOIN rocpd_op O ON O.id = L.op_id " ++
      "WHERE L.api_id = ?1 ORDER BY O.start")]
  lastFirst := false

/-- The statement that selects the calls that a dispatch is linked to. -/
def linkedCallStatement : Statement where
  pieces := [
    .words "SELECT ", .column "rocpd_api_ops" "L.api_id", .words ", ",
    .column "rocpd_api" "A.pid",
    .words (", A.tid, A.end FROM rocpd_api_ops L JOIN rocpd_api A ON A.id = L.api_id " ++
      "WHERE L.op_id = ?1 ORDER BY A.end")]
  lastFirst := false

/-- The statement that selects the frames of a call. -/
def frameStatement : Statement where
  pieces := [
    .words "SELECT ", .column "rocpd_string" "S2.string", .words ", S3.string, S1.string, ",
    .column "rocpd_stackframe" "F.depth",
    .words (" FROM rocpd_stackframe F JOIN rocpd_string S1 ON S1.id = F.name_id " ++
      "JOIN rocpd_api A ON A.id = F.api_ptr_id " ++
      "LEFT JOIN rocpd_string S2 ON S2.id = A.apiName_id " ++
      "LEFT JOIN rocpd_string S3 ON S3.id = A.args_id WHERE "),
    .column "rocpd_api" "A.id", .words " = ?1 ORDER BY F.depth"]
  lastFirst := false

/-- The statement that selects the row of a call. -/
def callRowStatement : Statement where
  pieces := [
    .words "SELECT ", .column "rocpd_api" "A.id", .words ", A.pid, A.tid, A.start, A.end, ",
    .column "rocpd_string" "S1.string",
    .words (" AS apiName, S2.string AS args FROM rocpd_api A " ++
      "LEFT JOIN rocpd_string S1 ON S1.id = A.apiName_id " ++
      "LEFT JOIN rocpd_string S2 ON S2.id = A.args_id WHERE A.id = ?1")]
  lastFirst := false

/-- The statement that selects the row of a dispatch. -/
def dispatchRowStatement : Statement where
  pieces := [
    .words "SELECT ", .column "rocpd_op" "O.id",
    .words ", O.gpuId, O.queueId, O.sequenceId, O.start, O.end, ",
    .column "rocpd_string" "S1.string",
    .words (" AS opType, S2.string AS description FROM rocpd_op O " ++
      "LEFT JOIN rocpd_string S1 ON S1.id = O.opType_id " ++
      "LEFT JOIN rocpd_string S2 ON S2.id = O.description_id WHERE O.id = ?1")]
  lastFirst := false

end Statements

/-- The statement of a query may be run on the tables. -/
def Tables.prepare (tables : Tables) (statement : Statement) : Except DatabaseFailure Unit :=
  statement.check tables.bare

end TimelineStore.Rocpd
