import TimelineStore.Detail.Raw
import TimelineStore.Record
import TimelineStore.Rocpd.Statement
import TimelineStore.Rocpd.TrackKey

/-!
# Queries over rocpd tables

Each query filters, joins and orders rows of the tables and then reads the
columns of one row after the other; the first column of a type that it cannot
have ends the query.  Times are signed in the tables and unsigned outside: a
missing or negative time counts as zero.
-/

namespace TimelineStore.Rocpd

open TimelineStore.Sql

/-- The greatest time that a table can hold: all of its 63 bits are set. -/
def greatestTime : Nat := 0x7FFFFFFFFFFFFFFF

/-- A time as a condition compares with it. -/
def timeCell (time : Timestamp) : Cell :=
  .integer (min time.toNat greatestTime)

/-- A time read from a column. -/
def timeOf (value : Option Int) : Timestamp :=
  UInt64.ofNat (value.getD 0).toNat

/-- The low 64 bits of an identifier. -/
def wordOf (id : Int) : UInt64 :=
  UInt64.ofInt id

section Rows

/-- A row of calls or dispatches as their queries select it. -/
structure EventSelection where
  process : Cell
  subprocess : Cell
  id : Int
  start : Cell
  stop : Cell
  typeName : Cell
  symbol : Cell

/-- What tells the two tables of events apart. -/
structure EventTable where
  statement : Statement
  operation : Operation
  processColumn : String
  subprocessColumn : String
  key : Int → Int → TrackKey

/-- Calls on threads. -/
def callEvents : EventTable :=
  ⟨callStatement, .launch, "pid", "tid", .thread⟩

/-- Dispatches on queues. -/
def dispatchEvents : EventTable :=
  ⟨dispatchStatement, .dispatch, "gpuId", "queueId", .queue⟩

/-- The row starts before the window ends, and ends after the window starts or
starts no earlier than it. -/
def meets (window : Window) (start stop : Cell) : Bool :=
  start.isLess (timeCell window.stop) &&
    ((timeCell window.start).isLess stop || start.isAtLeast (timeCell window.start))

/-- Rows of a window by start. -/
def inWindow (window : Window) (rows : List EventSelection) : List EventSelection :=
  (rows.filter fun row => meets window row.start row.stop).mergeSort
    fun a b => a.start.precedes b.start

/-- The calls as selected, before any window. -/
def Tables.callSelections (tables : Tables) : List EventSelection :=
  tables.calls.map fun row =>
    ⟨row.process, row.thread, row.id, row.start, row.stop, tables.stringAt row.name,
      tables.stringAt row.arguments⟩

/-- The dispatches as selected, before any window. -/
def Tables.dispatchSelections (tables : Tables) : List EventSelection :=
  tables.dispatches.map fun row =>
    ⟨row.device, row.queue, row.id, row.start, row.stop, tables.stringAt row.operation,
      tables.stringAt row.description⟩

/-- The key of a selected row. -/
def EventTable.keyOf (table : EventTable) (row : EventSelection) :
    Except DatabaseFailure TrackKey := do
  let process ← row.process.readInteger 0 table.processColumn
  let subprocess ← row.subprocess.readInteger 1 table.subprocessColumn
  return table.key process subprocess

/-- A selected row as an event. -/
def EventTable.eventOf (table : EventTable) (row : EventSelection) :
    Except DatabaseFailure EventRow := do
  let start := timeOf (← row.start.readOptionalInteger 3 "start")
  let stop := timeOf (← row.stop.readOptionalInteger 4 "end")
  let typeName ← row.typeName.readText 5 "string"
  let symbol ← row.symbol.readText 6 "string"
  return ⟨wordOf row.id, table.operation, start, Int64.ofInt (stop.toNat - start.toNat : Int),
    typeName, symbol⟩

/-- The key of a sample. -/
def SampleRow.key (row : SampleRow) : Except DatabaseFailure TrackKey := do
  let device ← row.device.readInteger 0 "deviceId"
  let name ← row.monitor.readText 1 "monitorType"
  return .monitor device name

/-- A sample as a row of a track. -/
def SampleRow.toRow (row : SampleRow) : Except DatabaseFailure Row := do
  let start := timeOf (← row.start.readOptionalInteger 2 "start")
  let value ← row.value.castReal.readReal 3 "CAST(value AS REAL)"
  return .sample start value

/-- Samples of devices, by start. -/
def samplesInWindow (window : Window) (rows : List SampleRow) : List SampleRow :=
  (rows.filter fun row =>
    (Cell.integer 0).isLess row.device &&
      row.start.isAtLeast (timeCell window.start) &&
      row.start.isLess (timeCell window.stop)).mergeSort
    fun a b => a.start.precedes b.start

/-- Rows with a wanted key, each with its key.  The key of every row is read, the
other columns only of those that are wanted. -/
def collect {ρ : Type}
    (key : ρ → Except DatabaseFailure TrackKey)
    (row : ρ → Except DatabaseFailure Row)
    (wanted : List TrackKey) :
    List ρ → Except DatabaseFailure (List (TrackKey × Row))
  | [] => .ok []
  | selected :: rest => do
    let key' ← key selected
    if key' ∈ wanted then
      let found ← row selected
      let others ← collect key row wanted rest
      return (key', found) :: others
    else
      collect key row wanted rest

/-- The wanted rows of a table of events. -/
def EventTable.scan (table : EventTable) (window : Window) (wanted : List TrackKey)
    (rows : List EventSelection) : Except DatabaseFailure (List (TrackKey × Row)) :=
  collect table.keyOf (fun row => Row.event <$> table.eventOf row) wanted (inWindow window rows)

/-- The wanted samples. -/
def scanSamples (window : Window) (wanted : List TrackKey) (rows : List SampleRow) :
    Except DatabaseFailure (List (TrackKey × Row)) :=
  collect SampleRow.key SampleRow.toRow wanted (samplesInWindow window rows)

end Rows

section Metadata

/-- The time that the tables cover: from the least start to one past the greatest
end.  Samples count by their starts. -/
def Tables.bounds (tables : Tables) : Except DatabaseFailure Window := do
  tables.prepare (boundsStatement tables.samples.isSome)
  let samples := tables.samples.getD []
  let starts := [
    Cell.least (tables.calls.map (·.start)),
    Cell.least (tables.dispatches.map (·.start)),
    Cell.least (samples.map (·.start))]
  let stops := [
    Cell.greatest (tables.calls.map (·.stop)),
    Cell.greatest (tables.dispatches.map (·.stop)),
    Cell.greatest (samples.map (·.start))]
  let first ← (Cell.least starts).readOptionalInteger 0 "MIN(s)"
  let last ← (Cell.greatest stops).readOptionalInteger 1 "MAX(e)"
  let start := timeOf first
  return ⟨start, match last with
    | none => start
    | some _ => Timestamp.later (timeOf last) 1⟩

/-- The first column of two pairs decides, then the second. -/
def orderPairs (a b : Cell × Cell) : Ordering :=
  (a.1.order b.1).then (a.2.order b.2)

/-- The distinct ones among pairs in order. -/
def distinct : List (Cell × Cell) → List (Cell × Cell)
  | a :: b :: rest =>
    if orderPairs a b = .eq then distinct (a :: rest) else a :: distinct (b :: rest)
  | pairs => pairs

/-- The distinct pairs in order. -/
def distinctInOrder (pairs : List (Cell × Cell)) : List (Cell × Cell) :=
  distinct (pairs.mergeSort fun a b => orderPairs a b ≠ .gt)

/-- The attributes that a track has from its key columns. -/
def keyAttributes (category : Category) (process subprocess : String) : List Attribute :=
  match category with
  | .region => [⟨"Process", "pid", process⟩, ⟨"Thread", "tid", subprocess⟩]
  | .kernel => [⟨"Agent", "gpuId", process⟩, ⟨"Queue", "queueId", subprocess⟩]
  | _ => []

/-- The descriptor of the track with these key columns. -/
def describe (category : Category) (column : String) (pair : Cell × Cell) :
    Except DatabaseFailure Descriptor := do
  let process := toString (← pair.1.readInteger 0 column)
  let subprocess := pair.2.plainText?.getD ""
  return ⟨0, category, process, subprocess, keyAttributes category process subprocess⟩

/-- The threads that have calls. -/
def Tables.threads (tables : Tables) : Except DatabaseFailure (List Descriptor) :=
  (distinctInOrder (tables.calls.map fun row => (row.process, row.thread))).mapM
    (describe .region "pid")

/-- The queues that have dispatches. -/
def Tables.queues (tables : Tables) : Except DatabaseFailure (List Descriptor) :=
  (distinctInOrder (tables.dispatches.map fun row => (row.device, row.queue))).mapM
    (describe .kernel "gpuId")

/-- The monitors of devices that have samples. -/
def Tables.monitors (tables : Tables) : Except DatabaseFailure (List Descriptor) :=
  let rows := (tables.samples.getD []).filter fun row => (Cell.integer 0).isLess row.device
  (distinctInOrder (rows.map fun row => (row.device, row.monitor))).mapM
    (describe .counter "deviceId")

end Metadata

section Details

/-- The cell of an event's row identifier. -/
def rowCell (event : EventId) : Cell :=
  .integer event.row.val

/-- The far end of a link: its key columns, its row and the column of its time. -/
structure LinkSelection where
  row : Cell
  process : Cell
  subprocess : Cell
  time : Cell

/-- The dispatches that a call is linked to, by start. -/
def Tables.linkedDispatches (tables : Tables) (event : EventId) : List LinkSelection :=
  (((tables.links.getD []).filter fun link => link.call = rowCell event).filterMap fun link =>
    (tables.dispatchAt? link.dispatch).map fun row =>
      LinkSelection.mk link.dispatch row.device row.queue row.start).mergeSort
    fun a b => a.time.precedes b.time

/-- The calls that a dispatch is linked to, by end. -/
def Tables.linkedCalls (tables : Tables) (event : EventId) : List LinkSelection :=
  (((tables.links.getD []).filter fun link => link.dispatch = rowCell event).filterMap fun link =>
    (tables.callAt? link.call).map fun row =>
      LinkSelection.mk link.call row.process row.thread row.stop).mergeSort
    fun a b => a.time.precedes b.time

/-- The columns of the far end of a link, and what kind of event it is. -/
structure LinkColumns where
  category : Category
  operation : Operation
  row : String
  process : String
  subprocess : String
  time : String

/-- The columns of a dispatch that a call is linked to. -/
def dispatchColumns : LinkColumns :=
  ⟨.kernel, .dispatch, "op_id", "gpuId", "queueId", "start"⟩

/-- The columns of a call that a dispatch is linked to. -/
def callColumns : LinkColumns :=
  ⟨.region, .launch, "api_id", "pid", "tid", "end"⟩

/-- The far end of a link as an endpoint. -/
def LinkColumns.endpoint (columns : LinkColumns) (link : LinkSelection) :
    Except DatabaseFailure RawEndpoint := do
  let process ← link.process.readInteger 1 columns.process
  let subprocess ← link.subprocess.readInteger 2 columns.subprocess
  let row ← link.row.readInteger 0 columns.row
  let time ← link.time.readOptionalInteger 3 columns.time
  return ⟨columns.category, toString process, toString subprocess,
    .ofRow (wordOf row) columns.operation, timeOf time⟩

/-- The flow links of an event: a call leads to the queues of its dispatches, any
other event to the threads of its calls.  Without a table of links there are none. -/
def Tables.flow (tables : Tables) (event : EventId) :
    Except DatabaseFailure (List RawEndpoint) :=
  if tables.links.isNone then
    .ok []
  else if event.operation = .launch then do
    tables.prepare linkedDispatchStatement
    (tables.linkedDispatches event).mapM dispatchColumns.endpoint
  else do
    tables.prepare linkedCallStatement
    (tables.linkedCalls event).mapM callColumns.endpoint

/-- A frame joined with its strings. -/
structure FrameSelection where
  symbol : Cell
  arguments : Cell
  codeLine : Cell
  depth : Cell

/-- The frames of a call whose names exist, by depth. -/
def Tables.framesOf (tables : Tables) (event : EventId) : List FrameSelection :=
  match tables.callAt? (rowCell event) with
  | none => []
  | some call =>
    (((tables.frames.getD []).filter fun frame => frame.call = rowCell event).filterMap fun frame =>
      (tables.stringAt? frame.name).map fun codeLine =>
        FrameSelection.mk (tables.stringAt call.name) (tables.stringAt call.arguments) codeLine
          frame.depth).mergeSort
      fun a b => a.depth.precedes b.depth

/-- A selected frame as a frame of a stack; a missing or negative depth counts as zero. -/
def FrameSelection.toFrame (row : FrameSelection) : Except DatabaseFailure Frame := do
  let symbol ← row.symbol.readText 0 "string"
  let arguments ← row.arguments.readText 1 "string"
  let codeLine ← row.codeLine.readText 2 "string"
  let depth ← row.depth.readOptionalInteger 3 "depth"
  return ⟨(depth.getD 0).toNat, symbol, arguments, codeLine⟩

/-- The stack of an event.  Without a table of frames there is none. -/
def Tables.stack (tables : Tables) (event : EventId) : Except DatabaseFailure (List Frame) :=
  if tables.frames.isNone then
    .ok []
  else do
    tables.prepare frameStatement
    (tables.framesOf event).mapM FrameSelection.toFrame

/-- The columns of the row of an event, with its strings in place of references. -/
def Tables.columnsOf (tables : Tables) (event : EventId) : List (String × Cell) :=
  if event.operation = .launch then
    match tables.callAt? (rowCell event) with
    | none => []
    | some row => [
      ("id", .integer row.id), ("pid", row.process), ("tid", row.thread), ("start", row.start),
      ("end", row.stop), ("apiName", tables.stringAt row.name),
      ("args", tables.stringAt row.arguments)]
  else
    match tables.dispatchAt? (rowCell event) with
    | none => []
    | some row => [
      ("id", .integer row.id), ("gpuId", row.device), ("queueId", row.queue),
      ("sequenceId", row.sequence), ("start", row.start), ("end", row.stop),
      ("opType", tables.stringAt row.operation),
      ("description", tables.stringAt row.description)]

/-- The attributes of an event: the columns of its row that have a text. -/
def Tables.attributes (tables : Tables) (event : EventId) :
    Except DatabaseFailure (List Attribute) := do
  tables.prepare (if event.operation = .launch then callRowStatement else dispatchRowStatement)
  return (tables.columnsOf event).filterMap fun (name, cell) =>
    cell.plainText?.map fun value => ⟨"Properties", name, value⟩

end Details

end TimelineStore.Rocpd
