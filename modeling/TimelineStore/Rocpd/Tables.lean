import TimelineStore.Sql.Cell

/-!
# The tables of a rocpd file

A rocpd file has a table of strings, a table of calls on threads, and a table of
dispatches on queues of devices.  It may have samples of monitors, links between
calls and dispatches, and stack frames of calls.  A row is an identifier and one
cell per column, in the order of the columns.  Rows are kept by increasing
identifier, as a scan returns them; columns of texts hold no numbers.
-/

namespace TimelineStore.Rocpd

open TimelineStore.Sql

/-- A string that rows of other tables refer to. -/
structure StringRow where
  id : Int
  string : Cell

/-- The row with an identifier and these cells. -/
def StringRow.ofCells? (id : Int) : List Cell → Option StringRow
  | [string] => some ⟨id, string⟩
  | _ => none

/-- A call on a thread. -/
structure CallRow where
  id : Int
  process : Cell
  thread : Cell
  start : Cell
  stop : Cell
  name : Cell
  arguments : Cell

/-- The row with an identifier and these cells. -/
def CallRow.ofCells? (id : Int) : List Cell → Option CallRow
  | [process, thread, start, stop, name, arguments] =>
    some ⟨id, process, thread, start, stop, name, arguments⟩
  | _ => none

/-- A dispatch on a queue of a device. -/
structure DispatchRow where
  id : Int
  device : Cell
  queue : Cell
  sequence : Cell
  start : Cell
  stop : Cell
  description : Cell
  operation : Cell

/-- The row with an identifier and these cells. -/
def DispatchRow.ofCells? (id : Int) : List Cell → Option DispatchRow
  | [device, queue, sequence, start, stop, description, operation] =>
    some ⟨id, device, queue, sequence, start, stop, description, operation⟩
  | _ => none

/-- A sample of a monitor of a device. -/
structure SampleRow where
  id : Int
  deviceType : Cell
  device : Cell
  monitor : Cell
  start : Cell
  stop : Cell
  value : Cell

/-- The row with an identifier and these cells. -/
def SampleRow.ofCells? (id : Int) : List Cell → Option SampleRow
  | [deviceType, device, monitor, start, stop, value] =>
    some ⟨id, deviceType, device, monitor, start, stop, value⟩
  | _ => none

/-- A link between a call and the dispatch that it made. -/
structure LinkRow where
  id : Int
  call : Cell
  dispatch : Cell

/-- The row with an identifier and these cells. -/
def LinkRow.ofCells? (id : Int) : List Cell → Option LinkRow
  | [call, dispatch] => some ⟨id, call, dispatch⟩
  | _ => none

/-- A frame of the stack of a call. -/
structure FrameRow where
  id : Int
  call : Cell
  depth : Cell
  name : Cell

/-- The row with an identifier and these cells. -/
def FrameRow.ofCells? (id : Int) : List Cell → Option FrameRow
  | [call, depth, name] => some ⟨id, call, depth, name⟩
  | _ => none

/-- Rows by increasing identifier. -/
def byId {ρ : Type} (id : ρ → Int) (rows : List ρ) : List ρ :=
  rows.mergeSort fun a b => id a ≤ id b

/-- The table that holds some strings. -/
def stringTable (rows : List StringRow) : List StringRow :=
  byId StringRow.id (rows.map fun row => { row with string := row.string.inTextColumn })

/-- The table that holds some calls. -/
def callTable (rows : List CallRow) : List CallRow :=
  byId CallRow.id rows

/-- The table that holds some dispatches. -/
def dispatchTable (rows : List DispatchRow) : List DispatchRow :=
  byId DispatchRow.id rows

/-- The table that holds some samples. -/
def sampleTable (rows : List SampleRow) : List SampleRow :=
  byId SampleRow.id (rows.map fun row =>
    { row with
      deviceType := row.deviceType.inTextColumn
      monitor := row.monitor.inTextColumn
      value := row.value.inTextColumn })

/-- The table that holds some links. -/
def linkTable (rows : List LinkRow) : List LinkRow :=
  byId LinkRow.id rows

/-- The table that holds some frames. -/
def frameTable (rows : List FrameRow) : List FrameRow :=
  byId FrameRow.id rows

/-- The tables of a file that a source needs, those that it may have, and the names of the
tables that have none of their columns. -/
structure Tables where
  strings : List StringRow
  calls : List CallRow
  dispatches : List DispatchRow
  samples : Option (List SampleRow)
  links : Option (List LinkRow)
  frames : Option (List FrameRow)
  bare : List String

namespace Tables

/-- The string that a cell refers to, if there is one. -/
def stringAt? (tables : Tables) (reference : Cell) : Option Cell :=
  (tables.strings.find? fun row => .integer row.id = reference).map (·.string)

/-- The string that a cell refers to, or null. -/
def stringAt (tables : Tables) (reference : Cell) : Cell :=
  (tables.stringAt? reference).getD .null

/-- The call with an identifier. -/
def callAt? (tables : Tables) (id : Cell) : Option CallRow :=
  tables.calls.find? fun row => .integer row.id = id

/-- The dispatch with an identifier. -/
def dispatchAt? (tables : Tables) (id : Cell) : Option DispatchRow :=
  tables.dispatches.find? fun row => .integer row.id = id

end Tables

end TimelineStore.Rocpd
