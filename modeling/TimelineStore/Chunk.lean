import TimelineStore.Identifier
import TimelineStore.Record
import TimelineStore.Search
import TimelineStore.StringTable

/-!
# Chunks

A chunk holds the rows of one track that belong to one window, in order of
their starts.  Event rows are stored with positions of their texts in a string
table and with a nesting level: the number of earlier events of the chunk that
are still open where the event starts, held at 255.
-/

namespace TimelineStore

/-- A stored event row. -/
structure Entry where
  id : UInt64
  operation : Operation
  time : Timestamp
  duration : Int64
  typeIndex : Nat
  symbolIndex : Nat
  level : Nat
deriving DecidableEq

/-- The end of the event. -/
def Entry.stop (entry : Entry) : Timestamp :=
  Timestamp.after entry.time entry.duration

/-- A stored sample of a counter. -/
structure Sample where
  time : Timestamp
  value : Float
deriving DecidableEq

/-- The rows of a chunk, all of one layout. -/
inductive Records where
  | events (entries : Array Entry)
  | samples (entries : Array Sample)
deriving DecidableEq

namespace Records

/-- The bytes of a stored event row. -/
def entryBytes : Nat := 48

/-- The bytes of a stored sample. -/
def sampleBytes : Nat := 16

/-- The number of rows. -/
def size : Records → Nat
  | .events entries => entries.size
  | .samples entries => entries.size

/-- The bytes of all rows. -/
def footprint : Records → Nat
  | .events entries => entries.size * entryBytes
  | .samples entries => entries.size * sampleBytes

/-- The start of the row at a position. -/
def timeAt? : Records → Nat → Option Timestamp
  | .events entries, index => entries[index]?.map (·.time)
  | .samples entries, index => entries[index]?.map (·.time)

/-- The event row at a position. -/
def event? : Records → Nat → Option Entry
  | .events entries, index => entries[index]?
  | .samples _, _ => none

/-- The sample at a position. -/
def sample? : Records → Nat → Option Sample
  | .events _, _ => none
  | .samples entries, index => entries[index]?

end Records

/-- A least and a greatest value. -/
structure ValueRange where
  low : Float
  high : Float
deriving DecidableEq

namespace ValueRange

/-- The lesser of two values; what is not a number yields to what is. -/
def lesser (a b : Float) : Float :=
  if a.isNaN then b else if b.isNaN then a else if b < a then b else a

/-- The greater of two values; what is not a number yields to what is. -/
def greater (a b : Float) : Float :=
  if a.isNaN then b else if b.isNaN then a else if a < b then b else a

/-- The range of one value. -/
def single (value : Float) : ValueRange :=
  ⟨value, value⟩

/-- The range that spans two. -/
def union (a b : ValueRange) : ValueRange :=
  ⟨lesser a.low b.low, greater a.high b.high⟩

/-- The range that spans all of a list, if there are any. -/
def unionAll : List ValueRange → Option ValueRange
  | [] => none
  | range :: ranges => some (ranges.foldl union range)

end ValueRange

/-- The rows of one track over one window. -/
structure Chunk where
  track : TrackId
  window : Window
  records : Records
deriving DecidableEq

namespace Chunk

section Build

/-- The event rows among raw rows. -/
def eventRows : List Row → List EventRow :=
  List.filterMap fun
    | .event row => some row
    | .sample _ _ => none

/-- The samples among raw rows. -/
def sampleRows : List Row → List Sample :=
  List.filterMap fun
    | .event _ => none
    | .sample time value => some ⟨time, value⟩

/-- An event row with its texts in the table, type name first. -/
def store (table : StringTable) (row : EventRow) : Entry × StringTable :=
  let (typeIndex, table) := table.intern row.typeName
  let (symbolIndex, table) := table.intern row.symbol
  (⟨row.id, row.operation, row.time, row.duration, typeIndex, symbolIndex, 0⟩, table)

/-- Event rows with their texts in the table, row by row. -/
def storeAll (table : StringTable) : List EventRow → List Entry × StringTable
  | [] => ([], table)
  | row :: rows =>
    let (entry, table) := store table row
    let (entries, table) := storeAll table rows
    (entry :: entries, table)

/-- The greatest level. -/
def deepest : Nat := 255

/-- Levels for entries in order of start, given the ends that are still open. -/
def nest (openEnds : List Timestamp) : List Entry → List Entry
  | [] => []
  | entry :: entries =>
    let stillOpen := openEnds.filter fun stop => entry.time < stop
    { entry with level := min deepest stillOpen.length } ::
      nest (entry.stop :: stillOpen) entries

/-- Rows that are of the other layout are left out.  Texts are interned in the
order in which the rows were given. -/
def build
    (track : TrackId) (window : Window) (counter : Bool)
    (rows : List Row) (table : StringTable) :
    Chunk × StringTable :=
  if counter then
    let samples := (sampleRows rows).mergeSort fun a b => a.time ≤ b.time
    (⟨track, window, .samples samples.toArray⟩, table)
  else
    let (entries, table) := storeAll table (eventRows rows)
    let sorted := entries.mergeSort fun a b => a.time ≤ b.time
    (⟨track, window, .events (nest [] sorted).toArray⟩, table)

end Build

/-- The bytes of a chunk beside its rows. -/
def overhead : Nat := 56

/-- The start of the window. -/
def start (chunk : Chunk) : Timestamp :=
  chunk.window.start

/-- The end of the window. -/
def stop (chunk : Chunk) : Timestamp :=
  chunk.window.stop

/-- The number of rows. -/
def size (chunk : Chunk) : Nat :=
  chunk.records.size

/-- The bytes that the chunk takes. -/
def footprint (chunk : Chunk) : Nat :=
  overhead + chunk.records.footprint

/-- The start of the row at a position. -/
def timeAt? (chunk : Chunk) (index : Nat) : Option Timestamp :=
  chunk.records.timeAt? index

/-- The position of the first row that does not start before `time`. -/
def indexAt? (chunk : Chunk) (time : Timestamp) : Option Nat :=
  let reached index := (chunk.timeAt? index).all fun start => decide (time ≤ start)
  let index := Search.firstFrom reached 0 chunk.size
  if index < chunk.size then some index else none

/-- The start of the first row. -/
def firstTime? (chunk : Chunk) : Option Timestamp :=
  chunk.timeAt? 0

/-- The start of the last row. -/
def lastTime? (chunk : Chunk) : Option Timestamp :=
  if chunk.size = 0 then none else chunk.timeAt? (chunk.size - 1)

/-- The range of levels, or of sampled values. -/
def valueRange? (chunk : Chunk) : Option ValueRange :=
  ValueRange.unionAll <| match chunk.records with
    | .events entries => entries.toList.map fun entry => .single entry.level.toFloat
    | .samples entries => entries.toList.map fun sample => .single sample.value

end Chunk

end TimelineStore
