import TimelineStore.Event
import TimelineStore.Time

/-!
# Rows

What a source returns for a track: event rows, which have a start and a
duration, and samples of a counter.  The texts of a row are its own; a chunk
keeps them in the string table of its trace.
-/

namespace TimelineStore

/-- A row that describes an event.  The duration of a damaged capture may be negative. -/
structure EventRow where
  id : UInt64
  operation : Operation
  time : Timestamp
  duration : Int64
  typeName : String
  symbol : String
deriving DecidableEq

/-- The end of the event. -/
def EventRow.stop (row : EventRow) : Timestamp :=
  Timestamp.after row.time row.duration

/-- One row of a track. -/
inductive Row where
  | event (row : EventRow)
  | sample (time : Timestamp) (value : Float)
deriving DecidableEq

namespace Row

/-- The start of the row. -/
def time : Row → Timestamp
  | .event row => row.time
  | .sample time _ => time

/-- The end of the row; a sample ends where it starts. -/
def stop : Row → Timestamp
  | .event row => row.stop
  | .sample time _ => time

/-- The row belongs to the window: an event that shares time with it, or a
sample that it holds. -/
def belongsTo (window : Window) : Row → Bool
  | .event row => window.meets row.time row.stop
  | .sample time _ => window.contains time

/-- Rows by start; rows of one start keep their order. -/
def sortByTime (rows : List Row) : List Row :=
  rows.mergeSort fun a b => a.time ≤ b.time

end Row

end TimelineStore
