import TimelineStore.Keyed
import TimelineStore.Source

/-!
# Sources in memory

A source that holds its rows itself, track by track, and detail by event.
Without a window of its own it covers its rows: from the earliest start to one
past the latest end.
-/

namespace TimelineStore

/-- Rows per track in order of their starts, and detail per event. -/
structure MemorySource where
  name : String
  window : Option Window
  tracks : List (Descriptor × List Row)
  details : Keyed (DetailKind × EventId) RawDetail

namespace MemorySource

/-- A source that holds nothing. -/
def named (name : String) : MemorySource :=
  ⟨name, none, [], .empty⟩

/-- The source with a window of its own. -/
def «over» (source : MemorySource) (window : Window) : MemorySource :=
  { source with window := some window }

/-- The source with one more track. -/
def addTrack (source : MemorySource) (descriptor : Descriptor) (rows : List Row) : MemorySource :=
  { source with tracks := source.tracks ++ [(descriptor, Row.sortByTime rows)] }

/-- The source with detail of an event, in place of earlier detail of its kind. -/
def addDetail (source : MemorySource) (event : EventId) (detail : RawDetail) : MemorySource :=
  { source with details := source.details.insert (detail.kind, event) detail }

/-- All rows, track by track. -/
def rows (source : MemorySource) : List Row :=
  source.tracks.flatMap Prod.snd

/-- The window from the earliest start to one past the latest end of some rows. -/
def hull (rows : List Row) : Window :=
  match (rows.map Row.time).min?, (rows.map Row.stop).max? with
  | some first, some last => ⟨first, Timestamp.later last 1⟩
  | _, _ => ⟨0, 0⟩

/-- The window that the source covers. -/
def covered (source : MemorySource) : Window :=
  source.window.getD (hull source.rows)

/-- The window and the descriptors of the source. -/
def metadata (source : MemorySource) : Metadata :=
  ⟨source.covered, source.tracks.map Prod.fst⟩

/-- The rows of the first track with this descriptor. -/
def rowsOf? (source : MemorySource) (descriptor : Descriptor) : Option (List Row) :=
  (source.tracks.find? (·.1 = descriptor)).map Prod.snd

/-- The rows of a track that belong to a window. -/
def readTrack (source : MemorySource) (descriptor : Descriptor) (window : Window) :
    Except Failure (List Row) :=
  match source.rowsOf? descriptor with
  | some rows => .ok (rows.filter (Row.belongsTo window))
  | none =>
    .error (.notFound
      s!"{source.name} has no track {descriptor.process}/{descriptor.subprocess}")

/-- The detail of an event; an event without any has empty detail. -/
def readDetail (source : MemorySource) (kind : DetailKind) (event : EventId) :
    Except Failure RawDetail :=
  if kind.appliesTo event.operation then
    .ok ((source.details.get? (kind, event)).getD (.empty kind))
  else
    .error (Source.inapplicable kind event)

/-- The source by its answers. -/
def toSource (source : MemorySource) : Source where
  name := source.name
  metadata :=
    ⟨[⟨50.0, "Trace bounds loaded"⟩, ⟨50.0, "Track descriptors loaded"⟩], .ok source.metadata⟩
  readTrack := source.readTrack
  readTracks := Source.oneByOne source.readTrack
  readDetail := source.readDetail

end MemorySource

end TimelineStore
