import TimelineStore.Detail
import TimelineStore.Failure
import TimelineStore.Keyed
import TimelineStore.Track

/-!
# Traces

A trace is one profiling session in memory.  Metadata fixes its window and its
tracks once and for all; chunks and detail come and go.  A trace is bound to at
most one database, also once and for all.  Texts are never forgotten, so a
second read of the same rows adds none.
-/

namespace TimelineStore

/-- The window and the tracks of a loaded trace; a track is named by its position. -/
structure Layout where
  window : Window
  tracks : List Track
  numbered : ∀ index (inside : index < tracks.length), tracks[index].id = ⟨index⟩
deriving DecidableEq

namespace Layout

/-- Tracks without chunks, one per descriptor. -/
def ofMetadata (metadata : Metadata) : Layout where
  window := metadata.window
  tracks := metadata.tracks.mapIdx fun index descriptor => .fresh ⟨index⟩ descriptor
  numbered := by simp [Track.fresh]

/-- The layout with every track changed. -/
def map
    (layout : Layout) (change : Track → Track)
    (keeps : ∀ track, (change track).id = track.id) :
    Layout where
  window := layout.window
  tracks := layout.tracks.map change
  numbered := by
    intro index inside
    have bound : index < layout.tracks.length := by simpa using inside
    simpa [keeps] using layout.numbered index bound

/-- The layout with one track changed. -/
def modify
    (layout : Layout) (id : TrackId) (change : Track → Track)
    (keeps : ∀ track, (change track).id = track.id) :
    Layout :=
  layout.map (fun track => if track.id = id then change track else track) fun track => by
    split
    · exact keeps track
    · rfl

end Layout

/-- One profiling session in memory. -/
structure Trace where
  id : TraceId
  layout : Option Layout
  strings : StringTable
  details : Keyed (DetailKind × EventId) Detail
  boundTo : Option DatabaseId

namespace Trace

/-- A trace without metadata, bound to no database. -/
def fresh (id : TraceId) : Trace :=
  ⟨id, none, .empty, .empty, none⟩

section Metadata

/-- The trace has metadata. -/
def isLoaded (trace : Trace) : Bool :=
  trace.layout.isSome

/-- The trace with metadata; metadata that it has already stays. -/
def loadMetadata (trace : Trace) (metadata : Metadata) : Trace :=
  match trace.layout with
  | some _ => trace
  | none => { trace with layout := some (.ofMetadata metadata) }

/-- The time that the session covers. -/
def window? (trace : Trace) : Option Window :=
  trace.layout.map (·.window)

/-- The tracks in order; none before there is metadata. -/
def tracks (trace : Trace) : List Track :=
  (trace.layout.map (·.tracks)).getD []

/-- The number of tracks. -/
def trackCount (trace : Trace) : Nat :=
  trace.tracks.length

/-- The track with an identifier. -/
def track? (trace : Trace) (id : TrackId) : Option Track :=
  trace.tracks[id.index]?

/-- The first track that the category and the two texts name. -/
def find? (trace : Trace) (category : Category) (process subprocess : String) :
    Option TrackId :=
  (trace.tracks.find? (·.descriptor.names category process subprocess)).map (·.id)

/-- The track that an endpoint names. -/
def trackOf? (trace : Trace) (endpoint : RawEndpoint) : Option TrackId :=
  trace.find? endpoint.category endpoint.process endpoint.subprocess

/-- The trace has no metadata to go by. -/
def notLoaded (trace : Trace) : Failure :=
  .notLoaded s!"{trace.id} has no metadata"

/-- The trace has no such track. -/
def outOfRange (id : TrackId) (count : Nat) : Failure :=
  .invalidParameter s!"{id} out of range ({count} tracks)"

/-- The tracks with these identifiers; the first that is unknown stands for all. -/
def resolve (trace : Trace) (ids : List TrackId) : Except Failure (List Track) :=
  match trace.layout with
  | none => .error trace.notLoaded
  | some layout =>
    ids.mapM fun id =>
      match layout.tracks[id.index]? with
      | some track => .ok track
      | none => .error (outOfRange id layout.tracks.length)

end Metadata

section Chunks

/-- The trace with every track changed. -/
def mapTracks
    (trace : Trace) (change : Track → Track)
    (keeps : ∀ track, (change track).id = track.id) :
    Trace :=
  { trace with layout := trace.layout.map (·.map change keeps) }

/-- The chunk made of the rows of a track, and the trace in which it is the one
that the track acquired last. -/
def materialize (trace : Trace) (track : Track) (window : Window) (rows : List Row) :
    Chunk × Trace :=
  let (chunk, strings) :=
    Chunk.build track.id window track.descriptor.category.isCounter rows trace.strings
  let layout := trace.layout.map
    (·.modify track.id (·.acquire chunk) fun _ => rfl)
  (chunk, { trace with layout, strings })

/-- The trace without the chunks that start at `start`. -/
def evictAt (trace : Trace) (start : Timestamp) : Trace :=
  trace.mapTracks (·.evictAt start) fun _ => rfl

/-- The number of chunks that start at `start`. -/
def countAt (trace : Trace) (start : Timestamp) : Nat :=
  trace.tracks.countP fun track => (track.shelf.startingAt? start).isSome

/-- The trace without the chunks of exactly this window. -/
def evictWindow (trace : Trace) (window : Window) : Trace :=
  trace.mapTracks (·.evictWindow window) fun _ => rfl

/-- The number of chunks of exactly this window. -/
def countWindow (trace : Trace) (window : Window) : Nat :=
  trace.tracks.countP fun track => (track.shelf.exactly? window).isSome

/-- The trace without chunks. -/
def evictAll (trace : Trace) : Trace :=
  trace.mapTracks Track.evictAll fun _ => rfl

/-- The number of chunks. -/
def chunkCount (trace : Trace) : Nat :=
  (trace.tracks.map Track.chunkCount).foldl (· + ·) 0

end Chunks

section Details

/-- The trace with detail of an event, in place of earlier detail of its kind. -/
def putDetail (trace : Trace) (event : EventId) (detail : Detail) : Trace :=
  { trace with details := trace.details.insert (detail.kind, event) detail }

/-- The resident detail of an event. -/
def detail? (trace : Trace) (kind : DetailKind) (event : EventId) : Option Detail :=
  trace.details.get? (kind, event)

/-- The trace without one kind of detail of one event. -/
def evictDetail (trace : Trace) (kind : DetailKind) (event : EventId) : Trace :=
  { trace with details := trace.details.erase (kind, event) }

/-- The trace without detail of one kind. -/
def evictDetails (trace : Trace) (kind : DetailKind) : Trace :=
  { trace with details := trace.details.filter fun key => key.1 ≠ kind }

/-- The number of events that have resident detail of a kind. -/
def countDetails (trace : Trace) (kind : DetailKind) : Nat :=
  trace.details.entries.countP fun entry => entry.1.1 = kind

end Details

/-- The bytes of chunks, detail and texts. -/
def footprint (trace : Trace) : Nat :=
  (trace.tracks.map Track.footprint).foldl (· + ·) 0 +
    (trace.details.values.map Detail.footprint).foldl (· + ·) 0 + trace.strings.footprint

/-- The trace is to be bound to a database: how that ends, and the trace that it leaves.  The
first database is written down before the two are compared. -/
def binding (trace : Trace) (database : DatabaseId) : Except Failure Unit × Trace :=
  let bound := trace.boundTo.getD database
  (if bound = database then .ok () else .error (.alreadyBound s!"{trace.id} is bound to {bound}"),
    { trace with boundTo := some bound })

/-- The trace bound to a database.  A trace bound to another one stays there. -/
def bind (trace : Trace) (database : DatabaseId) : Except Failure Trace :=
  let (result, bound) := trace.binding database
  result.map fun _ => bound

end Trace

/-- What some chunks come to together. -/
structure ChunkTotals where
  chunks : Nat
  records : Nat
  footprint : Nat
deriving DecidableEq

namespace ChunkTotals

/-- No chunk. -/
def zero : ChunkTotals :=
  ⟨0, 0, 0⟩

/-- The totals with one more chunk. -/
def add (totals : ChunkTotals) (chunk : Chunk) : ChunkTotals :=
  ⟨totals.chunks + 1, totals.records + chunk.size, totals.footprint + chunk.footprint⟩

/-- The totals of a list of chunks. -/
def ofChunks (chunks : List Chunk) : ChunkTotals :=
  chunks.foldl add zero

end ChunkTotals

/-- The totals of the chunks that the listed tracks acquired last.  A track that
is unknown or has no such chunk counts for nothing. -/
def Trace.aggregate (trace : Trace) (ids : List TrackId) : ChunkTotals :=
  .ofChunks (ids.filterMap fun id => (trace.track? id).bind Track.lastChunk?)

end TimelineStore
