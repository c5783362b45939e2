import TimelineStore.Descriptor
import TimelineStore.Track.Shelf

/-!
# Tracks

A track is a timeline of a trace: its descriptor, its resident chunks, and the
start of the chunk that was acquired last.  That chunk may since have gone.
-/

namespace TimelineStore

/-- A timeline with its resident chunks. -/
structure Track where
  id : TrackId
  descriptor : Descriptor
  shelf : Shelf
  lastAcquired : Option Timestamp
deriving DecidableEq

namespace Track

/-- A track without chunks. -/
def fresh (id : TrackId) (descriptor : Descriptor) : Track :=
  ⟨id, descriptor, .empty, none⟩

/-- The track with a chunk, in place of one with the same start. -/
def acquire (track : Track) (chunk : Chunk) : Track :=
  { track with shelf := track.shelf.insert chunk, lastAcquired := some chunk.start }

/-- The chunk that was acquired last, if it is still resident. -/
def lastChunk? (track : Track) : Option Chunk :=
  track.lastAcquired.bind track.shelf.startingAt?

/-- The number of resident chunks. -/
def chunkCount (track : Track) : Nat :=
  track.shelf.size

/-- The track without the chunk that starts at `start`. -/
def evictAt (track : Track) (start : Timestamp) : Track :=
  { track with shelf := track.shelf.eraseAt start }

/-- The track without the chunk of exactly this window. -/
def evictWindow (track : Track) (window : Window) : Track :=
  { track with shelf := track.shelf.eraseWindow window }

/-- The track without chunks; nothing counts as acquired any more. -/
def evictAll (track : Track) : Track :=
  { track with shelf := .empty, lastAcquired := none }

/-- The bytes of all resident chunks. -/
def footprint (track : Track) : Nat :=
  (track.shelf.chunks.map Chunk.footprint).foldl (· + ·) 0

/-- The number of resident rows. -/
def recordCount (track : Track) : Nat :=
  (track.shelf.chunks.map Chunk.size).foldl (· + ·) 0

/-- The earliest start of a resident row. -/
def firstTime? (track : Track) : Option Timestamp :=
  (track.shelf.chunks.filterMap Chunk.firstTime?).min?

/-- The latest start of a resident row. -/
def lastTime? (track : Track) : Option Timestamp :=
  (track.shelf.chunks.filterMap Chunk.lastTime?).max?

/-- The range of levels, or of sampled values, of all resident rows. -/
def valueRange? (track : Track) : Option ValueRange :=
  ValueRange.unionAll (track.shelf.chunks.filterMap Chunk.valueRange?)

end Track

end TimelineStore
