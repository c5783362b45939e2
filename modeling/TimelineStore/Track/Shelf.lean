import TimelineStore.Chunk

/-!
# Shelves

The resident chunks of a track stand on a shelf in order of their starts, at
most one for each start.  Windows of chunks on one shelf may overlap.
-/

namespace TimelineStore

/-- Chunks by increasing start. -/
structure Shelf where
  chunks : List Chunk
  ordered : chunks.Pairwise fun a b => a.start < b.start
deriving DecidableEq

namespace Shelf

/-- No chunk at all. -/
def empty : Shelf :=
  ⟨[], .nil⟩

/-- The number of chunks. -/
def size (shelf : Shelf) : Nat :=
  shelf.chunks.length

/-- The chunk that starts at `start`. -/
def startingAt? (shelf : Shelf) (start : Timestamp) : Option Chunk :=
  shelf.chunks.find? (·.start = start)

/-- The chunk of exactly this window. -/
def exactly? (shelf : Shelf) (window : Window) : Option Chunk :=
  shelf.chunks.find? (·.window = window)

/-- The chunk at a position in order of starts. -/
def get? (shelf : Shelf) (index : Nat) : Option Chunk :=
  shelf.chunks[index]?

/-- The last chunk that starts no later than `time`, if it ends after `time`. -/
def covering? (shelf : Shelf) (time : Timestamp) : Option Chunk :=
  ((shelf.chunks.filter fun chunk => chunk.start ≤ time).getLast?).filter
    fun chunk => time < chunk.stop

/-- The chunks of which `keep` holds. -/
def filter (shelf : Shelf) (keep : Chunk → Bool) : Shelf :=
  ⟨shelf.chunks.filter keep, shelf.ordered.filter keep⟩

/-- The shelf with a chunk, in place of one with the same start. -/
def insert (shelf : Shelf) (chunk : Chunk) : Shelf where
  chunks :=
    shelf.chunks.filter (fun other => other.start < chunk.start) ++
      chunk :: shelf.chunks.filter (fun other => chunk.start < other.start)
  ordered := by
    refine List.pairwise_append.2 ⟨shelf.ordered.filter _, ?_, ?_⟩
    · exact List.pairwise_cons.2
        ⟨fun other h => by simpa using (List.mem_filter.1 h).2, shelf.ordered.filter _⟩
    · intro earlier he later hl
      have before : earlier.start < chunk.start := by simpa using (List.mem_filter.1 he).2
      rcases List.mem_cons.1 hl with rfl | hl
      · exact before
      · have after : chunk.start < later.start := by simpa using (List.mem_filter.1 hl).2
        exact UInt64.lt_trans before after

/-- The shelf without the chunk that starts at `start`. -/
def eraseAt (shelf : Shelf) (start : Timestamp) : Shelf :=
  shelf.filter (·.start ≠ start)

/-- The shelf without the chunk of exactly this window. -/
def eraseWindow (shelf : Shelf) (window : Window) : Shelf :=
  shelf.filter (·.window ≠ window)

end Shelf

end TimelineStore
