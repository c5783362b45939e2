import TimelineStore.Proofs.Chunk.Contents
import TimelineStore.Proofs.Window

/-!
# Chunks that divide a track

When the windows of the chunks of a track tile a window and each chunk holds the rows
that are due, the chunks lose nothing of the track over the window and invent nothing.

**Results.**
* `Chunk.divide_of_tiles`: so a sample is in exactly one chunk, and an event is in the
  chunks whose windows it shares time with, of which there is one at least.
-/

namespace TimelineStore

/-- The chunk reads back as the rows of a track that are due over its window. -/
def Chunk.Filled (strings : StringTable) (counter : Bool) (rows : List Row) (chunk : Chunk) :
    Prop :=
  chunk.rows strings = (Row.due counter chunk.window rows).map fun placed => some placed.1

/-- The chunks of a track divide its rows over a window. -/
structure Chunk.Divide
    (strings : StringTable) (counter : Bool) (window : Window) (rows : List Row)
    (chunks : List Chunk) : Prop where
  tiles : Window.Tiles (chunks.map (·.window)) window
  filled : ∀ chunk ∈ chunks, chunk.Filled strings counter rows
  /-- What a chunk holds is a row of the track that belongs to the whole window. -/
  nothingElse : ∀ chunk ∈ chunks, ∀ placed ∈ Row.due counter chunk.window rows,
    rows[placed.2]? = some placed.1 ∧ placed.1.isDue counter window = true
  /-- A sample of the window is in exactly one chunk. -/
  sampleOnce : counter = true →
    ∀ (position : Nat) (time : Timestamp) (value : Float),
      rows[position]? = some (.sample time value) → window.contains time = true →
        (chunks.countP fun chunk =>
          decide (position ∈ Row.positions counter chunk.window rows)) = 1
  /-- An event is in exactly the chunks whose windows it shares time with. -/
  eventWhere : counter = false →
    ∀ (position : Nat) (event : EventRow),
      rows[position]? = some (.event event) →
        ∀ chunk ∈ chunks,
          position ∈ Row.positions counter chunk.window rows ↔
            chunk.window.meets event.time event.stop = true
  /-- An event that shares time with the window is in a chunk. -/
  eventSomewhere : counter = false →
    ∀ (position : Nat) (event : EventRow),
      rows[position]? = some (.event event) →
        window.meets event.time event.stop = true →
          ∃ chunk ∈ chunks, position ∈ Row.positions counter chunk.window rows

namespace Chunk

variable
  {strings : StringTable} {counter : Bool} {window : Window} {rows : List Row}
  {chunks : List Chunk}

/-- What is due over a window of a tiling is due over the whole. -/
theorem isDue_of_tiles
    {windows : List Window} {part : Window} {row : Row}
    (htiles : Window.Tiles windows window)
    (hpart : part ∈ windows)
    (hdue : row.isDue counter part = true) :
    row.isDue counter window = true := by
  rw [Row.isDue, Bool.and_eq_true] at hdue ⊢
  obtain ⟨hfits, hbelongs⟩ := hdue
  refine ⟨hfits, ?_⟩
  cases row with
  | event event => exact htiles.meets_whole hpart hbelongs
  | sample time value => exact htiles.contains_whole hpart hbelongs

/-- **Chunks over a tiling that hold what is due divide the rows of their track.** -/
theorem divide_of_tiles
    (hwhole : window.start < window.stop)
    (htiles : Window.Tiles (chunks.map (·.window)) window)
    (hfilled : ∀ chunk ∈ chunks, chunk.Filled strings counter rows) :
    Chunk.Divide strings counter window rows chunks where
  tiles := htiles
  filled := hfilled
  nothingElse := by
    intro chunk hchunk placed hplaced
    obtain ⟨hvalue, hdue⟩ := (Row.mem_due_iff counter chunk.window rows).1 hplaced
    exact ⟨hvalue, isDue_of_tiles htiles (List.mem_map_of_mem hchunk) hdue⟩
  sampleOnce := by
    intro hcounter position time value hrow hcontains
    have hsame : (chunks.countP fun chunk =>
        decide (position ∈ Row.positions counter chunk.window rows)) =
          (chunks.map (·.window)).countP (·.contains time) := by
      rw [List.countP_map]
      refine List.countP_congr fun chunk _ => ?_
      rw [decide_eq_true_eq, Row.mem_positions_iff counter chunk.window rows hrow, hcounter]
      rfl
    rw [hsame]
    exact htiles.countP_contains hcontains
  eventWhere := by
    intro hcounter position event hrow chunk _
    rw [Row.mem_positions_iff counter chunk.window rows hrow, hcounter]
    rfl
  eventSomewhere := by
    intro hcounter position event hrow hmeets
    obtain ⟨part, hpart, hshares⟩ := htiles.exists_meets hwhole hmeets
    obtain ⟨chunk, hchunk, rfl⟩ := List.mem_map.1 hpart
    refine ⟨chunk, hchunk, ?_⟩
    rw [Row.mem_positions_iff counter chunk.window rows hrow, hcounter]
    exact hshares

end Chunk

end TimelineStore
