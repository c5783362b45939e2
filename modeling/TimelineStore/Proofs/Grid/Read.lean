import TimelineStore.Client
import TimelineStore.Proofs.Chunk.Divide
import TimelineStore.Proofs.Grid.Tiling
import TimelineStore.Proofs.Session.Serves
import TimelineStore.Proofs.Track

/-!
# Grid reads

A grid is read cell by cell.  Reading one cell gives each of its tracks one chunk, which
starts after all chunks that the track has from the cells before it, so the chunks of a
track line up as the columns of the grid.

**Results.**
* `MemorySource.gains_load`: what reading one cell adds to the tracks.
* `Client.readCells_gains`: what reading a list of cells adds to them.
* `Client.readGrid_divides`: a grid read loses nothing.
-/

namespace TimelineStore

namespace Cell

/-- The cell can be read of a source with so many tracks. -/
def Readable (trackCount : Nat) (cell : Cell) : Prop :=
  ∃ request : Request,
    cell.request = .ok request ∧ request.window = cell.window ∧
      ∀ index : Nat,
        ((⟨index⟩ : TrackId) ∈ request.tracks ↔ cell.covers index = true) ∧
          (cell.covers index = true → index < trackCount)

end Cell

namespace MemorySource

/-- What reading cells adds to the tracks of a trace: to each track one chunk for each cell
that covers it, which holds the rows that are due. -/
def Gains (source : MemorySource) (cells : List Cell) (before after : Trace) : Prop :=
  ∀ (index : Nat) (descriptor : Descriptor) (rows : List Row) (held : Track),
    source.tracks[index]? = some (descriptor, rows) → before.track? ⟨index⟩ = some held →
      ∃ (track : Track) (chunks : List Chunk),
        after.track? ⟨index⟩ = some track ∧
        track.shelf.chunks = held.shelf.chunks ++ chunks ∧
        chunks.map (·.window) = (cells.filter (Cell.covers index)).map (·.window) ∧
        ∀ chunk ∈ chunks, chunk.Filled after.strings descriptor.category.isCounter rows

/-- The cells come after what a trace holds: along the chunks of a track and the cells that
cover it, starts increase. -/
def Ascends (cells : List Cell) (trace : Trace) : Prop :=
  ∀ (index : Nat) (held : Track), trace.track? ⟨index⟩ = some held →
    (held.shelf.chunks.map (·.window) ++
      (cells.filter (Cell.covers index)).map (·.window)).Pairwise
        fun a b => a.start < b.start

section Gains

variable
  {source : MemorySource} {cells more : List Cell} {before middle after : Trace}

/-- Reading no cell adds nothing. -/
theorem Gains.refl
    (trace : Trace) :
    source.Gains [] trace trace := by
  intro index descriptor rows held _ hheld
  exact ⟨held, [], hheld, (List.append_nil _).symm, rfl, by simp⟩

/-- What cells add one after the other they add together. -/
theorem Gains.trans
    (hfirst : source.Gains cells before middle)
    (hsecond : source.Gains more middle after)
    (hextends : middle.strings.Extends after.strings) :
    source.Gains (cells ++ more) before after := by
  intro index descriptor rows held htrack hheld
  obtain ⟨next, chunks, hnext, hshelf, hwindows, hfilled⟩ :=
    hfirst index descriptor rows held htrack hheld
  obtain ⟨last, others, hlast, hothers, hrest, hfull⟩ :=
    hsecond index descriptor rows next htrack hnext
  refine ⟨last, chunks ++ others, hlast, ?_, ?_, ?_⟩
  · rw [hothers, hshelf, List.append_assoc]
  · rw [List.map_append, hwindows, hrest, List.filter_append, List.map_append]
  · intro chunk hchunk
    rcases List.mem_append.1 hchunk with hearlier | hlater
    · have hkept := hfilled chunk hearlier
      have hmap : (Row.due descriptor.category.isCounter chunk.window rows).map
          (fun placed => some placed.1) =
            ((Row.due descriptor.category.isCounter chunk.window rows).map Prod.fst).map some := by
        rw [List.map_map]
        rfl
      unfold Chunk.Filled at hkept ⊢
      rw [hmap] at hkept ⊢
      exact Chunk.rows_of_extends hextends hkept
    · exact hfull chunk hlater

/-- What was to come after a trace comes after what the first cells added to it. -/
theorem Ascends.after_gains
    (hascends : Ascends (cells ++ more) before)
    (hgains : source.Gains cells before after)
    (hcount : before.trackCount = source.tracks.length)
    (hcontinues : before.Continues after) :
    Ascends more after := by
  intro index held hheld
  have hinside : index < before.trackCount := by
    rw [← hcontinues.trackCount]
    exact (List.getElem?_eq_some_iff.1 hheld).1
  obtain ⟨old, hold⟩ := Trace.track?_of_lt hinside
  have htrack : source.tracks[index]? = some source.tracks[index] :=
    List.getElem?_eq_getElem (hcount ▸ hinside)
  obtain ⟨track, chunks, hafter, hshelf, hwindows, -⟩ :=
    hgains index _ _ old htrack hold
  obtain rfl : track = held := Option.some.inj (hafter.symm.trans hheld)
  have hordered := hascends index old hold
  rw [List.filter_append, List.map_append, ← List.append_assoc] at hordered
  rw [hshelf, List.map_append, hwindows]
  exact hordered

/-- **Reading one cell** gives each of its tracks one chunk, and other tracks none. -/
theorem gains_load
    {cell : Cell} {request : Request} {totals : ChunkTotals}
    (mode : ReadMode)
    (hdistinct : (source.tracks.map Prod.fst).Nodup)
    (hloaded : before.LoadedWith source.metadata)
    (hread : (source.toSource.load mode request before).result = .ok totals)
    (hwindow : request.window = cell.window)
    (hcovers : ∀ index : Nat,
      (⟨index⟩ : TrackId) ∈ request.tracks ↔ cell.covers index = true)
    (hascends : Ascends [cell] before) :
    source.Gains [cell] before (source.toSource.load mode request before).trace := by
  intro index descriptor rows held htrack hheld
  by_cases hcovered : cell.covers index = true
  · have halone := alone_of_nodup hdistinct htrack
    obtain ⟨chunk, hacquired, hmade, hrows⟩ :=
      load_acquires_due mode halone hloaded hread ((hcovers index).2 hcovered) hheld
    have hchunk : chunk.window = cell.window := hmade.window_eq.trans hwindow
    have hlater : ∀ other ∈ held.shelf.chunks, other.start < chunk.start := by
      intro other hother
      have hordered := (List.pairwise_append.1 (hascends index held hheld)).2.2
      have hless := hordered other.window (List.mem_map_of_mem hother) cell.window
        (by simp [hcovered])
      rw [← hchunk] at hless
      exact hless
    refine ⟨held.acquire chunk, [chunk], hacquired, ?_, ?_, ?_⟩
    · exact held.shelf.chunks_insert_of_lt chunk hlater
    · simp [hcovered, hchunk]
    · intro other hother
      obtain rfl : other = chunk := by simpa using hother
      unfold Chunk.Filled
      rw [hmade.window_eq]
      exact hrows
  · have hnot : (⟨index⟩ : TrackId) ∉ request.tracks := fun hmem =>
      hcovered ((hcovers index).1 hmem)
    have hkept := Source.track?_load_of_not_mem mode rfl hread hnot
    refine ⟨held, [], hkept.trans hheld, (List.append_nil _).symm, ?_, by simp⟩
    simp [hcovered]

end Gains

end MemorySource

section Plan

variable {shape : Shape} {grid : Grid}

theorem Grid.readable_of_mem_plan
    (hfits : grid.Fits shape)
    (hcheck : grid.check shape = .ok ()) :
    ∀ cell ∈ grid.plan shape, cell.Readable grid.trackCount := by
  intro cell hcell
  obtain ⟨request, hrequest, hover, hcovers⟩ := Grid.exists_request hfits hcheck hcell
  refine ⟨request, hrequest, hover, fun index => ⟨hcovers index, fun hcovered => ?_⟩⟩
  exact Grid.lt_of_covers hfits hcheck hcell hcovered

/-- The cells of a plan come after a trace that holds no chunk. -/
theorem Grid.ascends_plan
    {trace : Trace}
    (hfits : grid.Fits shape)
    (hcheck : grid.check shape = .ok ())
    (hcount : trace.trackCount = grid.trackCount)
    (hempty : ∀ track ∈ trace.tracks, track.shelf.chunks = []) :
    MemorySource.Ascends (grid.plan shape) trace := by
  intro index held hheld
  have hinside : index < grid.trackCount := by
    rw [← hcount]
    exact (List.getElem?_eq_some_iff.1 hheld).1
  rw [hempty held (List.mem_of_getElem? hheld), Grid.filter_covers_plan hfits hcheck hinside]
  exact (Grid.tiles_columnWindows hfits).pairwise_start

end Plan

namespace Client

variable
  {database : DatabaseId} {id : TraceId} {source : MemorySource} {shape : Shape} {grid : Grid}

/-- **Reading cells in order** succeeds, and adds to each track one chunk for each cell that
covers it. -/
theorem readCells_gains
    (mode : ReadMode)
    (hdistinct : (source.tracks.map Prod.fst).Nodup) :
    ∀ {cells : List Cell} {session : Session} {trace : Trace},
      session.Serves database id source trace →
      (∀ cell ∈ cells, cell.Readable source.tracks.length) →
      MemorySource.Ascends cells trace →
        ∃ (totals : List ChunkTotals) (after : Trace),
          (readCells database mode cells session).result = .ok totals ∧
          totals.length = cells.length ∧
          (readCells database mode cells session).session.Serves database id source after ∧
          trace.Continues after ∧
          source.Gains cells trace after
  | [], session, trace, hserves, _, _ =>
      ⟨[], trace, rfl, rfl, hserves, .refl trace, .refl trace⟩
  | cell :: cells, session, trace, hserves, hreadable, hascends => by
      obtain ⟨request, hrequest, hwindow, hcovers⟩ := hreadable cell List.mem_cons_self
      have hinside : ∀ id ∈ request.tracks, id.index < source.tracks.length := by
        intro id hid
        exact (hcovers id.index).2 ((hcovers id.index).1.1 hid)
      obtain ⟨totals, hread, hresult, hstill⟩ := hserves.read mode hinside
      have hcontinues := Source.continues_load_of_ok mode rfl hread
      have hfirst : MemorySource.Ascends [cell] trace := by
        intro index held hheld
        have hordered := hascends index held hheld
        rw [show cell :: cells = [cell] ++ cells from rfl, List.filter_append, List.map_append,
          ← List.append_assoc] at hordered
        exact (List.pairwise_append.1 hordered).1
      have hgains := MemorySource.gains_load mode hdistinct hserves.loaded hread hwindow
        (fun index => (hcovers index).1) hfirst
      have hcount := MemorySource.trackCount_of_loaded hserves.loaded
      have hnext : MemorySource.Ascends cells (source.toSource.load mode request trace).trace :=
        MemorySource.Ascends.after_gains hascends hgains hcount hcontinues
      obtain ⟨rest, after, hrest, hlength, hserved, hcontinued, hgained⟩ :=
        readCells_gains mode hdistinct hstill
          (fun other hother => hreadable other (List.mem_cons_of_mem cell hother)) hnext
      have hcell : (read session database request mode).result = .ok totals := by
        simp [read, checkedTold, hresult, checked]
      refine ⟨totals :: rest, after, ?_, by simp [hlength], ?_, hcontinues.trans hcontinued,
        hgains.trans hgained hcontinued.strings⟩
      · simp only [readCells, hrequest, hcell]
        simp only [read, checkedTold, hrest, Except.map]
      · simp only [readCells, hrequest, hcell]
        exact hserved

/-- The grid of a loaded trace is the box of the metadata. -/
theorem grid_of_serves
    {session : Session} {trace : Trace}
    (hserves : session.Serves database id source trace)
    (hgrid : session.grid id = .ok grid) :
    grid = ⟨source.covered, source.tracks.length, session.config.minimumSpan⟩ := by
  have hcount := MemorySource.trackCount_of_loaded hserves.loaded
  have hwindow : trace.window? = some source.covered := hserves.loaded.1
  simp only [Session.grid, hserves.listed, bind, Except.bind, Grid.ofTrace, hwindow, hcount,
    Except.ok.injEq] at hgrid
  exact hgrid.symm

/-- **Grid reads lose nothing.**  Every cell is read, each track has one chunk for each
column, and the chunks of a track divide its rows over the window of the trace. -/
theorem readGrid_divides
    {session : Session} {trace : Trace}
    (mode : ReadMode)
    (hdistinct : (source.tracks.map Prod.fst).Nodup)
    (hminimum : 1 ≤ session.config.minimumSpan)
    (hserves : session.Serves database id source trace)
    (hempty : ∀ track ∈ trace.tracks, track.shelf.chunks = [])
    (hgrid : session.grid id = .ok grid)
    (hcheck : grid.check shape = .ok ()) :
    ∃ (totals : List ChunkTotals) (after : Trace),
      (readGrid session database id shape mode).result = .ok totals ∧
      totals.length = shape.columns * shape.rows ∧
      (readGrid session database id shape mode).session.trace id = .ok after ∧
      ∀ (index : Nat) (descriptor : Descriptor) (rows : List Row),
        source.tracks[index]? = some (descriptor, rows) →
          ∃ track : Track,
            after.track? ⟨index⟩ = some track ∧
            track.chunkCount = shape.columns ∧
            Chunk.Divide after.strings descriptor.category.isCounter source.covered rows
              track.shelf.chunks := by
  have hbox := grid_of_serves hserves hgrid
  have hfits : grid.Fits shape := by
    refine Grid.fits_of_check ?_ hcheck
    rw [hbox]
    exact hminimum
  have htrackCount : grid.trackCount = source.tracks.length := by
    rw [hbox]
  have hcount := MemorySource.trackCount_of_loaded hserves.loaded
  have hwindow : grid.window = source.covered := by
    rw [hbox]
  have htiles := Grid.tiles_columnWindows hfits
  have hreadable := Grid.readable_of_mem_plan hfits hcheck
  rw [htrackCount] at hreadable
  have hascends := Grid.ascends_plan hfits hcheck (hcount.trans htrackCount.symm) hempty
  obtain ⟨totals, after, hresult, hlength, hserved, hcontinues, hgains⟩ :=
    readCells_gains mode hdistinct hserves hreadable hascends
  have hread : readGrid session database id shape mode =
      readCells database mode (grid.plan shape) session := by
    simp only [readGrid, hgrid, checked]
  rw [hread]
  refine ⟨totals, after, hresult, ?_, hserved.listed, ?_⟩
  · rw [hlength, Grid.length_plan hcheck]
  · intro index descriptor rows htrack
    have hinside : index < source.tracks.length := (List.getElem?_eq_some_iff.1 htrack).1
    obtain ⟨held, hheld⟩ := Trace.track?_of_lt (hcount.symm ▸ hinside)
    obtain ⟨track, chunks, hafter, hshelf, hwindows, hfilled⟩ :=
      hgains index descriptor rows held htrack hheld
    rw [hempty held (List.mem_of_getElem? hheld), List.nil_append] at hshelf
    rw [Grid.filter_covers_plan hfits hcheck (htrackCount.symm ▸ hinside)] at hwindows
    refine ⟨track, hafter, ?_, ?_⟩
    · have hlengths := congrArg List.length hwindows
      rw [Track.chunkCount, Shelf.size, hshelf]
      simpa [Grid.columnWindows] using hlengths
    · rw [hshelf, ← hwindow]
      exact Chunk.divide_of_tiles hfits.start_lt_stop (hwindows ▸ htiles) hfilled

section Example

/-- A counter with two samples, and a thread whose first call reaches past its middle. -/
def sampled : MemorySource where
  name := "sampled"
  window := some ⟨10, 40⟩
  tracks :=
    [(⟨0, .counter, "main", "memory", []⟩, [.sample 10 1.0, .sample 30 2.0]),
    (⟨0, .region, "main", "thread 1", []⟩,
      [.event ⟨1, .launch, 12, 20, "call", "f"⟩, .event ⟨2, .launch, 25, 0, "call", "g"⟩])]
  details := .empty

/-- The source is attached to a session with one trace. -/
def opened : Session :=
  ((Session.empty { Config.standard with minimumSpan := 1 }).attach
    sampled.toSource).2.createTrace.2

/-- The source is bound to the trace. -/
def bound : Session :=
  ((opened.bind ⟨0⟩ ⟨0⟩).toOption).getD opened

theorem readGrid_divides_sampled :
    ∃ (totals : List ChunkTotals) (after : Trace) (track : Track),
      (readGrid (bound.readMetadata ⟨0⟩).session ⟨0⟩ ⟨0⟩ ⟨2, 2⟩ .batch).result = .ok totals ∧
      totals.length = 4 ∧
      (readGrid (bound.readMetadata ⟨0⟩).session ⟨0⟩ ⟨0⟩ ⟨2, 2⟩ .batch).session.trace ⟨0⟩ =
        .ok after ∧
      after.track? ⟨1⟩ = some track ∧
      track.chunkCount = 2 ∧
      ∃ chunk ∈ track.shelf.chunks, chunk.window.meets 12 32 = true := by
  have hreach : Session.Reachable { Config.standard with minimumSpan := 1 } opened :=
    (Session.Reachable.empty.step (.attach _ sampled.toSource)).step (.createTrace _)
  have hbind : opened.bind ⟨0⟩ ⟨0⟩ = .ok bound := rfl
  have hdatabase : opened.database ⟨0⟩ = .ok ⟨sampled.toSource, .empty, none⟩ := rfl
  have htrace : opened.trace ⟨0⟩ = .ok (.fresh ⟨0⟩) := rfl
  obtain ⟨loaded, -, hserves, hempty⟩ := Session.serves_of_load
    (Session.numbered_of_reachable hreach) hdatabase htrace rfl hbind
  have hgrid : (bound.readMetadata ⟨0⟩).session.grid ⟨0⟩ = .ok ⟨⟨10, 40⟩, 2, 1⟩ := rfl
  have hcheck : Grid.check ⟨⟨10, 40⟩, 2, 1⟩ ⟨2, 2⟩ = .ok () := rfl
  obtain ⟨totals, after, hresult, hlength, hafter, htracks⟩ :=
    readGrid_divides .batch (by decide) (Nat.le_refl 1) hserves hempty hgrid hcheck
  obtain ⟨track, htrack, hcount, hdivide⟩ := htracks 1 _ _ rfl
  obtain ⟨chunk, hchunk, hmem⟩ := hdivide.eventSomewhere rfl 0 _ rfl (by decide)
  have hmeets := (hdivide.eventWhere rfl 0 _ rfl chunk hchunk).1 hmem
  exact ⟨totals, after, track, hresult, hlength, hafter, htrack, hcount, chunk, hchunk, hmeets⟩

end Example

end Client

end TimelineStore
