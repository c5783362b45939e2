import TimelineStore.Proofs.Grid.Plan
import TimelineStore.Proofs.Grid.Read
import TimelineStore.Proofs.Reading.Answers

/-!
# Requests of planned cells

The guard of a grid compares spans, a request refuses a window that covers no time.  With a
least span above zero the two agree.  With a least span of zero the guard lets shapes through
that have more columns than the window has units, or any columns over a window that ends before
it starts; the first column of such a shape is empty, and its cells do not convert.

**Results.**
* `Grid.converts_iff`: which plans convert cell by cell.
* `Session.Feeds.read_of_errorFree`: a source without errors answers every read of known tracks.
* `Client.readCells_of_converts`: reading cells that convert succeeds.
* `Client.plan_readable_iff`: which accepted grids can be read.
-/

namespace TimelineStore

namespace Grid

variable {grid : Grid} {shape : Shape} {column row : Nat} {cell : Cell}

theorem fits_of_columns_le
    (hcheck : grid.check shape = .ok ())
    (hcolumns : shape.columns ≤ grid.window.span) :
    grid.Fits shape := by
  obtain ⟨hpositive, hrows, htracks, -⟩ := check_eq_ok_iff.1 hcheck
  exact ⟨hpositive, hrows, hcolumns, htracks⟩

/-- A least span above zero leaves a unit to each column. -/
theorem columns_le_of_check
    (hminimum : 1 ≤ grid.minimumSpan)
    (hcheck : grid.check shape = .ok ()) :
    shape.columns ≤ grid.window.span :=
  (fits_of_check hminimum hcheck).columns_le

/-- Rows do not depend on the window: each has a track, whatever the columns are. -/
theorem firstTrack_lt_endTrack
    (hcheck : grid.check shape = .ok ())
    (hrow : row < shape.rows) :
    (grid.place shape column row).firstTrack < (grid.place shape column row).endTrack := by
  obtain ⟨-, hrows, htracks, -⟩ := check_eq_ok_iff.1 hcheck
  exact trackBound_lt_succ hrows htracks hrow

theorem endTrack_le
    (hcheck : grid.check shape = .ok ())
    (hcell : cell ∈ grid.plan shape) :
    cell.endTrack ≤ grid.trackCount := by
  obtain ⟨row, hrow, column, -, rfl⟩ := (mem_plan_iff hcheck).1 hcell
  exact trackBound_le (check_eq_ok_iff.1 hcheck).2.1 hrow

/-- A cell of a plan fails to convert for one reason only. -/
theorem converts_or_isEmpty
    (hcheck : grid.check shape = .ok ())
    (hcell : cell ∈ grid.plan shape) :
    cell.window.isEmpty = false ∧ cell.Converts ∨
      cell.window.isEmpty = true ∧ cell.request = .error (.emptyWindow cell.window) := by
  obtain ⟨row, hrow, column, -, rfl⟩ := (mem_plan_iff hcheck).1 hcell
  cases hempty : (grid.place shape column row).window.isEmpty with
  | true => exact Or.inr ⟨rfl, Cell.request_of_isEmpty hempty⟩
  | false =>
      exact Or.inl ⟨rfl, Cell.converts (Window.isEmpty_eq_false_iff.1 hempty)
        (firstTrack_lt_endTrack hcheck hrow)⟩

/-- Where there are more columns than units, the share of the first rounds down to nothing; a
single column is the window itself. -/
theorem isEmpty_first
    (hpositive : 0 < shape.columns)
    (hnarrow : grid.window.span < shape.columns) :
    (grid.place shape 0 row).window.isEmpty = true := by
  have hfirst : grid.timeBound shape 0 = grid.window.start := by
    simp [timeBound, Nat.not_le.2 hpositive]
  have hsecond : grid.timeBound shape 1 ≤ grid.window.start := by
    unfold timeBound
    split
    · rw [Window.span] at hnarrow
      rw [UInt64.le_iff_toNat_le]
      omega
    · rw [Nat.mul_one, Nat.div_eq_of_lt hnarrow]
      simp
  rw [← hfirst] at hsecond
  exact decide_eq_true hsecond

/-- **The cells of a plan convert exactly if there are no more columns than units of time.** -/
theorem converts_iff
    (hcheck : grid.check shape = .ok ()) :
    (∀ cell ∈ grid.plan shape, cell.Converts) ↔ shape.columns ≤ grid.window.span := by
  obtain ⟨hpositive, hrows, -, -⟩ := check_eq_ok_iff.1 hcheck
  constructor
  · intro hconverts
    by_contra hnarrow
    obtain ⟨request, hrequest, -⟩ := hconverts (grid.place shape 0 0)
      ((mem_plan_iff hcheck).2 ⟨0, hrows, 0, hpositive, rfl⟩)
    have hempty : (grid.place shape 0 0).window.isEmpty = true :=
      isEmpty_first hpositive (Nat.lt_of_not_le hnarrow)
    rw [Cell.request_of_isEmpty hempty] at hrequest
    cases hrequest
  · intro hcolumns cell hcell
    obtain ⟨row, hrow, column, hcolumn, rfl⟩ := (mem_plan_iff hcheck).1 hcell
    exact Cell.converts (timeBound_lt_succ (fits_of_columns_le hcheck hcolumns) hcolumn)
      (firstTrack_lt_endTrack hcheck hrow)

end Grid

/-- A source without errors answers every read of tracks that it has with a row set for each. -/
def Source.ErrorFree (source : Source) (known : List Descriptor) : Prop :=
  ∀ (mode : ReadMode) (asked : List Descriptor) (window : Window),
    (∀ descriptor ∈ asked, descriptor ∈ known) →
      ∃ sets, source.answers mode asked window = .ok sets ∧ sets.length = asked.length

theorem MemorySource.errorFree
    (source : MemorySource) :
    source.toSource.ErrorFree source.metadata.tracks := by
  intro mode asked window hasked
  have heach : ∀ descriptor ∈ asked, ∃ rows, source.readTrack descriptor window = .ok rows :=
    fun descriptor hdescriptor => exists_readTrack (hasked descriptor hdescriptor) window
  obtain ⟨sets, hsets⟩ := Outcome.exists_mapM_eq_ok heach
  refine ⟨sets, ?_, (Outcome.mapM_eq_ok_iff.1 hsets).length_eq.symm⟩
  cases mode <;> exact hsets

/-- A read of tracks that the trace has is answered. -/
theorem Source.ErrorFree.exists_answered
    {source : Source} {request : Request} {trace : Trace}
    (mode : ReadMode)
    (hfree : source.ErrorFree (trace.tracks.map (·.descriptor)))
    (hloaded : trace.isLoaded = true)
    (hinside : ∀ id ∈ request.tracks, id.index < trace.trackCount) :
    ∃ tracks sets, source.Answered mode request trace tracks sets := by
  obtain ⟨tracks, hresolve⟩ := Trace.exists_resolve hloaded hinside
  obtain ⟨sets, hsets, hlength⟩ := hfree mode (tracks.map (·.descriptor)) request.window
    fun descriptor hdescriptor => by
      obtain ⟨track, htrack, rfl⟩ := List.mem_map.1 hdescriptor
      exact List.mem_map_of_mem
        (List.mem_of_getElem? (Trace.track?_of_resolve hresolve htrack))
  exact ⟨tracks, sets, hresolve, hsets, hlength.trans (List.length_map _)⟩

variable
  {session : Session} {database : DatabaseId} {id : TraceId} {source : Source} {trace : Trace}

/-- **A read of known tracks of a source without errors succeeds**, and the database still feeds
the trace that it leaves. -/
theorem Session.Feeds.read_of_errorFree
    {request : Request}
    (mode : ReadMode)
    (hfeeds : session.Feeds database id source trace)
    (hfree : source.ErrorFree (trace.tracks.map (·.descriptor)))
    (hloaded : trace.isLoaded = true)
    (hinside : ∀ id ∈ request.tracks, id.index < trace.trackCount) :
    ∃ totals after,
      (session.read database request mode).result = .ok totals ∧
        (session.read database request mode).session.Feeds database id source after ∧
        trace.Continues after := by
  obtain ⟨tracks, sets, hanswered⟩ := hfree.exists_answered mode hloaded hinside
  obtain ⟨hresult, hstill⟩ := hfeeds.read mode hanswered.continues hanswered.result_load
  exact ⟨_, _, hresult, hstill, hanswered.continues⟩

namespace Client

/-- **Reading cells that convert succeeds**, with totals for each of them. -/
theorem readCells_of_converts
    (mode : ReadMode) :
    ∀ {cells : List Cell} {session : Session} {trace : Trace},
      session.Feeds database id source trace →
      source.ErrorFree (trace.tracks.map (·.descriptor)) →
      trace.isLoaded = true →
      (∀ cell ∈ cells, cell.Converts ∧ cell.endTrack ≤ trace.trackCount) →
        ∃ totals,
          (readCells database mode cells session).result = .ok totals ∧
            totals.length = cells.length
  | [], _, _, _, _, _, _ => ⟨[], rfl, rfl⟩
  | cell :: cells, session, trace, hfeeds, hfree, hloaded, hcells => by
      obtain ⟨⟨request, hrequest, -, htracks⟩, hend⟩ := hcells cell List.mem_cons_self
      have hinside : ∀ id ∈ request.tracks, id.index < trace.trackCount := by
        intro id hid
        rw [htracks] at hid
        have hcovers := Cell.mem_tracks_iff.1 hid
        simp only [Cell.covers, Bool.and_eq_true, decide_eq_true_eq] at hcovers
        omega
      obtain ⟨totals, after, hresult, hstill, hcontinues⟩ :=
        hfeeds.read_of_errorFree mode hfree hloaded hinside
      obtain ⟨rest, hrest, hlength⟩ := readCells_of_converts mode hstill
        (hcontinues.descriptors ▸ hfree) (hcontinues.isLoaded.trans hloaded)
        fun other hother => by
          rw [hcontinues.trackCount]
          exact hcells other (List.mem_cons_of_mem cell hother)
      have hcell : (read session database request mode).result = .ok totals := by
        simp [read, checkedTold, hresult, checked]
      refine ⟨totals :: rest, ?_, by simp [hlength]⟩
      simp only [readCells, hrequest, hcell]
      simp only [read, checkedTold, hrest, Except.map]

/-- Cells whose first does not convert are not read at all. -/
theorem readCells_of_isEmpty
    {cell : Cell} {cells : List Cell}
    (mode : ReadMode)
    (hempty : cell.window.isEmpty = true) :
    readCells database mode (cell :: cells) session =
      ⟨[], .error (.call "plan" .invalidParameter), session⟩ := by
  simp only [readCells, Cell.request_of_isEmpty hempty]
  rfl

/-- A grid is over a trace that is loaded, and has its tracks. -/
theorem trackCount_of_grid
    {grid : Grid}
    (hlisted : session.trace id = .ok trace)
    (hgrid : session.grid id = .ok grid) :
    trace.isLoaded = true ∧ grid.trackCount = trace.trackCount := by
  simp only [Session.grid, hlisted, bind, Except.bind, Grid.ofTrace] at hgrid
  split at hgrid
  · cases hgrid
  · rename_i window hwindow
    cases hgrid
    exact ⟨Trace.isLoaded_of_window? hwindow, rfl⟩

variable {grid : Grid} {shape : Shape}

/-- **A grid whose cells convert can be read** of a source without errors. -/
theorem readGrid_of_columns_le
    (mode : ReadMode)
    (hfeeds : session.Feeds database id source trace)
    (hfree : source.ErrorFree (trace.tracks.map (·.descriptor)))
    (hgrid : session.grid id = .ok grid)
    (hcheck : grid.check shape = .ok ())
    (hcolumns : shape.columns ≤ grid.window.span) :
    ∃ totals,
      (readGrid session database id shape mode).result = .ok totals ∧
        totals.length = shape.columns * shape.rows := by
  obtain ⟨hloaded, hcount⟩ := trackCount_of_grid hfeeds.listed hgrid
  obtain ⟨totals, hresult, hlength⟩ := readCells_of_converts mode hfeeds hfree hloaded
    fun cell hcell => by
      rw [← hcount]
      exact ⟨(Grid.converts_iff hcheck).2 hcolumns cell hcell, Grid.endTrack_le hcheck hcell⟩
  refine ⟨totals, ?_, hlength.trans (Grid.length_plan hcheck)⟩
  simp only [readGrid, hgrid, checked]
  exact hresult

/-- A grid whose first column is empty is not read: the plan fails, and nothing changes. -/
theorem readGrid_of_lt_columns
    (database : DatabaseId) (mode : ReadMode)
    (hgrid : session.grid id = .ok grid)
    (hcheck : grid.check shape = .ok ())
    (hnarrow : grid.window.span < shape.columns) :
    readGrid session database id shape mode =
      ⟨[], .error (.call "plan" .invalidParameter), session⟩ := by
  obtain ⟨hpositive, hrows, -, -⟩ := Grid.check_eq_ok_iff.1 hcheck
  have hfirst := Grid.getElem?_plan hcheck hpositive hrows
  simp only [readGrid, hgrid, checked]
  cases hplan : grid.plan shape with
  | nil => simp [hplan] at hfirst
  | cons cell cells =>
      obtain rfl : cell = grid.place shape 0 0 := by simpa [hplan] using hfirst
      exact readCells_of_isEmpty mode (Grid.isEmpty_first hpositive hnarrow)

/-- **Which accepted grids can be read.**  If there are no more columns than units of time, as a
least span above zero sees to, each cell converts into the request for its window and its tracks,
and over a source without errors the grid is read; if there are more, which a least span of zero
lets through, the first cell covers no time and reading the grid fails before anything is read.
Tracks are numbered in words of 32 bits, which hold the numbers of up to 2³² tracks. -/
theorem plan_readable_iff
    (hcheck : grid.check shape = .ok ()) :
    ((∀ cell ∈ grid.plan shape, cell.Converts) ↔ shape.columns ≤ grid.window.span) ∧
    (1 ≤ grid.minimumSpan → shape.columns ≤ grid.window.span) ∧
    (∀ cell ∈ grid.plan shape,
      cell.window.isEmpty = false ∧ cell.Converts ∨
        cell.window.isEmpty = true ∧ cell.request = .error (.emptyWindow cell.window)) ∧
    (grid.trackCount ≤ 2 ^ 32 → ∀ cell ∈ grid.plan shape, ∀ track ∈ cell.tracks,
      (UInt32.ofNat track.index).toNat = track.index) ∧
    (∀ (session : Session) (database : DatabaseId) (id : TraceId) (mode : ReadMode),
      session.grid id = .ok grid →
        (∀ (source : Source) (trace : Trace),
          session.Feeds database id source trace →
          source.ErrorFree (trace.tracks.map (·.descriptor)) →
          shape.columns ≤ grid.window.span →
            ∃ totals, (readGrid session database id shape mode).result = .ok totals ∧
              totals.length = shape.columns * shape.rows) ∧
        (grid.window.span < shape.columns →
          readGrid session database id shape mode =
            ⟨[], .error (.call "plan" .invalidParameter), session⟩)) := by
  refine ⟨Grid.converts_iff hcheck, fun hminimum => Grid.columns_le_of_check hminimum hcheck,
    fun cell hcell => Grid.converts_or_isEmpty hcheck hcell, ?_, ?_⟩
  · intro hfew cell hcell track htrack
    have hend := Grid.endTrack_le hcheck hcell
    have hcovers := Cell.mem_tracks_iff.1 htrack
    simp only [Cell.covers, Bool.and_eq_true, decide_eq_true_eq] at hcovers
    exact UInt32.toNat_ofNat_of_lt' (by change _ < 2 ^ 32; omega)
  · intro session database id mode hgrid
    refine ⟨fun source trace hfeeds hfree hcolumns => ?_, fun hnarrow => ?_⟩
    · exact readGrid_of_columns_le mode hfeeds hfree hgrid hcheck hcolumns
    · exact readGrid_of_lt_columns database mode hgrid hcheck hnarrow

section Example

/-- The sampled source is attached to a session whose least span is zero. -/
def unguarded : Session :=
  ((Session.empty { Config.standard with minimumSpan := 0 }).attach
    sampled.toSource).2.createTrace.2

/-- The source is bound to the trace and loaded. -/
def unguardedLoaded : Session :=
  (((unguarded.bind ⟨0⟩ ⟨0⟩).toOption).getD unguarded |>.readMetadata ⟨0⟩).session

theorem reachable_unguarded :
    Session.Reachable { Config.standard with minimumSpan := 0 } unguarded :=
  (Session.Reachable.empty.step (.attach _ sampled.toSource)).step (.createTrace _)

theorem plan_readable_iff_unguarded :
    Grid.check ⟨⟨10, 40⟩, 2, 0⟩ ⟨2, 2⟩ = .ok () ∧
      Grid.check ⟨⟨10, 40⟩, 2, 0⟩ ⟨31, 1⟩ = .ok () ∧
      (∃ totals, (readGrid unguardedLoaded ⟨0⟩ ⟨0⟩ ⟨2, 2⟩ .batch).result = .ok totals ∧
        totals.length = 4) ∧
      readGrid unguardedLoaded ⟨0⟩ ⟨0⟩ ⟨31, 1⟩ .batch =
        ⟨[], .error (.call "plan" .invalidParameter), unguardedLoaded⟩ := by
  obtain ⟨loaded, -, hserves, -⟩ := Session.serves_of_load
    (Session.numbered_of_reachable reachable_unguarded)
    (rfl : unguarded.database ⟨0⟩ = .ok ⟨sampled.toSource, .empty, none⟩)
    (rfl : unguarded.trace ⟨0⟩ = .ok (.fresh ⟨0⟩)) rfl rfl
  have hgrid : unguardedLoaded.grid ⟨0⟩ = .ok ⟨⟨10, 40⟩, 2, 0⟩ := rfl
  have hwide : Grid.check ⟨⟨10, 40⟩, 2, 0⟩ ⟨2, 2⟩ = .ok () := rfl
  have hnarrow : Grid.check ⟨⟨10, 40⟩, 2, 0⟩ ⟨31, 1⟩ = .ok () := rfl
  have hread := (plan_readable_iff hwide).2.2.2.2 unguardedLoaded ⟨0⟩ ⟨0⟩ .batch hgrid
  have hfailed := (plan_readable_iff hnarrow).2.2.2.2 unguardedLoaded ⟨0⟩ ⟨0⟩ .batch hgrid
  refine ⟨hwide, hnarrow, ?_, hfailed.2 (by decide)⟩
  exact hread.1 _ loaded hserves.feeds (hserves.loaded.2 ▸ sampled.errorFree) (by decide)

/-- A configuration whose values are in range admits a grid that is accepted, although not all
of its cells convert and it cannot be read. -/
theorem exists_accepted_unreadable :
    ∃ (config : Config) (session : Session) (grid : Grid) (shape : Shape),
      config.validate = .ok () ∧ Session.Reachable config session ∧ session.grid ⟨0⟩ = .ok grid ∧
        grid.check shape = .ok () ∧ (¬ ∀ cell ∈ grid.plan shape, cell.Converts) ∧
        ∀ totals, (readGrid session ⟨0⟩ ⟨0⟩ shape .batch).result ≠ .ok totals := by
  have hgrid : unguardedLoaded.grid ⟨0⟩ = .ok ⟨⟨10, 40⟩, 2, 0⟩ := rfl
  have hcheck : Grid.check ⟨⟨10, 40⟩, 2, 0⟩ ⟨31, 1⟩ = .ok () := rfl
  have hbind : unguarded.bind ⟨0⟩ ⟨0⟩ = .ok (((unguarded.bind ⟨0⟩ ⟨0⟩).toOption).getD unguarded) :=
    rfl
  refine ⟨{ Config.standard with minimumSpan := 0 }, unguardedLoaded, _, _, by decide,
    (reachable_unguarded.step (.bind hbind)).step (.readMetadata _ ⟨0⟩), hgrid, hcheck, ?_, ?_⟩
  · rw [Grid.converts_iff hcheck]
    decide
  · intro totals hread
    rw [readGrid_of_lt_columns ⟨0⟩ .batch hgrid hcheck (by decide)] at hread
    cases hread

end Example

end Client

end TimelineStore
