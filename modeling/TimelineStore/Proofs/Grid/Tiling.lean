import TimelineStore.Grid
import TimelineStore.Proofs.Request
import TimelineStore.Proofs.Window

/-!
# Cells of a grid

Bounds between columns are rounded down to whole units.  A shape that a grid accepts has
no more columns than the window has units and no more rows than there are tracks, so each
bound is past the one before: no column and no row is empty.

**Results.**
* `Grid.tiles_columnWindows`: the windows of the columns tile the window of the grid.
* `Grid.filter_covers_plan`: the cells that cover a track are one for each column, in order.
* `Cell.converts`: a cell with some time and some track converts into a request.
* `Grid.exists_request`: every cell of the plan can be read.
-/

namespace TimelineStore

/-- Where each part is due an amount, the bounds of a part lie at least that amount apart. -/
theorem share_add_le_share
    {size parts amount : Nat}
    (hparts : 0 < parts)
    (hsize : amount * parts ≤ size)
    (k : Nat) :
    size * k / parts + amount ≤ size * (k + 1) / parts := by
  have hnext : (size * k + amount * parts) / parts = size * k / parts + amount :=
    Nat.add_mul_div_right _ _ hparts
  rw [← hnext]
  refine Nat.div_le_div_right ?_
  rw [Nat.mul_succ]
  omega

/-- Shares of a size in as many parts as it has units, or fewer, are not empty. -/
theorem share_lt_share
    {size parts : Nat}
    (hparts : 0 < parts)
    (hsize : parts ≤ size)
    (k : Nat) :
    size * k / parts < size * (k + 1) / parts :=
  share_add_le_share hparts ((Nat.one_mul parts).symm ▸ hsize) k

/-- The parts up to one of them share no more than there is. -/
theorem share_le_size
    {size parts k : Nat}
    (hk : k ≤ parts) :
    size * k / parts ≤ size := by
  refine Nat.div_le_of_le_mul ?_
  rw [Nat.mul_comm]
  exact Nat.mul_le_mul_right _ hk

/-- Between the first and the last of some bounds a number is between two that follow
each other. -/
theorem exists_between
    (bound : Nat → Nat) {count number : Nat}
    (hfirst : bound 0 ≤ number)
    (hlast : number < bound count) :
    ∃ k < count, bound k ≤ number ∧ number < bound (k + 1) := by
  induction count with
  | zero => omega
  | succ count ih =>
      by_cases hbefore : number < bound count
      · obtain ⟨k, hk, hbetween⟩ := ih hbefore
        exact ⟨k, Nat.lt_succ_of_lt hk, hbetween⟩
      · exact ⟨count, Nat.lt_succ_self count, Nat.le_of_not_lt hbefore, hlast⟩

/-- Lists that are empty but for one leave that one. -/
theorem flatMap_range_eq
    {α : Type} {f : Nat → List α} {count k : Nat}
    (hk : k < count)
    (hothers : ∀ j < count, j ≠ k → f j = []) :
    (List.range count).flatMap f = f k := by
  induction count with
  | zero => omega
  | succ count ih =>
      rw [List.range_succ, List.flatMap_append, List.flatMap_singleton]
      by_cases hlast : k = count
      · have hnone : (List.range count).flatMap f = [] := by
          refine List.flatMap_eq_nil_iff.2 fun j hj => ?_
          rw [List.mem_range] at hj
          exact hothers j (by omega) (by omega)
        rw [hnone, hlast, List.nil_append]
      · rw [hothers count (by omega) (by omega), List.append_nil]
        exact ih (by omega) fun j hj hne => hothers j (by omega) hne

/-- Windows between bounds that increase tile the window from the first to the last. -/
theorem Window.tiles_of_bounds
    (bound : Nat → Timestamp) (first count : Nat)
    (hincreasing : ∀ k, first ≤ k → k < first + count → bound k < bound (k + 1)) :
    Window.Tiles ((List.range' first count).map fun k => ⟨bound k, bound (k + 1)⟩)
      ⟨bound first, bound (first + count)⟩ := by
  induction count generalizing first with
  | zero => exact rfl
  | succ count ih =>
      rw [List.range'_succ, List.map_cons]
      refine ⟨rfl, hincreasing first (Nat.le_refl _) (by omega), ?_⟩
      have hrest := ih (first + 1) fun k hfrom hto =>
        hincreasing k (by omega) (by omega)
      rw [show first + 1 + count = first + (count + 1) by omega] at hrest
      exact hrest

namespace Cell

/-- The track at a position is one of the cell. -/
def covers (index : Nat) (cell : Cell) : Bool :=
  cell.firstTrack ≤ index && index < cell.endTrack

theorem mem_tracks_iff
    {cell : Cell} {index : Nat} :
    (⟨index⟩ : TrackId) ∈ cell.tracks ↔ cell.covers index = true := by
  simp only [tracks, List.mem_map, List.mem_range'_1, covers, Bool.and_eq_true, decide_eq_true_eq]
  constructor
  · rintro ⟨other, ⟨hfrom, hto⟩, hsame⟩
    obtain rfl : other = index := by simpa using hsame
    omega
  · rintro ⟨hfrom, hto⟩
    exact ⟨index, ⟨hfrom, by omega⟩, rfl⟩

theorem nodup_tracks
    (cell : Cell) :
    cell.tracks.Nodup :=
  List.Pairwise.map _ (fun _ _ hne hsame => hne (congrArg TrackId.index hsame))
    List.nodup_range'

/-- The cell converts into a request for its window and its tracks, in order. -/
def Converts (cell : Cell) : Prop :=
  ∃ request : Request,
    cell.request = .ok request ∧ request.window = cell.window ∧ request.tracks = cell.tracks

/-- **A cell with some time and some track converts into a request.** -/
theorem converts
    {cell : Cell}
    (htime : cell.window.start < cell.window.stop)
    (htracks : cell.firstTrack < cell.endTrack) :
    cell.Converts := by
  have hwindow : cell.window.isEmpty = false := Window.isEmpty_eq_false_iff.2 htime
  have hsome : cell.tracks ≠ [] := by
    refine List.ne_nil_of_mem (a := ⟨cell.firstTrack⟩) (mem_tracks_iff.2 ?_)
    simp [covers, htracks]
  obtain ⟨request, hmake⟩ := Request.exists_make hwindow hsome
  obtain ⟨hsame, hdistinct⟩ := Request.parts_of_make hmake
  exact ⟨request, hmake, hsame, hdistinct.trans (firstOccurrences_of_nodup cell.nodup_tracks)⟩

/-- A cell that covers no time converts into none. -/
theorem request_of_isEmpty
    {cell : Cell}
    (hempty : cell.window.isEmpty = true) :
    cell.request = .error (.emptyWindow cell.window) := by
  simp [Cell.request, Request.make, hempty]

end Cell

namespace Grid

variable {grid : Grid} {shape : Shape}

/-- There are as many units as columns and as many tracks as rows, and some of each. -/
structure Fits (grid : Grid) (shape : Shape) : Prop where
  columns_pos : 0 < shape.columns
  rows_pos : 0 < shape.rows
  columns_le : shape.columns ≤ grid.window.span
  rows_le : shape.rows ≤ grid.trackCount

theorem Fits.start_lt_stop
    (hfits : grid.Fits shape) :
    grid.window.start < grid.window.stop := by
  have hspan := hfits.columns_le
  have hpositive := hfits.columns_pos
  unfold Window.span at hspan
  rw [UInt64.lt_iff_toNat_lt]
  omega

/-- A grid whose least span is not zero accepts only shapes that fit. -/
theorem fits_of_check
    (hminimum : 1 ≤ grid.minimumSpan)
    (hcheck : grid.check shape = .ok ()) :
    grid.Fits shape := by
  unfold check at hcheck
  split at hcheck
  · cases hcheck
  · rename_i hpositive
    split at hcheck
    · cases hcheck
    · rename_i htracks
      split at hcheck
      · cases hcheck
      · rename_i hspan
        have hcolumns : 1 * shape.columns ≤ grid.minimumSpan * shape.columns :=
          Nat.mul_le_mul_right _ hminimum
        constructor <;> omega

section Columns

theorem toNat_timeBound
    {column : Nat}
    (hfits : grid.Fits shape)
    (hcolumn : column ≤ shape.columns) :
    (grid.timeBound shape column).toNat =
      grid.window.start.toNat + grid.window.span * column / shape.columns := by
  have hpos := hfits.columns_pos
  have hspan := hfits.columns_le
  have hsize := grid.window.stop.toNat_lt
  unfold timeBound
  split
  · rename_i hlast
    have hsame : column = shape.columns := Nat.le_antisymm hcolumn hlast
    rw [hsame, Nat.mul_div_cancel _ hpos]
    unfold Window.span at hspan ⊢
    omega
  · have hshare : grid.window.span * column / shape.columns ≤ grid.window.span :=
      share_le_size hcolumn
    unfold Window.span at hspan hshare ⊢
    rw [UInt64.toNat_add, UInt64.toNat_ofNat', Nat.mod_eq_of_lt (a := _ / _) (by omega),
      Nat.mod_eq_of_lt (by omega)]

theorem timeBound_lt_succ
    {column : Nat}
    (hfits : grid.Fits shape)
    (hcolumn : column < shape.columns) :
    grid.timeBound shape column < grid.timeBound shape (column + 1) := by
  rw [UInt64.lt_iff_toNat_lt, toNat_timeBound hfits (Nat.le_of_lt hcolumn),
    toNat_timeBound hfits hcolumn]
  exact Nat.add_lt_add_left (share_lt_share hfits.columns_pos hfits.columns_le column) _

/-- The windows of the columns, in order. -/
def columnWindows (grid : Grid) (shape : Shape) : List Window :=
  (List.range shape.columns).map fun column =>
    ⟨grid.timeBound shape column, grid.timeBound shape (column + 1)⟩

/-- **The windows of the columns tile the window of the grid.** -/
theorem tiles_columnWindows
    (hfits : grid.Fits shape) :
    Window.Tiles (grid.columnWindows shape) grid.window := by
  have htiles := Window.tiles_of_bounds (grid.timeBound shape) 0 shape.columns
    fun column _ hcolumn => timeBound_lt_succ hfits (by omega)
  have hstart : grid.timeBound shape 0 = grid.window.start := by
    refine UInt64.toNat.inj ?_
    rw [toNat_timeBound hfits (Nat.zero_le _)]
    simp
  have hstop : grid.timeBound shape (0 + shape.columns) = grid.window.stop := by
    simp [timeBound]
  rw [hstart, hstop, ← List.range_eq_range'] at htiles
  exact htiles

end Columns

section Rows

variable {row : Nat}

theorem trackBound_eq
    (hpositive : 0 < shape.rows)
    (hrow : row ≤ shape.rows) :
    grid.trackBound shape row = grid.trackCount * row / shape.rows := by
  unfold trackBound
  split
  · rename_i hlast
    have hsame : row = shape.rows := Nat.le_antisymm hrow hlast
    rw [hsame, Nat.mul_div_cancel _ hpositive]
  · rfl

theorem trackBound_lt_succ
    (hpositive : 0 < shape.rows)
    (htracks : shape.rows ≤ grid.trackCount)
    (hrow : row < shape.rows) :
    grid.trackBound shape row < grid.trackBound shape (row + 1) := by
  rw [trackBound_eq hpositive (Nat.le_of_lt hrow), trackBound_eq hpositive hrow]
  exact share_lt_share hpositive htracks row

theorem trackBound_mono
    {other : Nat}
    (hpositive : 0 < shape.rows)
    (hle : row ≤ other)
    (hother : other ≤ shape.rows) :
    grid.trackBound shape row ≤ grid.trackBound shape other := by
  rw [trackBound_eq hpositive (Nat.le_trans hle hother), trackBound_eq hpositive hother]
  exact Nat.div_le_div_right (Nat.mul_le_mul_left _ hle)

theorem trackBound_le
    (hpositive : 0 < shape.rows)
    (hrow : row ≤ shape.rows) :
    grid.trackBound shape row ≤ grid.trackCount := by
  rw [trackBound_eq hpositive hrow]
  exact share_le_size hrow

end Rows

section Plan

/-- The cells of a row, column by column. -/
def rowCells (grid : Grid) (shape : Shape) (row : Nat) : List Cell :=
  (List.range shape.columns).map fun column => grid.place shape column row

theorem plan_eq
    (hcheck : grid.check shape = .ok ()) :
    grid.plan shape = (List.range shape.rows).flatMap (grid.rowCells shape) := by
  have haccepts : grid.accepts shape = true := by
    simp [accepts, hcheck, Except.toBool]
  simp only [plan, haccepts, if_true]
  rfl

theorem mem_plan_iff
    {cell : Cell}
    (hcheck : grid.check shape = .ok ()) :
    cell ∈ grid.plan shape ↔
      ∃ row < shape.rows, ∃ column < shape.columns, cell = grid.place shape column row := by
  rw [plan_eq hcheck]
  simp only [List.mem_flatMap, List.mem_range, rowCells, List.mem_map]
  constructor
  · rintro ⟨row, hrow, column, hcolumn, rfl⟩
    exact ⟨row, hrow, column, hcolumn, rfl⟩
  · rintro ⟨row, hrow, column, hcolumn, rfl⟩
    exact ⟨row, hrow, column, hcolumn, rfl⟩

theorem length_plan
    (hcheck : grid.check shape = .ok ()) :
    (grid.plan shape).length = shape.columns * shape.rows := by
  have hrow : (fun row => (grid.rowCells shape row).length) = fun _ => shape.columns := by
    funext row
    simp [rowCells]
  rw [plan_eq hcheck, List.length_flatMap, hrow, List.map_const', List.sum_replicate_nat,
    List.length_range, Nat.mul_comm]

/-- The rows of a grid divide its tracks: each track is in exactly one of them. -/
theorem exists_row
    {index : Nat}
    (hfits : grid.Fits shape)
    (hindex : index < grid.trackCount) :
    ∃ row < shape.rows,
      (∀ column, (grid.place shape column row).covers index = true) ∧
      ∀ other < shape.rows, other ≠ row →
        ∀ column, (grid.place shape column other).covers index = false := by
  have hfirst : grid.trackBound shape 0 ≤ index := by
    rw [trackBound_eq hfits.rows_pos (Nat.zero_le _)]
    simp
  have hlast : index < grid.trackBound shape shape.rows := by
    rw [trackBound_eq hfits.rows_pos (Nat.le_refl _), Nat.mul_div_cancel _ hfits.rows_pos]
    exact hindex
  obtain ⟨row, hrow, hfrom, hto⟩ := exists_between (grid.trackBound shape) hfirst hlast
  refine ⟨row, hrow, fun column => ?_, fun other hother hne column => ?_⟩
  · simp [Cell.covers, place, hfrom, hto]
  · simp only [Cell.covers, place, Bool.and_eq_false_iff]
    rcases Nat.lt_or_gt_of_ne hne with hbefore | hafter
    · have hmono : grid.trackBound shape (other + 1) ≤ grid.trackBound shape row :=
        trackBound_mono hfits.rows_pos hbefore (Nat.le_of_lt hrow)
      exact Or.inr (decide_eq_false (by omega))
    · have hmono : grid.trackBound shape (row + 1) ≤ grid.trackBound shape other :=
        trackBound_mono hfits.rows_pos hafter (Nat.le_of_lt hother)
      exact Or.inl (decide_eq_false (by omega))

/-- **The cells that cover a track are one for each column**, in order of the columns. -/
theorem filter_covers_plan
    {index : Nat}
    (hfits : grid.Fits shape)
    (hcheck : grid.check shape = .ok ())
    (hindex : index < grid.trackCount) :
    ((grid.plan shape).filter (Cell.covers index)).map (·.window) =
      grid.columnWindows shape := by
  obtain ⟨row, hrow, hcovers, hothers⟩ := exists_row hfits hindex
  rw [plan_eq hcheck, List.filter_flatMap, flatMap_range_eq hrow]
  · have hall : (grid.rowCells shape row).filter (Cell.covers index) = grid.rowCells shape row := by
      refine List.filter_eq_self.2 fun cell hcell => ?_
      obtain ⟨column, -, rfl⟩ := List.mem_map.1 hcell
      exact hcovers column
    rw [hall, rowCells, List.map_map]
    rfl
  · intro other hother hne
    refine List.filter_eq_nil_iff.2 fun cell hcell => ?_
    obtain ⟨column, -, rfl⟩ := List.mem_map.1 hcell
    simp [hothers other hother hne column]

/-- **Every cell of the plan can be read**: its window is not empty, and it has tracks, all of
them tracks of the grid. -/
theorem exists_request
    {cell : Cell}
    (hfits : grid.Fits shape)
    (hcheck : grid.check shape = .ok ())
    (hcell : cell ∈ grid.plan shape) :
    ∃ request : Request,
      cell.request = .ok request ∧ request.window = cell.window ∧
        ∀ index : Nat, (⟨index⟩ : TrackId) ∈ request.tracks ↔ cell.covers index = true := by
  obtain ⟨row, hrow, column, hcolumn, rfl⟩ := (mem_plan_iff hcheck).1 hcell
  have htracks : (grid.place shape column row).firstTrack <
      (grid.place shape column row).endTrack :=
    trackBound_lt_succ hfits.rows_pos hfits.rows_le hrow
  obtain ⟨request, hrequest, hwindow, hsame⟩ :=
    Cell.converts (timeBound_lt_succ hfits hcolumn) htracks
  refine ⟨request, hrequest, hwindow, fun index => ?_⟩
  rw [hsame]
  exact Cell.mem_tracks_iff

theorem lt_of_covers
    {cell : Cell} {index : Nat}
    (hfits : grid.Fits shape)
    (hcheck : grid.check shape = .ok ())
    (hcell : cell ∈ grid.plan shape)
    (hcovers : cell.covers index = true) :
    index < grid.trackCount := by
  obtain ⟨row, hrow, column, hcolumn, rfl⟩ := (mem_plan_iff hcheck).1 hcell
  simp only [Cell.covers, Bool.and_eq_true, decide_eq_true_eq] at hcovers
  exact Nat.lt_of_lt_of_le hcovers.2 (trackBound_le hfits.rows_pos hrow)

end Plan

end Grid

end TimelineStore
