import TimelineStore.Proofs.Grid.Tiling

/-!
# Plans of a grid

Which shapes a grid accepts, and the plan of a shape as a whole: where each cell stands in it,
how it divides the box of the grid, and that words of 64 bits hold everything that is computed
on the way.  A window that ends before it starts has no span, so a least span above zero rejects
every shape over it.

**Results.**
* `Grid.check_eq_ok_iff`: the shapes that are accepted.
* `Grid.getElem?_plan`: the cells stand row by row.
* `Grid.countP_holds_plan`: each point of the box is in exactly one cell.
* `Grid.minimumSpan_le_span`: no cell is narrower than the least span.
* `Grid.plan_divides`: what is accepted, and how an accepted shape divides the box.
-/

namespace TimelineStore

/-- In lists of one length, set one after another, each member stands where its list and its
place in it say. -/
theorem getElem?_flatMap_range
    {α : Type} {f : Nat → List α} {length count j k : Nat}
    (hlength : ∀ i, (f i).length = length)
    (hj : j < count)
    (hk : k < length) :
    ((List.range count).flatMap f)[j * length + k]? = (f j)[k]? := by
  induction count with
  | zero => omega
  | succ count ih =>
      have hbefore : ((List.range count).flatMap f).length = count * length := by
        simp [List.length_flatMap, hlength, List.map_const']
      rw [List.range_succ, List.flatMap_append, List.flatMap_singleton]
      by_cases hlast : j = count
      · rw [hlast, List.getElem?_append_right (by omega), hbefore, Nat.add_sub_cancel_left]
      · have hplace : (j + 1) * length ≤ count * length :=
          Nat.mul_le_mul_right _ (by omega)
        rw [Nat.add_one_mul] at hplace
        rw [List.getElem?_append_left (by omega)]
        exact ih (by omega)

/-- The point at a time and a track lies in the cell. -/
def Cell.holds (time : Timestamp) (index : Nat) (cell : Cell) : Bool :=
  cell.window.contains time && cell.covers index

namespace Grid

variable {grid : Grid} {shape : Shape}

theorem check_eq_ok_iff :
    grid.check shape = .ok () ↔
      0 < shape.columns ∧ 0 < shape.rows ∧ shape.rows ≤ grid.trackCount ∧
        grid.minimumSpan * shape.columns ≤ grid.window.span := by
  unfold check
  split
  · simp only [reduceCtorEq, false_iff]
    omega
  · split
    · simp only [reduceCtorEq, false_iff]
      omega
    · split
      · simp only [reduceCtorEq, false_iff]
        omega
      · simp only [true_iff]
        omega

theorem plan_of_rejected
    {rejection : Rejection}
    (hcheck : grid.check shape = .error rejection) :
    grid.plan shape = [] := by
  simp [plan, accepts, hcheck, Except.toBool]

section Places

variable {column row : Nat}

theorem cell_eq_place
    (hcheck : grid.check shape = .ok ())
    (hcolumn : column < shape.columns)
    (hrow : row < shape.rows) :
    grid.cell shape column row = .ok (grid.place shape column row) := by
  simp [cell, hcheck, hcolumn, hrow, bind, Except.bind, pure, Except.pure]

theorem getElem?_plan
    (hcheck : grid.check shape = .ok ())
    (hcolumn : column < shape.columns)
    (hrow : row < shape.rows) :
    (grid.plan shape)[row * shape.columns + column]? = some (grid.place shape column row) := by
  have hlength : ∀ row, (grid.rowCells shape row).length = shape.columns := by
    intro row
    simp [rowCells]
  rw [plan_eq hcheck, getElem?_flatMap_range hlength hrow hcolumn]
  simp [rowCells, hcolumn]

/-- **Each point of the box is in exactly one cell**: of the cells that cover its track, in the
one whose window holds its time. -/
theorem countP_holds_plan
    {time : Timestamp} {index : Nat}
    (hcheck : grid.check shape = .ok ())
    (hfits : grid.Fits shape)
    (htime : grid.window.contains time = true)
    (hindex : index < grid.trackCount) :
    (grid.plan shape).countP (Cell.holds time index) = 1 := by
  have hcount := (tiles_columnWindows hfits).countP_contains htime
  rw [← filter_covers_plan hfits hcheck hindex, List.countP_map, List.countP_filter] at hcount
  exact hcount

/-- Bounds of columns round down, but between them there is always room for the least span. -/
theorem minimumSpan_le_span
    (hcheck : grid.check shape = .ok ())
    (hfits : grid.Fits shape)
    (hcolumn : column < shape.columns) :
    grid.minimumSpan ≤ (grid.place shape column row).window.span := by
  have hroom : grid.minimumSpan * shape.columns ≤ grid.window.span :=
    (check_eq_ok_iff.1 hcheck).2.2.2
  have hwide := share_add_le_share hfits.columns_pos hroom column
  have hstart := toNat_timeBound hfits (Nat.le_of_lt hcolumn)
  have hstop : (grid.timeBound shape (column + 1)).toNat =
      grid.window.start.toNat + grid.window.span * (column + 1) / shape.columns :=
    toNat_timeBound hfits hcolumn
  have hspan : (grid.place shape column row).window.span =
      (grid.timeBound shape (column + 1)).toNat - (grid.timeBound shape column).toNat := rfl
  omega

end Places

section Bounds

variable {column : Nat}

/-- No bound of a column is past the end of the window. -/
theorem start_add_share_le
    (hfits : grid.Fits shape)
    (hcolumn : column ≤ shape.columns) :
    grid.window.start.toNat + grid.window.span * column / shape.columns ≤
      grid.window.stop.toNat := by
  have hshare : grid.window.span * column / shape.columns ≤ grid.window.span :=
    share_le_size hcolumn
  have hordered : grid.window.start.toNat < grid.window.stop.toNat :=
    UInt64.lt_iff_toNat_lt.1 hfits.start_lt_stop
  have hspan : grid.window.span = grid.window.stop.toNat - grid.window.start.toNat := rfl
  omega

theorem start_le_timeBound
    (hfits : grid.Fits shape)
    (hcolumn : column ≤ shape.columns) :
    grid.window.start ≤ grid.timeBound shape column := by
  rw [UInt64.le_iff_toNat_le, toNat_timeBound hfits hcolumn]
  exact Nat.le_add_right _ _

theorem timeBound_le_stop
    (hfits : grid.Fits shape)
    (hcolumn : column ≤ shape.columns) :
    grid.timeBound shape column ≤ grid.window.stop := by
  rw [UInt64.le_iff_toNat_le, toNat_timeBound hfits hcolumn]
  exact start_add_share_le hfits hcolumn

end Bounds

/-- Cells that stand row by row and divide the box of the grid: each point of the box is in one
of them, none reaches out of it, and none is too narrow or without a track. -/
structure DividedBy (grid : Grid) (shape : Shape) (cells : List Cell) : Prop where
  count : cells.length = shape.columns * shape.rows
  rowMajor : ∀ row < shape.rows, ∀ column < shape.columns,
    ∃ cell, cells[row * shape.columns + column]? = some cell ∧
      cell.column = column ∧ cell.row = row ∧ grid.cell shape column row = .ok cell
  once : ∀ time index, grid.window.contains time = true → index < grid.trackCount →
    cells.countP (Cell.holds time index) = 1
  inside : ∀ cell ∈ cells, grid.window.start ≤ cell.window.start ∧
    cell.window.stop ≤ grid.window.stop ∧ cell.endTrack ≤ grid.trackCount
  wide : ∀ cell ∈ cells, grid.minimumSpan ≤ cell.window.span
  tracked : ∀ cell ∈ cells, cell.firstTrack < cell.endTrack
  sameColumn : ∀ a ∈ cells, ∀ b ∈ cells, a.column = b.column → a.window = b.window
  sameRow : ∀ a ∈ cells, ∀ b ∈ cells, a.row = b.row →
    a.firstTrack = b.firstTrack ∧ a.endTrack = b.endTrack

/-- Each bound is what it is over the integers: the share of the span is a word of 64 bits, so is
its sum with the start of the window, and the share of the tracks is no more than all of them. -/
structure ComputedExactly (grid : Grid) (shape : Shape) : Prop where
  time : ∀ column ≤ shape.columns,
    grid.window.span * column / shape.columns < 2 ^ 64 ∧
      grid.window.start.toNat + grid.window.span * column / shape.columns < 2 ^ 64 ∧
      (grid.timeBound shape column).toNat =
        grid.window.start.toNat + grid.window.span * column / shape.columns
  track : ∀ row ≤ shape.rows,
    grid.trackCount * row / shape.rows ≤ grid.trackCount ∧
      grid.trackBound shape row = grid.trackCount * row / shape.rows

theorem dividedBy_plan
    (hfits : grid.Fits shape)
    (hcheck : grid.check shape = .ok ()) :
    grid.DividedBy shape (grid.plan shape) where
  count := length_plan hcheck
  rowMajor row hrow column hcolumn :=
    ⟨_, getElem?_plan hcheck hcolumn hrow, rfl, rfl, cell_eq_place hcheck hcolumn hrow⟩
  once time index htime hindex := countP_holds_plan hcheck hfits htime hindex
  inside cell hcell := by
    obtain ⟨row, hrow, column, hcolumn, rfl⟩ := (mem_plan_iff hcheck).1 hcell
    exact ⟨start_le_timeBound hfits (Nat.le_of_lt hcolumn), timeBound_le_stop hfits hcolumn,
      trackBound_le hfits.rows_pos hrow⟩
  wide cell hcell := by
    obtain ⟨row, hrow, column, hcolumn, rfl⟩ := (mem_plan_iff hcheck).1 hcell
    exact minimumSpan_le_span hcheck hfits hcolumn
  tracked cell hcell := by
    obtain ⟨row, hrow, column, hcolumn, rfl⟩ := (mem_plan_iff hcheck).1 hcell
    exact trackBound_lt_succ hfits.rows_pos hfits.rows_le hrow
  sameColumn a ha b hb hsame := by
    obtain ⟨_, -, column, -, rfl⟩ := (mem_plan_iff hcheck).1 ha
    obtain ⟨_, -, other, -, rfl⟩ := (mem_plan_iff hcheck).1 hb
    obtain rfl : column = other := hsame
    rfl
  sameRow a ha b hb hsame := by
    obtain ⟨row, -, _, -, rfl⟩ := (mem_plan_iff hcheck).1 ha
    obtain ⟨other, -, _, -, rfl⟩ := (mem_plan_iff hcheck).1 hb
    obtain rfl : row = other := hsame
    exact ⟨rfl, rfl⟩

theorem computedExactly
    (hfits : grid.Fits shape) :
    grid.ComputedExactly shape where
  time column hcolumn := by
    have hbound := start_add_share_le hfits hcolumn
    have hsize := grid.window.stop.toNat_lt
    exact ⟨by omega, by omega, toNat_timeBound hfits hcolumn⟩
  track _ hrow := ⟨share_le_size hrow, trackBound_eq hfits.rows_pos hrow⟩

/-- **An accepted grid divides its box, and a rejected one plans no cell.**  A shape is accepted
if it has a column, a row, no more rows than there are tracks and room for the least span in each
column; then the plan has a cell for each place, row by row, each point of the box is in exactly
one of them, and the bounds are computed in words without loss. -/
theorem plan_divides
    (hminimum : 1 ≤ grid.minimumSpan) :
    (grid.check shape = .ok () ↔
      0 < shape.columns ∧ 0 < shape.rows ∧ shape.rows ≤ grid.trackCount ∧
        grid.minimumSpan * shape.columns ≤ grid.window.span) ∧
    (∀ rejection, grid.check shape = .error rejection → grid.plan shape = []) ∧
    (grid.check shape = .ok () →
      grid.DividedBy shape (grid.plan shape) ∧ grid.ComputedExactly shape) := by
  refine ⟨check_eq_ok_iff, fun _ hcheck => plan_of_rejected hcheck, fun hcheck => ?_⟩
  have hfits := fits_of_check hminimum hcheck
  exact ⟨dividedBy_plan hfits hcheck, computedExactly hfits⟩

/-- The last fifteen units of time, divided in three columns, and five tracks in two rows. -/
theorem plan_divides_latest :
    1 ≤ (4 : Nat) ∧
      Grid.check ⟨⟨Timestamp.latest - 15, Timestamp.latest⟩, 5, 4⟩ ⟨3, 2⟩ = .ok () ∧
      Grid.check ⟨⟨Timestamp.latest - 15, Timestamp.latest⟩, 5, 4⟩ ⟨4, 2⟩ ≠ .ok () ∧
      (Grid.plan ⟨⟨Timestamp.latest - 15, Timestamp.latest⟩, 5, 4⟩ ⟨3, 2⟩).length = 6 ∧
      (Grid.plan ⟨⟨Timestamp.latest - 15, Timestamp.latest⟩, 5, 4⟩ ⟨3, 2⟩).countP
        (Cell.holds (Timestamp.latest - 1) 2) = 1 ∧
      (Grid.timeBound ⟨⟨Timestamp.latest - 15, Timestamp.latest⟩, 5, 4⟩ ⟨3, 2⟩ 3).toNat =
        2 ^ 64 - 1 := by
  have hthree := @plan_divides ⟨⟨Timestamp.latest - 15, Timestamp.latest⟩, 5, 4⟩ ⟨3, 2⟩
    (by decide)
  have hfour := @plan_divides ⟨⟨Timestamp.latest - 15, Timestamp.latest⟩, 5, 4⟩ ⟨4, 2⟩
    (by decide)
  have hcheck := hthree.1.2 (by decide)
  obtain ⟨hdivided, hexact⟩ := hthree.2.2 hcheck
  refine ⟨by decide, hcheck, fun haccepted => ?_, hdivided.count,
    hdivided.once _ _ (by decide) (by decide), ?_⟩
  · exact absurd (hfour.1.1 haccepted) (by decide)
  · exact (hexact.time 3 (by decide)).2.2

end Grid

end TimelineStore
