import TimelineStore.Request
import TimelineStore.Trace

/-!
# Grids

A grid divides the box of a window and a list of tracks into columns of time and
rows of tracks.  The bounds between columns and between rows are rounded down to
whole units; the last column ends with the window and the last row with the
tracks, so the cells tile the box.  A grid with more rows than tracks, or with
columns narrower than the least span, is rejected as a whole.
-/

namespace TimelineStore

/-- The number of columns and rows. -/
structure Shape where
  columns : Nat
  rows : Nat
deriving DecidableEq

/-- Why there is no cell. -/
inductive Rejection where
  | emptyGrid
  | tooFewTracks (tracks rows : Nat)
  | spanTooNarrow (span columns minimumSpan : Nat)
  | outOfGrid (column row : Nat)
deriving DecidableEq

/-- The name of the cause. -/
def Rejection.cause : Rejection → String
  | .emptyGrid => "EmptyGrid"
  | .tooFewTracks _ _ => "TooFewTracks"
  | .spanTooNarrow _ _ _ => "SpanTooNarrow"
  | .outOfGrid _ _ => "OutOfGrid"

/-- The text of the rejection. -/
def Rejection.message : Rejection → String
  | .emptyGrid => "grid has a zero dimension"
  | .tooFewTracks tracks rows => s!"{tracks} tracks cannot fill {rows} rows"
  | .spanTooNarrow span columns minimumSpan =>
    s!"span {span} over {columns} columns is below {minimumSpan}"
  | .outOfGrid column row => s!"cell ({column}, {row}) is outside the grid"

/-- A cell of an accepted grid: its place, its window and its range of tracks. -/
structure Cell where
  column : Nat
  row : Nat
  window : Window
  firstTrack : Nat
  endTrack : Nat
deriving DecidableEq

namespace Cell

/-- The tracks of the cell, in order. -/
def tracks (cell : Cell) : List TrackId :=
  (List.range' cell.firstTrack (cell.endTrack - cell.firstTrack)).map TrackId.mk

/-- The request that reads the cell. -/
def request (cell : Cell) : Except Request.Flaw Request :=
  Request.make cell.window cell.tracks

end Cell

/-- The box that is divided, and the least span of a column. -/
structure Grid where
  window : Window
  trackCount : Nat
  minimumSpan : Nat
deriving DecidableEq

namespace Grid

/-- The least span of a column that is not given another one. -/
def standardSpan : Nat := 1000000

/-- The box of a loaded trace. -/
def ofTrace (trace : Trace) (minimumSpan : Nat) : Except Failure Grid :=
  match trace.window? with
  | none => .error trace.notLoaded
  | some window => .ok ⟨window, trace.trackCount, minimumSpan⟩

/-- The shape divides the box into cells that can be read. -/
def check (grid : Grid) (shape : Shape) : Except Rejection Unit :=
  if shape.columns = 0 ∨ shape.rows = 0 then
    .error .emptyGrid
  else if grid.trackCount < shape.rows then
    .error (.tooFewTracks grid.trackCount shape.rows)
  else if grid.window.span < grid.minimumSpan * shape.columns then
    .error (.spanTooNarrow grid.window.span shape.columns grid.minimumSpan)
  else
    .ok ()

/-- The shape is accepted. -/
def accepts (grid : Grid) (shape : Shape) : Bool :=
  (grid.check shape).toBool

/-- Where column `column` begins, and the one before it ends. -/
def timeBound (grid : Grid) (shape : Shape) (column : Nat) : Timestamp :=
  if shape.columns ≤ column then
    grid.window.stop
  else
    grid.window.start + UInt64.ofNat (grid.window.span * column / shape.columns)

/-- Where row `row` begins, and the one before it ends. -/
def trackBound (grid : Grid) (shape : Shape) (row : Nat) : Nat :=
  if shape.rows ≤ row then grid.trackCount
  else grid.trackCount * row / shape.rows

/-- The cell of an accepted shape at a place within it. -/
def place (grid : Grid) (shape : Shape) (column row : Nat) : Cell where
  column := column
  row := row
  window := ⟨grid.timeBound shape column, grid.timeBound shape (column + 1)⟩
  firstTrack := grid.trackBound shape row
  endTrack := grid.trackBound shape (row + 1)

/-- The cell at a place. -/
def cell (grid : Grid) (shape : Shape) (column row : Nat) : Except Rejection Cell := do
  grid.check shape
  if column < shape.columns ∧ row < shape.rows then
    return grid.place shape column row
  else
    throw (.outOfGrid column row)

/-- The cells of a shape, row by row; none if the shape is rejected. -/
def plan (grid : Grid) (shape : Shape) : List Cell :=
  if grid.accepts shape then
    (List.range shape.rows).flatMap fun row =>
      (List.range shape.columns).map fun column => grid.place shape column row
  else
    []

end Grid

end TimelineStore
