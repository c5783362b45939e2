import TimelineStore.Proofs.Rocpd.Entries
import TimelineStore.Proofs.Sql.Cell
import TimelineStore.Proofs.Window

/-!
# The time that tables cover

The window of the metadata runs from the least start to one past the greatest end; a
sample counts as ending where it starts.  A row without an end has no say in where the
window ends, and one that ends before it starts may end before the window does.

**Results.**
* `Tables.Sound.bounds_cases`: the window in terms of the starts and ends of all rows.
* `meets_bounds`: which rows start within it.
-/

namespace TimelineStore

open Sql

namespace Rocpd

/-- The starts of all rows. -/
def Tables.starts (tables : Tables) : List Cell :=
  [tables.calls.map CallRow.start, tables.dispatches.map DispatchRow.start,
    (tables.samples.getD []).map SampleRow.start].flatten

/-- The ends of all rows; a sample ends where it starts. -/
def Tables.ends (tables : Tables) : List Cell :=
  [tables.calls.map CallRow.stop, tables.dispatches.map DispatchRow.stop,
    (tables.samples.getD []).map SampleRow.start].flatten

/-- The window from a first start to one past a last end. -/
def boundsOf (first last : Int) : Window :=
  ⟨timeOf (some first), Timestamp.later (timeOf (some last)) 1⟩

section Cells

variable {tables : Tables} {cell : Cell}

theorem Tables.Sound.isTime_of_mem_starts
    (hsound : tables.Sound)
    (hcell : cell ∈ tables.starts) :
    cell.IsTime := by
  simp only [Tables.starts, List.mem_flatten, List.mem_cons, List.not_mem_nil, or_false] at hcell
  obtain ⟨part, rfl | rfl | rfl, hpart⟩ := hcell
  · obtain ⟨row, hrow, rfl⟩ := List.mem_map.1 hpart
    exact (hsound.calls row hrow).start
  · obtain ⟨row, hrow, rfl⟩ := List.mem_map.1 hpart
    exact (hsound.dispatches row hrow).start
  · obtain ⟨row, hrow, rfl⟩ := List.mem_map.1 hpart
    exact (hsound.samples row hrow).start

theorem Tables.Sound.isWord_of_mem_ends
    (hsound : tables.Sound)
    (hcell : cell ∈ tables.ends) :
    cell = .null ∨ cell.IsWord := by
  simp only [Tables.ends, List.mem_flatten, List.mem_cons, List.not_mem_nil, or_false] at hcell
  obtain ⟨part, rfl | rfl | rfl, hpart⟩ := hcell
  · obtain ⟨row, hrow, rfl⟩ := List.mem_map.1 hpart
    exact (hsound.calls row hrow).stop
  · obtain ⟨row, hrow, rfl⟩ := List.mem_map.1 hpart
    exact (hsound.dispatches row hrow).stop
  · obtain ⟨row, hrow, rfl⟩ := List.mem_map.1 hpart
    exact Or.inr (hsound.samples row hrow).start.isWord

end Cells

section Bounds

variable {tables : Tables}

theorem countable_of_isWord
    {cell : Cell}
    (hcell : cell = .null ∨ cell.IsWord) :
    cell.Countable := by
  rcases hcell with rfl | hword
  · exact .null
  · cases hword
    exact .integer _

theorem ofRows_boundsStatement (samples : Bool) : (boundsStatement samples).OfRows := by
  cases samples <;> decide

/-- The bounds as extremes over the rows of all tables. -/
theorem Tables.Sound.bounds_eq
    (hsound : tables.Sound) :
    tables.bounds = do
      let first ← (Cell.least tables.starts).readOptionalInteger 0 "MIN(s)"
      let last ← (Cell.greatest tables.ends).readOptionalInteger 1 "MAX(e)"
      return ⟨timeOf first, match last with
        | none => timeOf first
        | some _ => Timestamp.later (timeOf last) 1⟩ := by
  have hstarts : ∀ part ∈ [tables.calls.map CallRow.start,
      tables.dispatches.map DispatchRow.start,
      (tables.samples.getD []).map SampleRow.start], ∀ cell ∈ part, cell.Countable := by
    intro part hpart cell hcell
    have hmem : cell ∈ tables.starts := List.mem_flatten_of_mem hpart hcell
    exact countable_of_isWord (Or.inr (hsound.isTime_of_mem_starts hmem).isWord)
  have hends : ∀ part ∈ [tables.calls.map CallRow.stop,
      tables.dispatches.map DispatchRow.stop,
      (tables.samples.getD []).map SampleRow.start], ∀ cell ∈ part, cell.Countable := by
    intro part hpart cell hcell
    have hmem : cell ∈ tables.ends := List.mem_flatten_of_mem hpart hcell
    exact countable_of_isWord (hsound.isWord_of_mem_ends hmem)
  have hleast := Cell.extreme_map_extreme .lt (by decide) hstarts
  have hgreatest := Cell.extreme_map_extreme .gt (by decide) hends
  unfold Tables.bounds
  rw [hsound.prepare_eq (ofRows_boundsStatement _), Cell.least_eq_extreme tables.starts,
    Cell.greatest_eq_extreme tables.ends, Tables.starts, Tables.ends, ← hleast, ← hgreatest]
  rfl

theorem Tables.Sound.exists_least
    (hsound : tables.Sound)
    (hsome : tables.starts ≠ []) :
    ∃ first, Cell.least tables.starts = .integer first ∧ 0 ≤ first ∧ first < 2 ^ 63 ∧
      ∀ start, .integer start ∈ tables.starts → first ≤ start := by
  have hall : ∀ cell ∈ tables.starts, cell.Countable := fun cell hcell =>
    countable_of_isWord (Or.inr (hsound.isTime_of_mem_starts hcell).isWord)
  rcases Cell.extreme_cases .lt (by decide) hall with
    ⟨-, hnone⟩ | ⟨first, hfirst, hmem, hbound⟩
  · obtain ⟨cell, hcell⟩ := List.exists_mem_of_ne_nil _ hsome
    have htime := hsound.isTime_of_mem_starts hcell
    rw [hnone cell hcell] at htime
    cases htime
  · rcases hsound.isTime_of_mem_starts hmem with ⟨hlow, hhigh⟩
    refine ⟨first, hfirst, hlow, hhigh, fun start hstart => ?_⟩
    have hnot := hbound start hstart
    rw [Ne, compare_lt_iff_lt] at hnot
    omega

/-- **The window runs from the least start to one past the greatest end**; where no row
has an end it is empty. -/
theorem Tables.Sound.bounds_cases
    (hsound : tables.Sound)
    (hsome : tables.starts ≠ []) :
    ∃ first, 0 ≤ first ∧ first < 2 ^ 63 ∧
      (∀ start, .integer start ∈ tables.starts → first ≤ start) ∧
      ((tables.bounds = .ok ⟨timeOf (some first), timeOf (some first)⟩ ∧
          ∀ cell ∈ tables.ends, cell = .null) ∨
        ∃ last, tables.bounds = .ok (boundsOf first last) ∧ last < 2 ^ 63 ∧
          .integer last ∈ tables.ends ∧
          ∀ stop, .integer stop ∈ tables.ends → stop ≤ last) := by
  obtain ⟨first, hleast, hlow, hhigh, hfirst⟩ := hsound.exists_least hsome
  have hall : ∀ cell ∈ tables.ends, cell.Countable := fun cell hcell =>
    countable_of_isWord (hsound.isWord_of_mem_ends hcell)
  refine ⟨first, hlow, hhigh, hfirst, ?_⟩
  rw [hsound.bounds_eq, hleast]
  rcases Cell.extreme_cases .gt (by decide) hall with
    ⟨hgreatest, hnone⟩ | ⟨last, hgreatest, hmem, hbound⟩
  · rw [Cell.greatest_eq_extreme, hgreatest]
    exact Or.inl ⟨rfl, hnone⟩
  · rw [Cell.greatest_eq_extreme, hgreatest]
    refine Or.inr ⟨last, rfl, ?_, hmem, fun stop hstop => ?_⟩
    · rcases hsound.isWord_of_mem_ends hmem with hnull | hword
      · cases hnull
      · cases hword
        assumption
    · have hnot := hbound stop hstop
      rw [Ne, compare_gt_iff_gt] at hnot
      omega

/-- Sound tables cover some time, maybe none at all. -/
theorem Tables.Sound.exists_bounds
    (hsound : tables.Sound) :
    ∃ window, tables.bounds = .ok window := by
  have hread : ∀ cell : Cell, cell.Countable → ∀ index column,
      ∃ value, cell.readOptionalInteger index column = .ok value := by
    intro cell hcell index column
    cases hcell with
    | null => exact ⟨none, rfl⟩
    | integer value => exact ⟨some value, rfl⟩
  obtain ⟨first, hfirst⟩ := hread _ (Cell.countable_extreme .lt (by decide) fun cell hcell =>
    countable_of_isWord (Or.inr (hsound.isTime_of_mem_starts hcell).isWord)) 0 "MIN(s)"
  obtain ⟨last, hlast⟩ := hread _ (Cell.countable_extreme .gt (by decide) fun cell hcell =>
    countable_of_isWord (hsound.isWord_of_mem_ends hcell)) 1 "MAX(e)"
  rw [hsound.bounds_eq, Cell.least_eq_extreme, Cell.greatest_eq_extreme, hfirst, hlast]
  exact ⟨_, rfl⟩

end Bounds

section Window

variable {first last : Int}

theorem toNat_timeOf
    {value : Int}
    (hhigh : value < 2 ^ 63) :
    (timeOf (some value)).toNat = value.toNat := by
  have hsmall : value.toNat < 2 ^ 64 := by
    omega
  rw [timeOf, Option.getD_some, UInt64.toNat_ofNat', Nat.mod_eq_of_lt hsmall]

theorem toNat_stop_boundsOf
    (hlast : last < 2 ^ 63) :
    (boundsOf first last).stop.toNat = last.toNat + 1 := by
  rw [boundsOf, Timestamp.toNat_later, toNat_timeOf hlast]
  omega

theorem isEmpty_boundsOf
    (hfirst : first < 2 ^ 63)
    (hlow : 0 ≤ first)
    (hlast : last < 2 ^ 63) :
    (boundsOf first last).isEmpty = false ↔ first ≤ max last 0 := by
  rw [Window.isEmpty_eq_false_iff, UInt64.lt_iff_toNat_lt, toNat_stop_boundsOf hlast, boundsOf,
    toNat_timeOf hfirst]
  omega

/-- **A row from the least start on meets the window if and only if it starts no later than
the greatest end and before the greatest time.** -/
theorem meets_bounds
    {start : Int}
    (stop : Cell)
    (hlow : 0 ≤ first)
    (hstart : first ≤ start)
    (hhigh : start < 2 ^ 63)
    (hlast : last < 2 ^ 63) :
    meets (boundsOf first last) (.integer start) stop = true ↔
      start ≤ max last 0 ∧ start < 2 ^ 63 - 1 := by
  have hfrom : (Cell.integer start).isAtLeast (timeCell (boundsOf first last).start) = true := by
    rw [timeCell, boundsOf, toNat_timeOf (by omega), greatestTime, Cell.integer_isAtLeast_integer,
      decide_eq_true_iff]
    omega
  rw [meets, hfrom, Bool.or_true, Bool.and_true, timeCell, toNat_stop_boundsOf hlast, greatestTime,
    Cell.integer_isLess_integer, decide_eq_true_iff]
  omega

end Window

end Rocpd

end TimelineStore
