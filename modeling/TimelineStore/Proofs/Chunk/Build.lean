import TimelineStore.Proofs.Trace.Regular

/-!
# Chunks by what they are made of

A chunk is made of raw rows once for all.  What it holds can be said without the table of texts,
the sorting and the running list of open ends by which it is made: the rows of its layout by
start, and for each event the number of earlier events that have not ended where it starts.

**Results.**
* `Chunk.build_holds`: what a chunk holds that is made of some rows, and the levels of its events.
-/

namespace TimelineStore

/-- The end of a row as a number: the start and the duration, one below zero counting as none,
held at the last time.  A sample ends where it starts. -/
def Row.reach : Row → Nat
  | .event row => min (row.time.toNat + (max row.duration.toInt 0).toNat) (2 ^ 64 - 1)
  | .sample time _ => time.toNat

theorem Row.toNat_stop
    (row : Row) :
    row.stop.toNat = row.reach := by
  cases row with
  | sample time value => rfl
  | event row =>
      have hnonnegative : (max row.duration.toInt 0).toNat = row.duration.toInt.toNat := by
        omega
      rw [stop, reach, EventRow.stop, Timestamp.after, Timestamp.toNat_later, hnonnegative]

/-- The number of rows that have not ended at a time. -/
def Row.unended (rows : List Row) (time : Timestamp) : Nat :=
  rows.countP fun row => time.toNat < row.reach

theorem Row.unended_eq
    (rows : List Row) (time : Timestamp) :
    unended rows time = rows.countP fun row => decide (time < row.stop) := by
  refine List.countP_congr fun row _ => ?_
  rw [← row.toNat_stop, decide_eq_true_eq, decide_eq_true_eq, UInt64.lt_iff_toNat_lt]

namespace Chunk

/-- Rows of one layout have it wherever they come to stand. -/
theorem fits_of_sorts
    {counter : Bool} {rows sorted : List Row} {index : Nat} {row : Row}
    (hsorts : SortsStably Row.time (rows.filter (Row.fits counter)) sorted)
    (hrow : sorted[index]? = some row) :
    row.fits counter = true :=
  (List.mem_filter.1 (hsorts.perm.mem_iff.1 (List.mem_of_getElem? hrow))).2

/-- The chunk holds some rows by start, those of one start in the order in which they were given,
each of them as it was.  The level of an event is the number of events before it that have not
ended where it starts, held at 255. -/
structure Arranges
    (chunk : Chunk) (strings : StringTable) (rows sorted : List Row) : Prop where
  sorts : SortsStably Row.time rows sorted
  rows_eq : chunk.rows strings = sorted.map some
  level : ∀ (index : Nat) (event : EventRow), sorted[index]? = some (.event event) →
    ∃ entry : Entry,
      chunk.records.event? index = some entry ∧ entry.row? strings = some event ∧
        entry.level = min 255 (Row.unended (sorted.take index) event.time)

variable
  (track : TrackId) (window : Window) (counter : Bool)
  (rows : List Row) (table : StringTable)

/-- **A chunk that is made of some rows** is over the window that was asked for and holds exactly
the rows of its layout, arranged by start and with their levels. -/
theorem build_holds :
    (build track window counter rows table).1.track = track ∧
      (build track window counter rows table).1.window = window ∧
      (build track window counter rows table).1.HasLayout counter ∧
      ∃ sorted : List Row,
        (build track window counter rows table).1.Arranges
          (build track window counter rows table).2 (rows.filter (Row.fits counter)) sorted := by
  have hsorts := sortsStably_mergeSort Row.time (rows.filter (Row.fits counter))
  refine ⟨track_build .., window_build .., hasLayout_build .., _, hsorts, rows_build .., ?_⟩
  intro index event hevent
  -- a chunk of samples has no event at all
  obtain rfl : counter = false := by
    have hfits := fits_of_sorts hsorts hevent
    simpa [Row.fits, Row.isSample] using hfits
  obtain ⟨entry, hentry, hback, hlevel⟩ := level_build track window table hevent
  refine ⟨entry, hentry, hback, ?_⟩
  rw [hlevel, Row.unended_eq]
  rfl

/-- The second event goes on beyond the first, and it alone is open where the third starts. -/
example :
    let rows : List Row :=
      [.event ⟨1, .launch, 0, 100, "outer", ""⟩, .event ⟨2, .launch, 10, 190, "long", ""⟩,
        .event ⟨3, .launch, 150, 10, "after", ""⟩]
    (List.range 3).filterMap (fun index =>
      ((build ⟨0⟩ ⟨0, 1000⟩ false rows .empty).1.records.event? index).map (·.level)) =
        [0, 1, 1] := by
  cbv

end Chunk

end TimelineStore
