import TimelineStore.Proofs.Chunk.Contents
import TimelineStore.Proofs.Sorting
import TimelineStore.Proofs.Window

/-!
# Levels of events

The level of an event counts the earlier events of its chunk that are still open where
it starts.  An earlier event that is still open at a time of a window shares time with
the window, so the chunk is due to hold it: the count is the same over the chunk and
over the whole track.

**Results.**
* `Chunk.nest_eq_some`: the level that nesting gives to an entry.
* `Row.countP_open_due`: the events of a track that are open where a due event starts are due.
* `Chunk.level_build`: the level of a stored event, counted over all rows of its track.
-/

namespace TimelineStore

namespace Row

/-- The number of events of a track that are earlier than a row and still open where it
starts. -/
def depth (rows : List Row) (placed : Row × Nat) : Nat :=
  rows.zipIdx.countP fun other =>
    decide (Earlier other placed) && decide (placed.1.time < other.1.stop) &&
      other.1.fits false

/-- An earlier event that is still open where a row starts belongs to every window that
holds the start of the row. -/
theorem belongsTo_of_open
    {window : Window} {other placed : Row × Nat}
    (hcontains : window.contains placed.1.time = true)
    (hearlier : Earlier other placed)
    (hopen : placed.1.time < other.1.stop)
    (hfits : other.1.fits false = true) :
    other.1.belongsTo window = true := by
  obtain ⟨hfrom, hto⟩ := Window.contains_iff.1 hcontains
  obtain ⟨row, position⟩ := other
  cases row with
  | sample time value => simp [fits, isSample] at hfits
  | event row =>
      have hstart : row.time < window.stop :=
        UInt64.lt_of_le_of_lt hearlier.time_le hto
      have hstop : window.start < row.stop :=
        UInt64.lt_of_le_of_lt hfrom hopen
      exact Window.meets_iff.2 ⟨hstart, Or.inl hstop⟩

/-- **All events that are open where a due row starts are due**, so counting them over the
chunk is counting them over the track. -/
theorem countP_open_due
    {window : Window} {rows : List Row} {k : Nat} {placed : Row × Nat}
    (hplaced : (due false window rows)[k]? = some placed)
    (hcontains : window.contains placed.1.time = true) :
    (((due false window rows).map Prod.fst).take k).countP
        (fun row => decide (placed.1.time < row.stop)) =
      depth rows placed := by
  have htake : (((due false window rows).map Prod.fst).take k).countP
        (fun row => decide (placed.1.time < row.stop)) =
      ((due false window rows).take k).countP
        fun other => decide (placed.1.time < other.1.stop) := by
    rw [← List.map_take, List.countP_map]
    rfl
  rw [htake, countP_take _ (due_pairwise false window rows) hplaced, countP_due]
  refine List.countP_congr fun other _ => ?_
  simp only [Bool.and_eq_true, decide_eq_true_eq, isDue]
  constructor
  · rintro ⟨⟨hearlier, hopen⟩, hfits, -⟩
    exact ⟨⟨hearlier, hopen⟩, hfits⟩
  · rintro ⟨⟨hearlier, hopen⟩, hfits⟩
    exact ⟨⟨hearlier, hopen⟩, hfits, belongsTo_of_open hcontains hearlier hopen hfits⟩

end Row

namespace Chunk

/-- What is open at a time was open at every time between its start and then. -/
theorem countP_stillOpen
    {openEnds : List Timestamp} {earlier later : Timestamp}
    (hle : earlier ≤ later) :
    (openEnds.filter fun stop => earlier < stop).countP (fun stop => decide (later < stop)) =
      openEnds.countP fun stop => decide (later < stop) := by
  rw [List.countP_filter]
  refine List.countP_congr fun stop _ => ?_
  simp only [Bool.and_eq_true, decide_eq_true_eq, and_iff_left_iff_imp]
  exact fun hopen => UInt64.lt_of_le_of_lt hle hopen

/-- Nesting gives an entry the number of ends that are open where it starts: of those that
were open before all entries, and of those of the entries before it. -/
theorem nest_eq_some
    {entries : List Entry} {k : Nat} {entry : Entry}
    (openEnds : List Timestamp)
    (hsorted : entries.Pairwise fun a b => a.time ≤ b.time)
    (hentry : entries[k]? = some entry) :
    (nest openEnds entries)[k]? =
      some { entry with
        level := min deepest
          ((openEnds.countP fun stop => decide (entry.time < stop)) +
            ((entries.take k).map Entry.stop).countP fun stop => decide (entry.time < stop)) } := by
  induction entries generalizing openEnds k with
  | nil => simp at hentry
  | cons head entries ih =>
      obtain ⟨hfirst, hsorted⟩ := List.pairwise_cons.1 hsorted
      cases k with
      | zero =>
          obtain rfl : head = entry := by simpa using hentry
          simp [nest, List.countP_eq_length_filter]
      | succ k =>
          rw [List.getElem?_cons_succ] at hentry
          have hle : head.time ≤ entry.time := hfirst entry (List.mem_of_getElem? hentry)
          rw [nest, List.getElem?_cons_succ, ih _ hsorted hentry, List.countP_cons,
            countP_stillOpen hle, List.take_succ_cons, List.map_cons, List.countP_cons]
          simp only [Nat.add_assoc, Nat.add_comm, Nat.add_left_comm]

section Build

/-- Entries end where the rows end that they stand for. -/
theorem map_stop_of_map_row?
    {strings : StringTable} {entries : List Entry} {rows : List EventRow}
    (hrows : entries.map (Entry.row? strings) = rows.map some) :
    entries.map Entry.stop = rows.map EventRow.stop := by
  induction entries generalizing rows with
  | nil =>
      cases rows with
      | nil => rfl
      | cons row rows => simp at hrows
  | cons entry entries ih =>
      cases rows with
      | nil => simp at hrows
      | cons row rows =>
          rw [List.map_cons, List.map_cons, List.cons.injEq] at hrows
          obtain ⟨hrow, hrows⟩ := hrows
          obtain ⟨-, -, -, -, htime, hduration⟩ := Entry.row?_eq_some_iff.1 hrow
          rw [List.map_cons, List.map_cons, ih hrows, EventRow.stop, Entry.stop, htime, hduration]

variable
  (track : TrackId) (window : Window) {rows : List Row} (table : StringTable)

/-- **The level of a stored event** counts the rows before it that are still open where it
starts. -/
theorem level_build
    {k : Nat} {event : EventRow}
    (hevent : (Row.sortByTime (rows.filter (Row.fits false)))[k]? = some (.event event)) :
    ∃ entry : Entry,
      (build track window false rows table).1.records.event? k = some entry ∧
      entry.row? (build track window false rows table).2 = some event ∧
      entry.level = min deepest
        (((Row.sortByTime (rows.filter (Row.fits false))).take k).countP
          fun row => decide (event.time < row.stop)) := by
  have hsame : Row.sortByTime (rows.filter (Row.fits false)) =
      ((eventRows rows).mergeSort fun a b => a.time ≤ b.time).map Row.event := by
    rw [filter_fits_events, Row.sortByTime,
      List.map_mergeSort (s := fun a b => decide (a.time ≤ b.time))]
    intro a _ b _
    rfl
  have hstored := map_row?_mergeSort (map_row?_storeAll (eventRows rows) table)
  have hstops := map_stop_of_map_row? hstored
  rw [hsame, List.getElem?_map, Option.map_eq_some_iff] at hevent
  obtain ⟨row, hrow, hvalue⟩ := hevent
  cases hvalue
  -- the entry before it was given its level
  have hread := congrArg (·[k]?) hstored
  simp only [List.getElem?_map, hrow, Option.map_some, Option.map_eq_some_iff] at hread
  obtain ⟨entry, hentry, hback⟩ := hread
  have htime : event.time = entry.time := (Entry.row?_eq_some_iff.1 hback).2.2.2.2.1
  have hnested := nest_eq_some [] (sortsStably_mergeSort Entry.time _).ordered hentry
  rw [← List.getElem?_toArray] at hnested
  rw [records_build_events]
  refine ⟨_, hnested, hback, ?_⟩
  simp only [List.countP_nil, Nat.zero_add]
  rw [List.map_take, hstops, ← List.map_take, List.countP_map, ← htime, hsame, ← List.map_take,
    List.countP_map]
  rfl

end Build

end Chunk

end TimelineStore
