import TimelineStore.Chunk
import TimelineStore.Proofs.Record
import TimelineStore.Proofs.StringTable

/-!
# What a chunk holds

A chunk is read back through the string table of its trace: `Chunk.rows` gives
the raw rows that its stored rows stand for, in their order.  A row whose text has
no place in the table would read as nothing.

**Results.**
* `Chunk.rows_build`: a chunk made from raw rows reads back as exactly the rows of
  its layout, sorted by start, rows of one start in the order in which they were given.
* `Chunk.rows_of_extends`: what reads back through a table reads the same through
  every table that extends it.
* `Chunk.build_of_extends`: the same rows make the same chunk again, with the same positions.
-/

namespace TimelineStore

/-- The raw row that an entry stands for. -/
def Entry.row? (strings : StringTable) (entry : Entry) : Option EventRow := do
  let typeName ← strings.get? entry.typeIndex
  let symbol ← strings.get? entry.symbolIndex
  return ⟨entry.id, entry.operation, entry.time, entry.duration, typeName, symbol⟩

/-- The raw rows that stored rows stand for. -/
def Records.rows (strings : StringTable) : Records → List (Option Row)
  | .events entries => entries.toList.map fun entry => (entry.row? strings).map Row.event
  | .samples entries => entries.toList.map fun sample => some (.sample sample.time sample.value)

/-- The raw rows that the rows of a chunk stand for, in their order. -/
def Chunk.rows (strings : StringTable) (chunk : Chunk) : List (Option Row) :=
  chunk.records.rows strings

section Reading

variable {strings larger : StringTable} {entry : Entry} {row : EventRow}

theorem Entry.row?_eq_some_iff :
    entry.row? strings = some row ↔
      strings.get? entry.typeIndex = some row.typeName ∧
      strings.get? entry.symbolIndex = some row.symbol ∧
      row.id = entry.id ∧ row.operation = entry.operation ∧
      row.time = entry.time ∧ row.duration = entry.duration := by
  unfold Entry.row?
  cases htype : strings.get? entry.typeIndex with
  | none => simp
  | some typeName =>
      cases hsymbol : strings.get? entry.symbolIndex with
      | none => simp
      | some symbol =>
          cases row
          simp only [Option.bind_eq_bind, Option.bind_some, Option.pure_def, Option.some.injEq,
            EventRow.mk.injEq]
          constructor
          · rintro ⟨rfl, rfl, rfl, rfl, rfl, rfl⟩
            exact ⟨rfl, rfl, rfl, rfl, rfl, rfl⟩
          · rintro ⟨rfl, rfl, rfl, rfl, rfl, rfl⟩
            exact ⟨rfl, rfl, rfl, rfl, rfl, rfl⟩

/-- A text that has a place keeps it, so what reads back goes on to do so. -/
theorem Entry.row?_of_extends
    (hextends : strings.Extends larger)
    (hrow : entry.row? strings = some row) :
    entry.row? larger = some row := by
  obtain ⟨htype, hsymbol, hrest⟩ := Entry.row?_eq_some_iff.1 hrow
  exact Entry.row?_eq_some_iff.2 ⟨hextends _ _ htype, hextends _ _ hsymbol, hrest⟩

theorem Chunk.rows_of_extends
    {chunk : Chunk} {rows : List Row}
    (hextends : strings.Extends larger)
    (hrows : chunk.rows strings = rows.map some) :
    chunk.rows larger = rows.map some := by
  rw [← hrows]
  unfold Chunk.rows Records.rows at hrows ⊢
  cases hrecords : chunk.records with
  | samples entries => rfl
  | events entries =>
      rw [hrecords] at hrows
      refine List.map_congr_left fun entry hmem => ?_
      have hread : (entry.row? strings).map Row.event ∈ rows.map some := by
        rw [← hrows]
        exact List.mem_map_of_mem hmem
      obtain ⟨row, -, hrow⟩ := List.mem_map.1 hread
      obtain ⟨event, hevent, -⟩ := Option.map_eq_some_iff.1 hrow.symm
      rw [hevent, Entry.row?_of_extends hextends hevent]

end Reading

namespace Chunk

section Storing

/-- A stored event reads back as the row it was stored from. -/
theorem row?_store
    (table : StringTable) (row : EventRow) :
    table.Extends (store table row).2 ∧
      (store table row).1.row? (store table row).2 = some row := by
  have htype := StringTable.extends_intern table row.typeName
  have hsymbol :=
    StringTable.extends_intern (table.intern row.typeName).2 row.symbol
  refine ⟨htype.trans hsymbol, Entry.row?_eq_some_iff.2 ?_⟩
  exact ⟨hsymbol _ _ (StringTable.get?_intern table row.typeName),
    StringTable.get?_intern (table.intern row.typeName).2 row.symbol, rfl, rfl, rfl, rfl⟩

theorem extends_storeAll :
    ∀ (rows : List EventRow) (table : StringTable),
      table.Extends (storeAll table rows).2
  | [], table => StringTable.Extends.refl table
  | row :: rows, table =>
      (row?_store table row).1.trans (extends_storeAll rows (store table row).2)

/-- Stored events read back as the rows they were stored from, one for one. -/
theorem map_row?_storeAll :
    ∀ (rows : List EventRow) (table : StringTable),
      (storeAll table rows).1.map (Entry.row? (storeAll table rows).2) = rows.map some
  | [], _ => rfl
  | row :: rows, table => by
      have hrest := map_row?_storeAll rows (store table row).2
      have hhead := Entry.row?_of_extends
        (extends_storeAll rows (store table row).2) (row?_store table row).2
      simp only [storeAll, List.map_cons, hrest]
      exact congrArg (· :: rows.map some) hhead

/-- Sorting entries by start sorts the rows they stand for. -/
theorem map_row?_mergeSort
    {strings : StringTable} {entries : List Entry} {rows : List EventRow}
    (hrows : entries.map (Entry.row? strings) = rows.map some) :
    (entries.mergeSort fun a b => a.time ≤ b.time).map (Entry.row? strings) =
      (rows.mergeSort fun a b => a.time ≤ b.time).map some := by
  let start (row : Option EventRow) : Timestamp := (row.map EventRow.time).getD 0
  let before (a b : Option EventRow) : Bool := start a ≤ start b
  have hstart : ∀ entry ∈ entries, start (entry.row? strings) = entry.time := by
    intro entry hmem
    have hread : entry.row? strings ∈ rows.map some := by
      rw [← hrows]
      exact List.mem_map_of_mem hmem
    obtain ⟨row, -, hrow⟩ := List.mem_map.1 hread
    have htime := (Entry.row?_eq_some_iff.1 hrow.symm).2.2.2.2.1
    rw [← hrow]
    exact htime
  rw [List.map_mergeSort (s := before), hrows, ← List.map_mergeSort]
  · intro a _ b _
    rfl
  · intro a ha b hb
    simp only [before, hstart a ha, hstart b hb]

/-- Levels are all that nesting changes. -/
theorem map_row?_nest
    (strings : StringTable) :
    ∀ (entries : List Entry) (openEnds : List Timestamp),
      (nest openEnds entries).map (Entry.row? strings) = entries.map (Entry.row? strings)
  | [], _ => rfl
  | entry :: entries, openEnds => by
      simp only [nest, List.map_cons, map_row?_nest strings entries]
      rfl

end Storing

section Building

theorem filter_fits_events
    (rows : List Row) :
    rows.filter (Row.fits false) = (eventRows rows).map Row.event := by
  induction rows with
  | nil => rfl
  | cons row rows ih =>
      cases row with
      | event row => simpa [eventRows, Row.fits, Row.isSample] using ih
      | sample time value => simpa [eventRows, Row.fits, Row.isSample] using ih

theorem filter_fits_samples
    (rows : List Row) :
    rows.filter (Row.fits true) =
      (sampleRows rows).map fun sample => Row.sample sample.time sample.value := by
  induction rows with
  | nil => rfl
  | cons row rows ih =>
      cases row with
      | event row => simpa [sampleRows, Row.fits, Row.isSample] using ih
      | sample time value => simpa [sampleRows, Row.fits, Row.isSample] using ih

variable
  (track : TrackId) (window : Window) (counter : Bool)
  (rows : List Row) (table : StringTable)

@[simp] theorem track_build :
    (build track window counter rows table).1.track = track := by
  cases counter <;> rfl

@[simp] theorem window_build :
    (build track window counter rows table).1.window = window := by
  cases counter <;> rfl

theorem extends_build :
    table.Extends (build track window counter rows table).2 := by
  cases counter with
  | true => exact StringTable.Extends.refl table
  | false => exact extends_storeAll (eventRows rows) table

/-- A chunk of a track of events stores its entries in order of start, with levels. -/
theorem records_build_events :
    (build track window false rows table).1.records =
      .events (nest []
        ((storeAll table (eventRows rows)).1.mergeSort fun a b => a.time ≤ b.time)).toArray :=
  rfl

/-- **A chunk holds exactly the rows of its layout**, sorted by start. -/
theorem rows_build :
    (build track window counter rows table).1.rows (build track window counter rows table).2 =
      (Row.sortByTime (rows.filter (Row.fits counter))).map some := by
  cases counter with
  | true =>
      rw [filter_fits_samples, Row.sortByTime,
        ← List.map_mergeSort (r := fun a b => a.time ≤ b.time)]
      · simp [build, Chunk.rows, Records.rows]
      · intro a _ b _
        rfl
  | false =>
      have hstored := map_row?_mergeSort (map_row?_storeAll (eventRows rows) table)
      have hnested := map_row?_nest (storeAll table (eventRows rows)).2
        ((storeAll table (eventRows rows)).1.mergeSort fun a b => a.time ≤ b.time) []
      rw [filter_fits_events, Row.sortByTime,
        ← List.map_mergeSort (r := fun a b => a.time ≤ b.time)]
      · simp only [build, Chunk.rows, Records.rows, Bool.false_eq_true, if_false]
        rw [← Function.comp_def, ← List.map_map, hnested, hstored]
        simp [Function.comp_def]
      · intro a _ b _
        rfl

end Building

section Rebuilding

variable {table larger : StringTable}

theorem store_of_extends
    {row : EventRow}
    (hextends : (store table row).2.Extends larger) :
    store larger row = ((store table row).1, larger) := by
  have hsymbol : ((table.intern row.typeName).2.intern row.symbol).2.Extends larger := hextends
  have htype : (table.intern row.typeName).2.Extends larger :=
    (StringTable.extends_intern _ row.symbol).trans hsymbol
  simp only [store, StringTable.intern_of_extends htype, StringTable.intern_of_extends hsymbol]

theorem storeAll_of_extends :
    ∀ {rows : List EventRow} {table : StringTable},
      (storeAll table rows).2.Extends larger →
        storeAll larger rows = ((storeAll table rows).1, larger)
  | [], _, _ => rfl
  | row :: rows, table, hextends => by
      have hrest : (storeAll (store table row).2 rows).2.Extends larger := hextends
      have hfirst : (store table row).2.Extends larger :=
        (extends_storeAll rows (store table row).2).trans hrest
      simp only [storeAll, store_of_extends hfirst, storeAll_of_extends hrest]

/-- A chunk that is built again from the same rows, however much the table has grown, is the
same chunk, and the table does not change. -/
theorem build_of_extends
    {track : TrackId} {window : Window} {counter : Bool} {rows : List Row}
    (hextends : (build track window counter rows table).2.Extends larger) :
    build track window counter rows larger =
      ((build track window counter rows table).1, larger) := by
  cases counter with
  | true => rfl
  | false =>
      have hstored : storeAll larger (eventRows rows) =
          ((storeAll table (eventRows rows)).1, larger) := storeAll_of_extends hextends
      simp only [build, Bool.false_eq_true, if_false, hstored]

end Rebuilding

end Chunk

end TimelineStore
