import Mathlib.Algebra.Group.Int.Defs
import TimelineStore.Rocpd.Source

/-!
# The rows that tables hold for tracks

Tables are `Sound` if their columns have the types that their schema gives them, every
row has a start, and no start is negative.  Of a start and an end nothing else is asked:
an end may be missing or lie before its start.  Every call, every dispatch and every
sample of a device is then an `Entry`: a row for the track that its key columns name.

**Results.**
* `EventTable.keyOf_eq`, `EventTable.eventOf_eq`, `SampleRow.key_eq`, `SampleRow.toRow_eq`:
  what a query reads from a sound row is its entry.
-/

namespace TimelineStore

open Sql

namespace Sql.Cell

/-- A whole number of 64 signed bits. -/
inductive IsWord : Cell → Prop
  | integer {value : Int} (hlow : -(2 ^ 63) ≤ value) (hhigh : value < 2 ^ 63) :
      IsWord (.integer value)

/-- A time: a whole number of 64 signed bits that is not negative. -/
inductive IsTime : Cell → Prop
  | integer {value : Int} (hlow : 0 ≤ value) (hhigh : value < 2 ^ 63) :
      IsTime (.integer value)

inductive IsText : Cell → Prop
  | text (value : String) : IsText (.text value)

/-- The whole number of a cell, zero where there is none. -/
def whole : Cell → Int
  | .integer value => value
  | _ => 0

/-- The text of a cell, empty where there is none. -/
def words : Cell → String
  | .text value => value
  | _ => ""

/-- The floating-point number of a cell, zero where there is none. -/
def number : Cell → Float
  | .real value => value
  | _ => 0.0

/-- The time of a cell, zero where there is none. -/
def time (cell : Cell) : Timestamp :=
  Rocpd.timeOf (some cell.whole)

theorem IsWord.readInteger_eq
    {cell : Cell}
    (hword : cell.IsWord)
    (index : Nat)
    (column : String) :
    cell.readInteger index column = .ok cell.whole := by
  cases hword
  rfl

theorem IsWord.integer_whole
    {cell : Cell}
    (hword : cell.IsWord) :
    .integer cell.whole = cell := by
  cases hword
  rfl

theorem IsText.text_words
    {cell : Cell}
    (htext : cell.IsText) :
    .text cell.words = cell := by
  cases htext
  rfl

theorem IsTime.exists_eq
    {cell : Cell}
    (htime : cell.IsTime) :
    ∃ value : Int, cell = .integer value ∧ 0 ≤ value ∧ value < 2 ^ 63 := by
  rcases htime with ⟨hlow, hhigh⟩
  exact ⟨_, rfl, hlow, hhigh⟩

theorem IsTime.isWord
    {cell : Cell}
    (htime : cell.IsTime) :
    cell.IsWord := by
  rcases htime with ⟨hlow, hhigh⟩
  exact .integer (by omega) hhigh

theorem IsTime.zero_le_whole
    {cell : Cell}
    (htime : cell.IsTime) :
    0 ≤ cell.whole := by
  rcases htime with ⟨hlow, -⟩
  exact hlow

theorem whole_lt
    {cell : Cell}
    (hcell : cell = .null ∨ cell.IsWord) :
    cell.whole < 2 ^ 63 := by
  rcases hcell with rfl | hword
  · decide
  · rcases hword with ⟨-, hhigh⟩
    exact hhigh

/-- A time is read from a cell that holds a whole number or nothing. -/
theorem exists_readOptionalInteger
    {cell : Cell}
    (hcell : cell = .null ∨ cell.IsWord)
    (index : Nat)
    (column : String) :
    ∃ value, cell.readOptionalInteger index column = .ok value ∧
      Rocpd.timeOf value = cell.time := by
  rcases hcell with rfl | hword
  · exact ⟨none, rfl, rfl⟩
  · cases hword with
    | integer hlow hhigh => exact ⟨_, rfl, rfl⟩

theorem readText_eq
    {cell : Cell}
    (hcell : cell = .null ∨ cell.IsText)
    (index : Nat)
    (column : String) :
    cell.readText index column = .ok cell.words := by
  rcases hcell with rfl | htext
  · rfl
  · cases htext
    rfl

theorem readReal_castReal
    (cell : Cell)
    (index : Nat)
    (column : String) :
    cell.castReal.readReal index column = .ok cell.castReal.number := by
  cases cell <;> rfl

end Sql.Cell

namespace Rocpd

section Soundness

/-- The tables that have the rows of tracks and their strings. -/
def rowTables : List String :=
  ["rocpd_string", "rocpd_api", "rocpd_op", "rocpd_monitor"]

/-- The statement mentions columns of these tables only. -/
def Statement.OfRows (statement : Statement) : Prop :=
  ∀ mention ∈ statement.mentions, mention.table ∈ rowTables

instance (statement : Statement) : Decidable statement.OfRows :=
  inferInstanceAs (Decidable (∀ mention ∈ statement.mentions, mention.table ∈ rowTables))

/-- What the schema says of the columns that calls and dispatches have in common. -/
structure SoundEvent (process subprocess start stop : Cell) : Prop where
  process : process.IsWord
  subprocess : subprocess.IsWord
  start : start.IsTime
  stop : stop = .null ∨ stop.IsWord

/-- What the schema says of the columns of a sample. -/
structure SampleRow.Sound (row : SampleRow) : Prop where
  device : row.device.IsWord
  monitor : row.monitor.IsText
  start : row.start.IsTime

/-- The tables have their columns, and these have the types of their schema; every row
has a start that is not negative. -/
structure Tables.Sound (tables : Tables) : Prop where
  complete : ∀ table ∈ rowTables, table ∉ tables.bare
  distinct : (tables.strings.map StringRow.id).Nodup
  strings : ∀ row ∈ tables.strings, row.string = .null ∨ row.string.IsText
  calls : ∀ row ∈ tables.calls, SoundEvent row.process row.thread row.start row.stop
  dispatches : ∀ row ∈ tables.dispatches, SoundEvent row.device row.queue row.start row.stop
  samples : ∀ row ∈ tables.samples.getD [], row.Sound

/-- What a query may rely on in a row of calls or dispatches. -/
structure EventSelection.Sound (row : EventSelection) : Prop where
  columns : SoundEvent row.process row.subprocess row.start row.stop
  typeName : row.typeName = .null ∨ row.typeName.IsText
  symbol : row.symbol = .null ∨ row.symbol.IsText

variable {tables : Tables}

theorem Tables.Sound.stringAt
    (hsound : tables.Sound)
    (reference : Cell) :
    tables.stringAt reference = .null ∨ (tables.stringAt reference).IsText := by
  unfold Tables.stringAt Tables.stringAt?
  cases hfind : tables.strings.find? fun row => .integer row.id = reference with
  | none => exact Or.inl rfl
  | some row => exact hsound.strings row (List.mem_of_find?_eq_some hfind)

theorem Tables.Sound.callSelections
    (hsound : tables.Sound) :
    ∀ row ∈ tables.callSelections, row.Sound := by
  intro row hrow
  obtain ⟨call, hcall, rfl⟩ := List.mem_map.1 hrow
  exact ⟨hsound.calls call hcall, hsound.stringAt _, hsound.stringAt _⟩

theorem Tables.Sound.dispatchSelections
    (hsound : tables.Sound) :
    ∀ row ∈ tables.dispatchSelections, row.Sound := by
  intro row hrow
  obtain ⟨dispatch, hdispatch, rfl⟩ := List.mem_map.1 hrow
  exact ⟨hsound.dispatches dispatch hdispatch, hsound.stringAt _, hsound.stringAt _⟩

/-- A statement may be run if no column that it mentions is missing. -/
theorem Tables.prepare_eq
    {statement : Statement}
    (hcomplete : ∀ mention ∈ statement.mentions, mention.table ∉ tables.bare) :
    tables.prepare statement = .ok () := by
  unfold Tables.prepare Statement.check
  have hnone :
      statement.mentions.find? (fun mention => tables.bare.contains mention.table) = none := by
    refine List.find?_eq_none.2 fun mention hmention => ?_
    simpa using hcomplete mention hmention
  rw [hnone]

theorem Tables.Sound.prepare_eq
    {statement : Statement}
    (hsound : tables.Sound)
    (hrows : statement.OfRows) :
    tables.prepare statement = .ok () :=
  Tables.prepare_eq fun mention hmention => hsound.complete _ (hrows mention hmention)

end Soundness

section Entries

/-- A row for the track that a key names, and the cells of its start and end as conditions
compare with them; a sample has no end. -/
structure Entry where
  key : TrackKey
  row : Row
  start : Cell
  stop : Cell

/-- A selected row as an entry. -/
def EventTable.entry (table : EventTable) (row : EventSelection) : Entry where
  key := table.key row.process.whole row.subprocess.whole
  row := .event {
    id := wordOf row.id
    operation := table.operation
    time := row.start.time
    duration := Int64.ofInt (row.stop.time.toNat - row.start.time.toNat : Int)
    typeName := row.typeName.words
    symbol := row.symbol.words }
  start := row.start
  stop := row.stop

/-- A sample as an entry. -/
def SampleRow.entry (row : SampleRow) : Entry where
  key := .monitor row.device.whole row.monitor.words
  row := .sample row.start.time row.value.castReal.number
  start := row.start
  stop := .null

/-- The samples of devices. -/
def Tables.deviceSamples (tables : Tables) : List SampleRow :=
  (tables.samples.getD []).filter fun row => (Cell.integer 0).isLess row.device

/-- The entries of all tables. -/
def Tables.entries (tables : Tables) : List Entry :=
  tables.callSelections.map callEvents.entry ++
    tables.dispatchSelections.map dispatchEvents.entry ++
    tables.deviceSamples.map SampleRow.entry

/-- What holds of the entries of each table holds of all entries. -/
theorem Tables.forall_mem_entries
    {tables : Tables} {holds : Entry → Prop}
    (hcalls : ∀ row ∈ tables.callSelections, holds (callEvents.entry row))
    (hdispatches : ∀ row ∈ tables.dispatchSelections, holds (dispatchEvents.entry row))
    (hsamples : ∀ row ∈ tables.deviceSamples, holds row.entry) :
    ∀ entry ∈ tables.entries, holds entry := by
  intro entry hentry
  rcases List.mem_append.1 hentry with hevent | hsample
  · rcases List.mem_append.1 hevent with hcall | hdispatch
    · obtain ⟨row, hrow, rfl⟩ := List.mem_map.1 hcall
      exact hcalls row hrow
    · obtain ⟨row, hrow, rfl⟩ := List.mem_map.1 hdispatch
      exact hdispatches row hrow
  · obtain ⟨row, hrow, rfl⟩ := List.mem_map.1 hsample
    exact hsamples row hrow

/-- A call as an entry. -/
def Tables.callEntry (tables : Tables) (row : CallRow) : Entry :=
  callEvents.entry ⟨row.process, row.thread, row.id, row.start, row.stop,
    tables.stringAt row.name, tables.stringAt row.arguments⟩

/-- A dispatch as an entry. -/
def Tables.dispatchEntry (tables : Tables) (row : DispatchRow) : Entry :=
  dispatchEvents.entry ⟨row.device, row.queue, row.id, row.start, row.stop,
    tables.stringAt row.operation, tables.stringAt row.description⟩

/-- The entries are those of the calls, of the dispatches and of the samples of devices. -/
theorem Tables.mem_entries_iff
    {tables : Tables} {entry : Entry} :
    entry ∈ tables.entries ↔
      (∃ row ∈ tables.calls, tables.callEntry row = entry) ∨
        (∃ row ∈ tables.dispatches, tables.dispatchEntry row = entry) ∨
          ∃ row ∈ tables.deviceSamples, row.entry = entry := by
  simp only [Tables.entries, Tables.callSelections, Tables.dispatchSelections, List.map_map,
    List.mem_append, List.mem_map, or_assoc]
  rfl

theorem EventTable.keyOf_eq
    {row : EventSelection}
    (table : EventTable)
    (hsound : row.Sound) :
    table.keyOf row = .ok (table.entry row).key := by
  unfold keyOf
  rw [hsound.columns.process.readInteger_eq, hsound.columns.subprocess.readInteger_eq]
  rfl

theorem EventTable.eventOf_eq
    {row : EventSelection}
    (table : EventTable)
    (hsound : row.Sound) :
    (Row.event <$> table.eventOf row) = .ok (table.entry row).row := by
  obtain ⟨start, hstart, htime⟩ := Cell.exists_readOptionalInteger
    (Or.inr hsound.columns.start.isWord) 3 "start"
  obtain ⟨stop, hstop, hend⟩ := Cell.exists_readOptionalInteger hsound.columns.stop 4 "end"
  unfold eventOf
  rw [hstart, hstop, Cell.readText_eq hsound.typeName, Cell.readText_eq hsound.symbol]
  simp only [bind, Except.bind, pure, Except.pure, Functor.map, Except.map, htime, hend]
  rfl

theorem SampleRow.key_eq
    {row : SampleRow}
    (hsound : row.Sound) :
    row.key = .ok row.entry.key := by
  unfold key
  rw [hsound.device.readInteger_eq, Cell.readText_eq (Or.inr hsound.monitor)]
  rfl

theorem SampleRow.toRow_eq
    {row : SampleRow}
    (hsound : row.Sound) :
    row.toRow = .ok row.entry.row := by
  obtain ⟨start, hstart, htime⟩ := Cell.exists_readOptionalInteger
    (Or.inr hsound.start.isWord) 2 "start"
  unfold toRow
  rw [hstart, Cell.readReal_castReal]
  simp only [bind, Except.bind, pure, Except.pure, htime]
  rfl

theorem Tables.Sound.deviceSamples
    {tables : Tables}
    (hsound : tables.Sound) :
    ∀ row ∈ tables.deviceSamples, row.Sound :=
  fun row hrow => hsound.samples row (List.mem_filter.1 hrow).1

end Entries

end Rocpd

end TimelineStore
