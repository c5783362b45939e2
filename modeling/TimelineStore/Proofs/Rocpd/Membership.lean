import TimelineStore.Proofs.Rocpd.Scan
import TimelineStore.Source.Memory

/-!
# Tables and memory

A query decides on cells which rows a window has: on signed numbers, some of them null, and on
bounds that are held at the greatest time of a table.  A source in memory decides on the rows
themselves, whose times are unsigned and whose durations may be negative.  Up to the greatest
time the two agree, so a track of tables reads like a source in memory that holds all its rows.

**Results.**
* `Tables.Sound.belongsTo_eq`: the row of an entry belongs to the windows that the entry meets.
* `Tables.Sound.allRows_eq`: all rows of a track are those of the entries with its key.
* `Tables.Sound.pairwise_rowsFor`: a read returns rows by their starts.
* `Tables.readTrack_mirrored`: a read of tables and one of the source that mirrors them agree.
-/

namespace TimelineStore

open Sql

namespace Rocpd

section Mirror

/-- The rows among those selected whose key columns hold two numbers, one by one as events. -/
def EventTable.allRows (table : EventTable) (process subprocess : Int)
    (rows : List EventSelection) : Except DatabaseFailure (List Row) :=
  (rows.filter fun row =>
      row.process = .integer process && row.subprocess = .integer subprocess).mapM
    fun row => Row.event <$> table.eventOf row

/-- All rows of the track with a key, whatever their times. -/
def Tables.allRows (tables : Tables) : TrackKey → Except DatabaseFailure (List Row)
  | .thread process thread => callEvents.allRows process thread tables.callSelections
  | .queue device queue => dispatchEvents.allRows device queue tables.dispatchSelections
  | .monitor device name =>
    ((tables.samples.getD []).filter fun row =>
      row.device = .integer device && row.monitor = .text name).mapM SampleRow.toRow

/-- A source in memory that holds all rows of a track, and nothing else. -/
def Tables.mirror (tables : Tables) (name : String) (track : Descriptor) :
    Except DatabaseFailure MemorySource := do
  let key ← TrackKey.ofDescriptor track
  let rows ← tables.allRows key
  return (MemorySource.named name).addTrack track rows

end Mirror

variable {tables : Tables}

section Entries

/-- An event ends with its row, or at its start if the row ends before it. -/
theorem toNat_stop_entry
    {row : EventSelection}
    (table : EventTable)
    (hsound : row.Sound) :
    (table.entry row).row.stop.toNat = max row.start.whole.toNat row.stop.whole.toNat := by
  have hstartWord := hsound.columns.start.isWord
  have hstart := toNat_time (Or.inr hstartWord)
  have hstop := toNat_time hsound.columns.stop
  have hstartBound := Cell.whole_lt (Or.inr hstartWord)
  have hstopBound := Cell.whole_lt hsound.columns.stop
  -- the difference of two times of a table fits a signed word
  have hduration : (Int64.ofInt (row.stop.time.toNat - row.start.time.toNat : Int)).toInt =
      (row.stop.time.toNat - row.start.time.toNat : Int) := by
    refine Int64.toInt_ofInt_of_le ?_ ?_ <;> omega
  simp only [EventTable.entry, Row.stop, EventRow.stop, Timestamp.after, Timestamp.toNat_later,
    hduration]
  omega

/-- What a query asks of the numbers in its cells, in a window that ends no later than the
greatest time; an end that is missing is none. -/
theorem meets_iff_whole
    {window : Window} {start stop : Cell}
    (hstart : start.IsTime)
    (hstop : stop = .null ∨ stop.IsWord)
    (hbound : window.stop.toNat < 2 ^ 63) :
    meets window start stop = true ↔
      start.whole < window.stop.toNat ∧
        (window.start.toNat < stop.whole ∨ window.start.toNat ≤ start.whole) := by
  obtain ⟨first, rfl, hlow, hhigh⟩ := hstart.exists_eq
  rcases hstop with rfl | hword
  · simp only [meets, timeCell, greatestTime, Cell.isLess_null, Bool.false_or, Bool.and_eq_true,
      Cell.integer_isLess_integer, Cell.integer_isAtLeast_integer, decide_eq_true_iff, Cell.whole]
    omega
  · cases hword with
    | integer hfrom hto =>
        simp only [meets, timeCell, greatestTime, Bool.and_eq_true, Bool.or_eq_true,
          Cell.integer_isLess_integer, Cell.integer_isAtLeast_integer, decide_eq_true_iff,
          Cell.whole]
        omega

theorem EventSelection.Sound.belongsTo_eq
    {row : EventSelection} {window : Window}
    (hsound : row.Sound)
    (table : EventTable)
    (hbound : window.stop.toNat < 2 ^ 63) :
    (table.entry row).row.belongsTo window = (table.entry row).meets window := by
  have hstart : (table.entry row).row.time.toNat = row.start.whole.toNat :=
    toNat_time (Or.inr hsound.columns.start.isWord)
  have hlow := hsound.columns.start.zero_le_whole
  have hbelongs : (table.entry row).row.belongsTo window =
      window.meets (table.entry row).row.time (table.entry row).row.stop := rfl
  have hmeets : (table.entry row).meets window = meets window row.start row.stop := rfl
  rw [hbelongs, hmeets, Bool.eq_iff_iff, Window.meets_iff,
    meets_iff_whole hsound.columns.start hsound.columns.stop hbound, UInt64.lt_iff_toNat_lt,
    UInt64.lt_iff_toNat_lt, UInt64.le_iff_toNat_le, toNat_stop_entry table hsound, hstart]
  omega

theorem SampleRow.Sound.belongsTo_eq
    {row : SampleRow} {window : Window}
    (hsound : row.Sound)
    (hbound : window.stop.toNat < 2 ^ 63) :
    row.entry.row.belongsTo window = row.entry.meets window := by
  have hstart : row.start.time.toNat = row.start.whole.toNat :=
    toNat_time (Or.inr hsound.start.isWord)
  have hlow := hsound.start.zero_le_whole
  have hbelongs : row.entry.row.belongsTo window = window.contains row.start.time := rfl
  have hmeets : row.entry.meets window = meets window row.start .null := rfl
  rw [hbelongs, hmeets, Bool.eq_iff_iff, Window.contains_iff,
    meets_iff_whole hsound.start (Or.inl rfl) hbound, UInt64.lt_iff_toNat_lt,
    UInt64.le_iff_toNat_le, hstart]
  have hnone : Cell.null.whole = 0 := rfl
  omega

/-- **The row of an entry belongs to exactly the windows that the entry meets**, among those that
end no later than the greatest time. -/
theorem Tables.Sound.belongsTo_eq
    {window : Window}
    (hsound : tables.Sound)
    (hbound : window.stop.toNat < 2 ^ 63) :
    ∀ entry ∈ tables.entries, entry.row.belongsTo window = entry.meets window := by
  refine Tables.forall_mem_entries (fun row hrow => ?_) (fun row hrow => ?_) (fun row hrow => ?_)
  · exact (hsound.callSelections row hrow).belongsTo_eq callEvents hbound
  · exact (hsound.dispatchSelections row hrow).belongsTo_eq dispatchEvents hbound
  · exact (hsound.deviceSamples row hrow).belongsTo_eq hbound

end Entries

section AllRows

/-- The entries of a table of events with a key are those of the rows whose key columns hold it. -/
theorem EventTable.filter_entry
    {table : EventTable} {rows : List EventSelection}
    (htable : table = callEvents ∨ table = dispatchEvents)
    (hsound : ∀ row ∈ rows, row.Sound)
    (process subprocess : Int) :
    (rows.map table.entry).filter (·.key = table.key process subprocess) =
      (rows.filter fun row => row.process = .integer process &&
        row.subprocess = .integer subprocess).map table.entry := by
  rw [List.filter_map]
  refine congrArg _ (List.filter_congr fun row hrow => ?_)
  have hcolumns := (hsound row hrow).columns
  rw [← hcolumns.process.integer_whole, ← hcolumns.subprocess.integer_whole]
  rcases htable with rfl | rfl <;>
    simp [EventTable.entry, callEvents, dispatchEvents, Cell.whole]

theorem EventTable.allRows_eq
    {table : EventTable} {rows : List EventSelection}
    (htable : table = callEvents ∨ table = dispatchEvents)
    (hsound : ∀ row ∈ rows, row.Sound)
    (process subprocess : Int) :
    table.allRows process subprocess rows =
      .ok (rowsFor (table.key process subprocess) (rows.map table.entry)) := by
  rw [rowsFor, EventTable.filter_entry htable hsound, List.map_map, EventTable.allRows,
    Outcome.mapM_eq_ok_iff, List.forall₂_map_right_iff, List.forall₂_same]
  intro row hrow
  exact table.eventOf_eq (hsound row (List.mem_filter.1 hrow).1)

theorem rowsFor_append
    (key : TrackKey) (first second : List Entry) :
    rowsFor key (first ++ second) = rowsFor key first ++ rowsFor key second := by
  rw [rowsFor, List.filter_append, List.map_append]
  rfl

/-- Of the rows of all tables, those for a track are among the rows of its own. -/
theorem rowsFor_tables
    {lists : TableName → List Entry}
    (htable : ∀ name, ∀ entry ∈ lists name, entry.key.table = name)
    (key : TrackKey) :
    rowsFor key (lists .calls ++ lists .dispatches ++ lists .samples) =
      rowsFor key (lists key.table) := by
  have hnone : ∀ name, name ≠ key.table → rowsFor key (lists name) = [] := by
    intro name hother
    rw [rowsFor, List.map_eq_nil_iff, List.filter_eq_nil_iff]
    intro entry hentry hsame
    rw [← of_decide_eq_true hsame, htable name entry hentry] at hother
    exact hother rfl
  rw [rowsFor_append, rowsFor_append]
  cases htable : key.table with
  | calls => rw [hnone .dispatches (by simp [htable]), hnone .samples (by simp [htable])]; simp
  | dispatches => rw [hnone .calls (by simp [htable]), hnone .samples (by simp [htable])]; simp
  | samples => rw [hnone .calls (by simp [htable]), hnone .dispatches (by simp [htable])]; simp

/-- The entries of a table. -/
def Tables.entriesOf (tables : Tables) : TableName → List Entry
  | .calls => tables.callSelections.map callEvents.entry
  | .dispatches => tables.dispatchSelections.map dispatchEvents.entry
  | .samples => tables.deviceSamples.map SampleRow.entry

theorem Tables.table_of_mem_entriesOf
    (tables : Tables)
    (name : TableName) :
    ∀ entry ∈ tables.entriesOf name, entry.key.table = name := by
  intro entry hentry
  cases name with
  | calls =>
      obtain ⟨row, -, rfl⟩ := List.mem_map.1 hentry
      rfl
  | dispatches =>
      obtain ⟨row, -, rfl⟩ := List.mem_map.1 hentry
      rfl
  | samples =>
      obtain ⟨row, -, rfl⟩ := List.mem_map.1 hentry
      rfl

theorem SampleRow.Sound.key_entry_iff
    {row : SampleRow} {device : Int} {name : String}
    (hsound : row.Sound)
    (hdevice : 0 < device) :
    (row.entry.key = .monitor device name ∧ (Cell.integer 0).isLess row.device = true) ↔
      row.device = .integer device ∧ row.monitor = .text name := by
  rw [← hsound.device.integer_whole, ← hsound.monitor.text_words, SampleRow.entry,
    Cell.integer_isLess_integer, decide_eq_true_iff, TrackKey.monitor.injEq, Cell.integer.injEq,
    Cell.text.injEq]
  constructor
  · rintro ⟨hkey, -⟩
    exact hkey
  · rintro ⟨rfl, hname⟩
    exact ⟨⟨rfl, hname⟩, hdevice⟩

theorem Tables.Sound.allRows_monitor
    {device : Int} {name : String}
    (hsound : tables.Sound)
    (hdevice : 0 < device) :
    tables.allRows (.monitor device name) =
      .ok (rowsFor (.monitor device name) (tables.deviceSamples.map SampleRow.entry)) := by
  have hkept :
      tables.deviceSamples.filter (fun row => row.entry.key = .monitor device name) =
        (tables.samples.getD []).filter fun row =>
          row.device = .integer device && row.monitor = .text name := by
    rw [Tables.deviceSamples, List.filter_filter]
    refine List.filter_congr fun row hrow => ?_
    rw [Bool.eq_iff_iff]
    simpa using (hsound.samples row hrow).key_entry_iff hdevice
  rw [rowsFor, List.filter_map, List.map_map, Tables.allRows, ← hkept, Outcome.mapM_eq_ok_iff,
    List.forall₂_map_right_iff]
  refine List.forall₂_same.2 fun row hrow => ?_
  exact SampleRow.toRow_eq (hsound.deviceSamples row (List.mem_filter.1 hrow).1)

/-- Only devices have monitors. -/
theorem Tables.Sound.device_pos
    {device : Int} {name : String}
    (hsound : tables.Sound)
    (hkey : ∃ entry ∈ tables.entries, entry.key = .monitor device name) :
    0 < device := by
  have hpos : ∀ entry ∈ tables.entries, entry.key = .monitor device name → 0 < device := by
    refine Tables.forall_mem_entries (fun row _ habsurd => ?_) (fun row _ habsurd => ?_)
      (fun row hrow hsame => ?_)
    · cases habsurd
    · cases habsurd
    · have hless := (List.mem_filter.1 hrow).2
      rw [← (hsound.deviceSamples row hrow).device.integer_whole,
        Cell.integer_isLess_integer] at hless
      obtain ⟨rfl, -⟩ := TrackKey.monitor.inj hsame
      exact of_decide_eq_true hless
  obtain ⟨entry, hentry, hsame⟩ := hkey
  exact hpos entry hentry hsame

/-- **All rows of a track are those of the entries with its key.** -/
theorem Tables.Sound.allRows_eq
    {key : TrackKey}
    (hsound : tables.Sound)
    (hkey : ∃ entry ∈ tables.entries, entry.key = key) :
    tables.allRows key = .ok (rowsFor key tables.entries) := by
  have hentries : tables.entries = tables.entriesOf .calls ++ tables.entriesOf .dispatches ++
      tables.entriesOf .samples := rfl
  rw [hentries, rowsFor_tables tables.table_of_mem_entriesOf]
  cases key with
  | thread process thread =>
      exact EventTable.allRows_eq (.inl rfl) hsound.callSelections process thread
  | queue device queue =>
      exact EventTable.allRows_eq (.inr rfl) hsound.dispatchSelections device queue
  | monitor device name => exact hsound.allRows_monitor (hsound.device_pos hkey)

end AllRows

section Reads

/-- Rows sorted by their starts have starts in order. -/
theorem pairwise_mergeSort_start
    {ρ : Type}
    (start : ρ → Cell)
    (rows : List ρ)
    (htimes : ∀ row ∈ rows, (start row).IsTime) :
    (rows.mergeSort fun a b => (start a).precedes (start b)).Pairwise
      fun a b => (start a).whole ≤ (start b).whole := by
  have hprecedes : ∀ a ∈ rows, ∀ b ∈ rows,
      (start a).precedes (start b) = decide ((start a).whole ≤ (start b).whole) := by
    intro a ha b hb
    rw [← (htimes a ha).isWord.integer_whole, ← (htimes b hb).isWord.integer_whole, Cell.precedes,
      Cell.integer_order_integer, decide_eq_decide, Ne, compare_gt_iff_gt, not_lt]
    rfl
  have hsort :
      (rows.mergeSort fun a b => (start a).precedes (start b)).map (fun row => (start row).whole) =
        (rows.map fun row => (start row).whole).mergeSort (· ≤ ·) :=
    List.map_mergeSort hprecedes
  rw [← List.pairwise_map, hsort]
  exact List.pairwise_mergeSort' (· ≤ ·) _

theorem mem_entries_of_mem_part
    {window : Window} {name : TableName} {entry : Entry}
    (hentry : entry ∈ tables.part window name) :
    entry ∈ tables.entries := by
  have hin : entry ∈ tables.entriesIn window := by
    cases name <;> simp [Tables.entriesIn, hentry]
  exact mem_entries_of_mem_entriesIn hin

theorem Tables.Sound.pairwise_part
    (hsound : tables.Sound)
    (window : Window)
    (name : TableName) :
    (tables.part window name).Pairwise fun a b => a.start.whole ≤ b.start.whole := by
  cases name with
  | calls =>
      refine List.pairwise_map.2
        (pairwise_mergeSort_start EventSelection.start _ fun row hrow => ?_)
      exact (hsound.callSelections row (List.mem_filter.1 hrow).1).columns.start
  | dispatches =>
      refine List.pairwise_map.2
        (pairwise_mergeSort_start EventSelection.start _ fun row hrow => ?_)
      exact (hsound.dispatchSelections row (List.mem_filter.1 hrow).1).columns.start
  | samples =>
      refine List.pairwise_map.2 (pairwise_mergeSort_start SampleRow.start _ fun row hrow => ?_)
      exact (hsound.samples row (List.mem_filter.1 hrow).1).start

/-- **A read returns the rows of a track by their starts.** -/
theorem Tables.Sound.pairwise_rowsFor
    (hsound : tables.Sound)
    (window : Window)
    (key : TrackKey) :
    (rowsFor key (tables.entriesIn window)).Pairwise fun a b => a.time ≤ b.time := by
  have hpart : rowsFor key (tables.entriesIn window) =
      rowsFor key (tables.part window key.table) :=
    rowsFor_tables (fun _ _ => table_of_mem_part) key
  have hsorted := (hsound.pairwise_part window key.table).filter (·.key = key)
  rw [hpart, rowsFor, List.pairwise_map]
  refine hsorted.imp_of_mem fun ha hb hle => ?_
  have hstart : ∀ entry ∈ (tables.part window key.table).filter (·.key = key),
      entry.row.time.toNat = entry.start.whole.toNat := by
    intro entry hentry
    have hmem := mem_entries_of_mem_part (List.mem_filter.1 hentry).1
    rw [tables.time_entry entry hmem]
    exact toNat_time (Or.inr (hsound.isTime_start entry hmem).isWord)
  rw [UInt64.le_iff_toNat_le, hstart _ ha, hstart _ hb]
  omega

/-- A read returns those of all rows of the track that belong to the window. -/
theorem Tables.Sound.rowsFor_entriesIn_perm
    {window : Window}
    (hsound : tables.Sound)
    (hbound : window.stop.toNat < 2 ^ 63)
    (key : TrackKey) :
    (rowsFor key (tables.entriesIn window)).Perm
      ((rowsFor key tables.entries).filter (Row.belongsTo window)) := by
  have hbelongs : (tables.entries.filter (·.key = key)).filter (Row.belongsTo window ∘ Entry.row) =
      (tables.entries.filter (Entry.meets window)).filter (·.key = key) := by
    rw [List.filter_comm]
    refine congrArg _ (List.filter_congr fun entry hentry => ?_)
    exact hsound.belongsTo_eq hbound entry hentry
  rw [rowsFor, rowsFor, List.filter_map, hbelongs]
  exact ((entriesIn_perm tables window).filter _).map _

/-- **A track of tables reads like a source in memory that holds all its rows.**  Whatever the
window, as long as it ends no later than the greatest time: the same rows are returned, as often
as they are held, and those of tables by their starts. -/
theorem Tables.readTrack_mirrored
    (hsound : tables.Sound)
    (name : String) :
    ∃ metadata, (tables.toSource name).metadata.answer = .ok metadata ∧
      ∀ track ∈ metadata.tracks, ∃ mirror, tables.mirror name track = .ok mirror ∧
        ∀ window : Window, window.stop.toNat < 2 ^ 63 →
          ∃ rows held, (tables.toSource name).readTrack track window = .ok rows ∧
            mirror.toSource.readTrack track window = .ok held ∧
              rows.Perm held ∧ rows.Pairwise fun a b => a.time ≤ b.time := by
  obtain ⟨window, keys, hmetadata, -, hmem, hfits⟩ := hsound.exists_tracks name
  refine ⟨_, hmetadata, fun track htrack => ?_⟩
  obtain ⟨key, hkey, rfl⟩ := List.mem_map.1 htrack
  have hread := TrackKey.ofDescriptor_descriptor (hfits key hkey)
  have hall := hsound.allRows_eq ((hmem key).1 hkey)
  refine ⟨(MemorySource.named name).addTrack key.descriptor (rowsFor key tables.entries), ?_, ?_⟩
  · rw [mirror, hread]
    simp only [bind, Except.bind, hall]
    rfl
  intro window hbound
  refine ⟨rowsFor key (tables.entriesIn window),
    (Row.sortByTime (rowsFor key tables.entries)).filter (Row.belongsTo window),
    hsound.readTrack_eq name (hfits key hkey) window, ?_, ?_, hsound.pairwise_rowsFor window key⟩
  · simp [MemorySource.toSource, MemorySource.readTrack, MemorySource.rowsOf?,
      MemorySource.addTrack, MemorySource.named]
  · refine (hsound.rowsFor_entriesIn_perm hbound key).trans ?_
    exact ((List.mergeSort_perm _ _).filter _).symm

/-- A call of some length, one that has not ended, one that ends before it starts, and a sample. -/
def damagedCalls : Tables where
  strings := [⟨1, .text "f"⟩]
  calls := [
    ⟨1, .integer 100, .integer 100, .integer 10, .integer 30, .integer 1, .null⟩,
    ⟨2, .integer 100, .integer 100, .integer 20, .null, .integer 1, .null⟩,
    ⟨3, .integer 100, .integer 100, .integer 35, .integer 5, .integer 1, .null⟩]
  dispatches := []
  samples := some [⟨1, .text "gpu", .integer 1, .text "power", .integer 25, .null, .text "7.5"⟩]
  links := none
  frames := none
  bare := []

theorem sound_damagedCalls : damagedCalls.Sound := by
  have hword : (Cell.integer 100).IsWord := .integer (by decide) (by decide)
  refine ⟨fun _ _ => List.not_mem_nil, List.nodup_singleton _, ?_, ?_, List.forall_mem_nil _, ?_⟩
  · intro row hrow
    rw [List.mem_singleton.1 hrow]
    exact Or.inr (.text "f")
  · intro row hrow
    simp only [damagedCalls, List.mem_cons, List.not_mem_nil, or_false] at hrow
    rcases hrow with rfl | rfl | rfl
    · exact ⟨hword, hword, .integer (by decide) (by decide),
        Or.inr (.integer (by decide) (by decide))⟩
    · exact ⟨hword, hword, .integer (by decide) (by decide), Or.inl rfl⟩
    · exact ⟨hword, hword, .integer (by decide) (by decide),
        Or.inr (.integer (by decide) (by decide))⟩
  · intro row hrow
    rw [List.mem_singleton.1 hrow]
    exact ⟨.integer (by decide) (by decide), .text "power", .integer (by decide) (by decide)⟩

/-- All three calls belong to one window, and in an inverted one there is none. -/
theorem readTrack_mirrored_damaged :
    damagedCalls.Sound ∧ ∃ mirror,
      damagedCalls.mirror "capture.rpd" (TrackKey.thread 100 100).descriptor = .ok mirror ∧
        ∀ window count, (window, count) ∈ [(Window.mk 20 36, 3), (⟨30, 25⟩, 0)] →
          ∃ rows held,
            (damagedCalls.toSource "capture.rpd").readTrack (TrackKey.thread 100 100).descriptor
              window = .ok rows ∧
            mirror.toSource.readTrack (TrackKey.thread 100 100).descriptor window = .ok held ∧
              rows.Perm held ∧ rows.length = count := by
  have hsound := sound_damagedCalls
  have hfits : (TrackKey.thread 100 100).Fits := ⟨.integer (by decide) (by decide),
    .integer (by decide) (by decide)⟩
  obtain ⟨window, keys, hmetadata, -, hmem, -⟩ := hsound.exists_tracks "capture.rpd"
  obtain ⟨metadata, hanswer, hmirrored⟩ := Tables.readTrack_mirrored hsound "capture.rpd"
  cases hanswer.symm.trans hmetadata
  have hkey : TrackKey.thread 100 100 ∈ keys :=
    (hmem _).2 ⟨_, Tables.mem_entries_iff.2 (.inl ⟨_, List.mem_cons_self, rfl⟩), rfl⟩
  obtain ⟨mirror, hmirror, hreads⟩ := hmirrored _ (List.mem_map_of_mem hkey)
  refine ⟨hsound, mirror, hmirror, fun window count hcase => ?_⟩
  have hbound : window.stop.toNat < 2 ^ 63 := by
    simp only [List.mem_cons, List.not_mem_nil, or_false, Prod.mk.injEq] at hcase
    rcases hcase with ⟨rfl, -⟩ | ⟨rfl, -⟩ <;> decide
  obtain ⟨rows, held, hrows, hheld, hperm, -⟩ := hreads window hbound
  refine ⟨rows, held, hrows, hheld, hperm, ?_⟩
  have hread := hsound.readTrack_eq "capture.rpd" hfits window
  obtain rfl := Except.ok.inj (hrows.symm.trans hread)
  rw [(hsound.rowsFor_entriesIn_perm hbound _).length_eq]
  simp only [List.mem_cons, List.not_mem_nil, or_false, Prod.mk.injEq] at hcase
  rcases hcase with ⟨rfl, rfl⟩ | ⟨rfl, rfl⟩ <;> rfl

end Reads

end Rocpd

end TimelineStore
