import Mathlib.Data.List.Basic
import TimelineStore.Proofs.Rocpd.Bounds
import TimelineStore.Proofs.Rocpd.Tracks
import TimelineStore.Proofs.Sql.Cell

/-!
# Reads of tables

A read of sound tables selects the entries that meet the window and gives each to the
track with its key.  The three scans differ in their tables and conditions only: what a
scan keeps of the rows of a window is decided by the keys, and the conditions of all of
them are `Entry.meets`.

**Results.**
* `entriesIn_perm`: the entries of a window are those that meet it.
* `Tables.Sound.read_eq`: each track is given the entries of the window with its key.
* `Tables.Sound.exists_tracks`: the metadata of sound tables is read, with a track per key.
-/

namespace TimelineStore

open Sql

namespace Rocpd

/-- The entry starts before the window ends, and ends after the window starts or starts no
earlier than it. -/
def Entry.meets (window : Window) (entry : Entry) : Bool :=
  Rocpd.meets window entry.start entry.stop

/-- The row of the entry with its key. -/
def Entry.keyed (entry : Entry) : TrackKey × Row :=
  (entry.key, entry.row)

/-- The rows that are for the track with a key. -/
def rowsFor (key : TrackKey) (entries : List Entry) : List Row :=
  (entries.filter (·.key = key)).map Entry.row

/-- The entries of a table in a window, as its scan finds them. -/
def Tables.part (tables : Tables) (window : Window) : TableName → List Entry
  | .calls => (inWindow window tables.callSelections).map callEvents.entry
  | .dispatches => (inWindow window tables.dispatchSelections).map dispatchEvents.entry
  | .samples => (samplesInWindow window (tables.samples.getD [])).map SampleRow.entry

/-- The entries of all tables in a window. -/
def Tables.entriesIn (tables : Tables) (window : Window) : List Entry :=
  tables.part window .calls ++ tables.part window .dispatches ++ tables.part window .samples

section Windows

variable {tables : Tables}

theorem Tables.Sound.isTime_start
    (hsound : tables.Sound) :
    ∀ entry ∈ tables.entries, entry.start.IsTime := by
  refine Tables.forall_mem_entries (fun row hrow => ?_) (fun row hrow => ?_) (fun row hrow => ?_)
  · exact (hsound.callSelections row hrow).columns.start
  · exact (hsound.dispatchSelections row hrow).columns.start
  · exact (hsound.deviceSamples row hrow).start

theorem Tables.time_entry (tables : Tables) :
    ∀ entry ∈ tables.entries, entry.row.time = entry.start.time :=
  Tables.forall_mem_entries (fun _ _ => rfl) (fun _ _ => rfl) (fun _ _ => rfl)

theorem toNat_time
    {cell : Cell}
    (hcell : cell = .null ∨ cell.IsWord) :
    cell.time.toNat = cell.whole.toNat :=
  toNat_timeOf (Cell.whole_lt hcell)

theorem inWindow_perm
    (table : EventTable)
    (window : Window)
    (rows : List EventSelection) :
    ((inWindow window rows).map table.entry).Perm
      ((rows.map table.entry).filter (Entry.meets window)) := by
  rw [List.filter_map]
  exact (List.mergeSort_perm _ _).map _

theorem samplesInWindow_perm
    (tables : Tables)
    (window : Window) :
    ((samplesInWindow window (tables.samples.getD [])).map SampleRow.entry).Perm
      ((tables.deviceSamples.map SampleRow.entry).filter (Entry.meets window)) := by
  rw [List.filter_map, Tables.deviceSamples, List.filter_filter]
  refine ((List.mergeSort_perm _ _).map _).trans (List.Perm.of_eq ?_)
  congr 1
  refine List.filter_congr fun row _ => ?_
  -- a sample has no end, so of the two ways to reach into the window its start is left
  simp only [Function.comp_apply, Entry.meets, SampleRow.entry, meets, Cell.isLess_null,
    Bool.false_or]
  cases (Cell.integer 0).isLess row.device <;>
    cases row.start.isAtLeast (timeCell window.start) <;>
      cases row.start.isLess (timeCell window.stop) <;> rfl

/-- **The entries of a window are those that meet it**, in another order. -/
theorem entriesIn_perm
    (tables : Tables)
    (window : Window) :
    (tables.entriesIn window).Perm (tables.entries.filter (Entry.meets window)) := by
  rw [Tables.entries, List.filter_append, List.filter_append]
  exact ((inWindow_perm _ _ _).append (inWindow_perm _ _ _)).append (samplesInWindow_perm _ _)

theorem mem_entries_of_mem_entriesIn
    {window : Window} {entry : Entry}
    (hentry : entry ∈ tables.entriesIn window) :
    entry ∈ tables.entries :=
  (List.mem_filter.1 ((entriesIn_perm tables window).mem_iff.1 hentry)).1

theorem mem_rowsFor_iff
    {key : TrackKey} {row : Row} {entries : List Entry} :
    row ∈ rowsFor key entries ↔ ∃ entry ∈ entries, entry.key = key ∧ entry.row = row := by
  simp [rowsFor, and_assoc]

/-- A scan finds only keys of its own table. -/
theorem table_of_mem_part
    {window : Window} {name : TableName} {entry : Entry}
    (hentry : entry ∈ tables.part window name) :
    entry.key.table = name := by
  cases name with
  | calls =>
      obtain ⟨row, _, rfl⟩ := List.mem_map.1 hentry
      rfl
  | dispatches =>
      obtain ⟨row, _, rfl⟩ := List.mem_map.1 hentry
      rfl
  | samples =>
      obtain ⟨row, _, rfl⟩ := List.mem_map.1 hentry
      rfl

end Windows

section Scans

variable {tables : Tables}

/-- What a collection keeps is decided by the keys alone. -/
theorem collect_eq
    {ρ : Type}
    {key : ρ → Except DatabaseFailure TrackKey}
    {row : ρ → Except DatabaseFailure Row}
    {entryOf : ρ → Entry}
    (wanted : List TrackKey)
    (rows : List ρ)
    (hkey : ∀ selected ∈ rows, key selected = .ok (entryOf selected).key)
    (hrow : ∀ selected ∈ rows, row selected = .ok (entryOf selected).row) :
    collect key row wanted rows =
      .ok (((rows.map entryOf).filter (·.key ∈ wanted)).map Entry.keyed) := by
  induction rows with
  | nil => rfl
  | cons selected rest ih =>
      have hrest := ih (fun other hother => hkey other (List.mem_cons_of_mem _ hother))
        (fun other hother => hrow other (List.mem_cons_of_mem _ hother))
      rw [collect, hkey selected List.mem_cons_self, List.map_cons]
      by_cases hwanted : (entryOf selected).key ∈ wanted
      · rw [List.filter_cons_of_pos (by simpa using hwanted), List.map_cons]
        simp only [bind, Except.bind, if_pos hwanted, hrow selected List.mem_cons_self, hrest]
        rfl
      · rw [List.filter_cons_of_neg (by simpa using hwanted)]
        simp only [bind, Except.bind, if_neg hwanted, hrest]

theorem EventTable.scan_eq
    {rows : List EventSelection}
    (table : EventTable)
    (hsound : ∀ row ∈ rows, row.Sound)
    (window : Window)
    (wanted : List TrackKey) :
    table.scan window wanted rows =
      .ok ((((inWindow window rows).map table.entry).filter (·.key ∈ wanted)).map
        Entry.keyed) := by
  have hselected : ∀ row ∈ inWindow window rows, row.Sound := by
    intro row hrow
    rw [inWindow, List.mem_mergeSort] at hrow
    exact hsound row (List.mem_filter.1 hrow).1
  exact collect_eq wanted _ (fun row hrow => table.keyOf_eq (hselected row hrow))
    (fun row hrow => table.eventOf_eq (hselected row hrow))

theorem scanSamples_eq
    {rows : List SampleRow}
    (hsound : ∀ row ∈ rows, row.Sound)
    (window : Window)
    (wanted : List TrackKey) :
    scanSamples window wanted rows =
      .ok ((((samplesInWindow window rows).map SampleRow.entry).filter (·.key ∈ wanted)).map
        Entry.keyed) := by
  have hselected : ∀ row ∈ samplesInWindow window rows, row.Sound := by
    intro row hrow
    rw [samplesInWindow, List.mem_mergeSort] at hrow
    exact hsound row (List.mem_filter.1 hrow).1
  exact collect_eq wanted _ (fun row hrow => SampleRow.key_eq (hselected row hrow))
    (fun row hrow => SampleRow.toRow_eq (hselected row hrow))

theorem Tables.Sound.scan_eq
    (hsound : tables.Sound)
    (window : Window)
    (wanted : List TrackKey)
    (name : TableName) :
    tables.scan window wanted name =
      .ok (((tables.part window name).filter (·.key ∈ wanted)).map Entry.keyed) := by
  cases name with
  | calls =>
      have hprepare : tables.prepare callEvents.statement = .ok () :=
        hsound.prepare_eq (by decide)
      simp only [Tables.scan, hprepare, callEvents.scan_eq hsound.callSelections]
      rfl
  | dispatches =>
      have hprepare : tables.prepare dispatchEvents.statement = .ok () :=
        hsound.prepare_eq (by decide)
      simp only [Tables.scan, hprepare, dispatchEvents.scan_eq hsound.dispatchSelections]
      rfl
  | samples =>
      have hprepare : tables.prepare sampleStatement = .ok () := hsound.prepare_eq (by decide)
      simp only [Tables.scan, hprepare, scanSamples_eq hsound.samples]
      rfl

/-- A table of which no key is wanted is not read, which finds no less. -/
theorem Tables.Sound.scanFor_eq
    (hsound : tables.Sound)
    (window : Window)
    (keys : List TrackKey)
    (name : TableName) :
    tables.scanFor window keys name =
      .ok (((tables.part window name).filter (·.key ∈ keys)).map Entry.keyed) := by
  have hwanted :
      (tables.part window name).filter (·.key ∈ keys.filter (·.table = name)) =
        (tables.part window name).filter (·.key ∈ keys) := by
    refine List.filter_congr fun entry hentry => ?_
    simp [table_of_mem_part hentry]
  rw [← hwanted]
  unfold Tables.scanFor
  split
  · next hnone => simp [hnone]
  · exact hsound.scan_eq window _ name

end Scans

section Reads

variable {tables : Tables}

theorem idxOf_descriptor
    {keys : List TrackKey} {key : TrackKey}
    (hfits : ∀ other ∈ keys, other.Fits)
    (hkey : key.Fits) :
    (keys.map TrackKey.descriptor).idxOf key.descriptor = keys.idxOf key := by
  induction keys with
  | nil => rfl
  | cons first rest ih =>
      have hrest := ih fun other hother => hfits other (List.mem_cons_of_mem _ hother)
      rw [List.map_cons]
      by_cases hsame : first = key
      · rw [List.idxOf_cons_eq _ hsame, List.idxOf_cons_eq _ (congrArg _ hsame)]
      · have hother : first.descriptor ≠ key.descriptor := by
          intro heq
          have hnamed : key.IsNamedBy first.descriptor := heq ▸ key.isNamedBy_descriptor
          have hfirst := hfits first List.mem_cons_self
          exact hsame ((TrackKey.isNamedBy_descriptor_iff hkey hfirst).1 hnamed)
        rw [List.idxOf_cons_ne _ hsame, List.idxOf_cons_ne _ hother, hrest]

theorem rowsWith_keyed
    {keys : List TrackKey} {key : TrackKey}
    (hkey : key ∈ keys)
    (entries : List Entry) :
    rowsWith key ((entries.filter (·.key ∈ keys)).map Entry.keyed) = rowsFor key entries := by
  unfold rowsWith rowsFor
  rw [List.filter_map, List.map_map, List.filter_filter]
  refine congrArg _ (List.filter_congr fun entry _ => ?_)
  by_cases hsame : entry.key = key
  · simp [Entry.keyed, hsame, hkey]
  · simp [Entry.keyed, hsame]

/-- **Each track is given the entries of the window with its key.** -/
theorem Tables.Sound.read_eq
    {keys : List TrackKey}
    (hsound : tables.Sound)
    (hfits : ∀ key ∈ keys, key.Fits)
    (window : Window) :
    tables.read (keys.map TrackKey.descriptor) window =
      .ok (keys.map fun key => rowsFor key (tables.entriesIn window)) := by
  have hkeys : (keys.map TrackKey.descriptor).mapM TrackKey.ofDescriptor = .ok keys := by
    have hread : (keys.map TrackKey.descriptor).mapM TrackKey.ofDescriptor = .ok (keys.map id) :=
      Outcome.mapM_map_eq_ok fun key hkey => TrackKey.ofDescriptor_descriptor (hfits key hkey)
    rwa [List.map_id] at hread
  have hown : ∀ key ∈ keys,
      ownRows keys (((tables.entriesIn window).filter (·.key ∈ keys)).map Entry.keyed)
          ((keys.map TrackKey.descriptor).idxOf key.descriptor) =
        rowsFor key (tables.entriesIn window) := by
    intro key hkey
    unfold ownRows
    rw [idxOf_descriptor hfits (hfits key hkey), List.getElem?_idxOf hkey]
    simp only [if_true]
    exact rowsWith_keyed hkey _
  unfold Tables.read
  rw [hkeys]
  simp only [bind, Except.bind, pure, Except.pure, hsound.scanFor_eq, List.map_map,
    ← List.map_append, ← List.filter_append]
  rw [Except.ok.injEq]
  exact List.map_congr_left hown

/-- A track that is read alone is given what it is given among others. -/
theorem Tables.Sound.readTrack_eq
    {key : TrackKey}
    (hsound : tables.Sound)
    (name : String)
    (hfits : key.Fits)
    (window : Window) :
    (tables.toSource name).readTrack key.descriptor window =
      .ok (rowsFor key (tables.entriesIn window)) := by
  have hone : ∀ other ∈ [key], other.Fits := by
    intro other hother
    rw [List.mem_singleton.1 hother]
    exact hfits
  have hread : tables.read [key.descriptor] window =
      .ok [rowsFor key (tables.entriesIn window)] := hsound.read_eq hone window
  simp only [Tables.toSource, Tables.readOne, hread]
  simp [bind, Except.bind, pure, Except.pure, reportFailure]

/-- **The metadata of sound tables is read, with one track for each key of an entry.** -/
theorem Tables.Sound.exists_tracks
    (hsound : tables.Sound)
    (name : String) :
    ∃ (window : Window) (keys : List TrackKey),
      (tables.toSource name).metadata.answer =
          .ok ⟨window, keys.map TrackKey.descriptor⟩ ∧
        keys.Nodup ∧ (∀ key, key ∈ keys ↔ ∃ entry ∈ tables.entries, entry.key = key) ∧
          ∀ key ∈ keys, key.Fits := by
  obtain ⟨window, hbounds⟩ := hsound.exists_bounds
  obtain ⟨keys, hmetadata, hnodup, hmem⟩ := hsound.exists_metadata hbounds
  refine ⟨window, keys, hmetadata, hnodup, hmem, fun key hkey => ?_⟩
  obtain ⟨entry, hentry, rfl⟩ := (hmem key).1 hkey
  exact hsound.fits entry hentry

end Reads

end Rocpd

end TimelineStore
