import TimelineStore.Proofs.Rocpd.Batch
import TimelineStore.Proofs.Rocpd.Events
import TimelineStore.Proofs.Sorting
import TimelineStore.Proofs.Sql.Order

/-!
# Reads and the rows of other tracks

A read of a thread or a queue goes through all rows of its table that meet the window and reads
the key columns of each before it passes over those of other tracks.  Rows of other tracks leave
no trace in what is read, but one of them without a number in a key column ends the read.

**Results.**
* `collect_own`: a collection that reads all keys depends on the rows with a wanted one only.
* `EventTable.scan_holds`: a scan for a key of a table whose rows in the window are all keyed.
* `Tables.readTrack_only_iff`: when a read is the same without the rows of other tracks.
-/

namespace TimelineStore

open Sql

namespace Rocpd

/-- Rows that are passed over can be left out, if their keys are read. -/
theorem collect_own
    {ρ : Type} {key : ρ → Except DatabaseFailure TrackKey} {row : ρ → Except DatabaseFailure Row}
    {wanted : List TrackKey} {own : ρ → Bool} {rows : List ρ}
    (hothers : ∀ selected ∈ rows, own selected = false →
      ∃ other, key selected = .ok other ∧ other ∉ wanted) :
    collect key row wanted rows = collect key row wanted (rows.filter own) := by
  induction rows with
  | nil => rfl
  | cons selected rest ih =>
      obtain ⟨hselected, hrest⟩ := List.forall_mem_cons.1 hothers
      cases hown : own selected with
      | true =>
          rw [List.filter_cons_of_pos hown, collect, collect, ih hrest]
      | false =>
          obtain ⟨other, hother, hpassed⟩ := hselected hown
          rw [List.filter_cons_of_neg (by simp [hown]), ← ih hrest, collect, hother]
          simp only [bind, Except.bind, if_neg hpassed]

/-- Leaving out rows and selecting those of a window go either way round. -/
theorem inWindow_filter
    (window : Window) (p : EventSelection → Bool) (rows : List EventSelection) :
    inWindow window (rows.filter p) = (inWindow window rows).filter p := by
  have hsorted := filter_mergeSort
    (fun a b c => Cell.precedes_trans a.start b.start c.start)
    (fun a b => Cell.precedes_total a.start b.start) p
    (rows.filter fun row => meets window row.start row.stop)
  rw [inWindow, inWindow, hsorted, List.filter_filter, List.filter_filter]
  simp only [Bool.and_comm]

namespace EventSelection

/-- Both key columns hold a number. -/
def isKeyed (row : EventSelection) : Bool :=
  match row.process, row.subprocess with
  | .integer _, .integer _ => true
  | _, _ => false

/-- The key columns hold these numbers. -/
def holds (process subprocess : Int) (row : EventSelection) : Bool :=
  row.process = .integer process && row.subprocess = .integer subprocess

theorem isKeyed_iff
    {row : EventSelection} :
    row.isKeyed = true ↔ ∃ process subprocess, row.holds process subprocess = true := by
  unfold isKeyed holds
  cases row.process <;> cases row.subprocess <;> simp

end EventSelection

theorem mem_inWindow_iff
    {window : Window} {rows : List EventSelection} {row : EventSelection} :
    row ∈ inWindow window rows ↔ row ∈ rows ∧ meets window row.start row.stop = true := by
  rw [inWindow, List.mem_mergeSort, List.mem_filter]

namespace EventTable

variable
  {window : Window} {row : EventSelection} {rows : List EventSelection}
  {process subprocess : Int}

theorem keyOf_of_holds
    (table : EventTable)
    (hholds : row.holds process subprocess = true) :
    table.keyOf row = .ok (table.key process subprocess) := by
  simp only [EventSelection.holds, Bool.and_eq_true, decide_eq_true_eq] at hholds
  rw [keyOf, hholds.1, hholds.2]
  rfl

/-- The key of a row is read exactly if both key columns hold a number. -/
theorem exists_keyOf_iff
    (table : EventTable) :
    (∃ key, table.keyOf row = .ok key) ↔ row.isKeyed = true := by
  constructor
  · rintro ⟨key, hkey⟩
    obtain ⟨process, hprocess, hrest⟩ := Outcome.bind_eq_ok_iff.1 hkey
    obtain ⟨subprocess, hsubprocess, -⟩ := Outcome.bind_eq_ok_iff.1 hrest
    unfold EventSelection.isKeyed
    cases hfirst : row.process <;> simp [hfirst, Cell.readInteger] at hprocess
    cases hsecond : row.subprocess <;> simp [hsecond, Cell.readInteger] at hsubprocess
    rfl
  · intro hkeyed
    obtain ⟨process, subprocess, hholds⟩ := EventSelection.isKeyed_iff.1 hkeyed
    exact ⟨_, table.keyOf_of_holds hholds⟩

/-- **If all rows of the window are keyed, a scan for one key depends on the rows that hold it
only**: on which they are, what they hold and how they are ordered. -/
theorem scan_holds
    (table : EventTable)
    (hinjective : ∀ a b, table.key a b = table.key process subprocess → a = process ∧ b = subprocess)
    (hkeyed : ∀ row ∈ inWindow window rows, row.isKeyed = true) :
    table.scan window [table.key process subprocess] rows =
      table.scan window [table.key process subprocess]
        (rows.filter (EventSelection.holds process subprocess)) := by
  rw [scan, scan, inWindow_filter]
  refine collect_own fun row hrow hother => ?_
  obtain ⟨a, b, hholds⟩ := EventSelection.isKeyed_iff.1 (hkeyed row hrow)
  refine ⟨_, table.keyOf_of_holds hholds, fun hmem => ?_⟩
  obtain ⟨rfl, rfl⟩ := hinjective a b (List.mem_singleton.1 hmem)
  rw [hholds] at hother
  cases hother

/-- A row of the window that is not keyed ends every scan, so what is scanned is keyed. -/
theorem isKeyed_of_scan
    {wanted : List TrackKey} {found : List (TrackKey × Row)}
    (table : EventTable)
    (hscan : table.scan window wanted rows = .ok found) :
    ∀ row ∈ inWindow window rows, row.isKeyed = true := by
  intro row hrow
  obtain ⟨key, hkey, -⟩ := exists_collect_iff.1 ⟨found, hscan⟩ row hrow
  exact table.exists_keyOf_iff.1 ⟨key, hkey⟩

end EventTable

section Tables

/-- The key columns of a row of a table hold the key. -/
def TrackKey.isIn : TrackKey → TableName → Cell → Cell → Bool
  | .thread a b, .calls, first, second => first = .integer a && second = .integer b
  | .queue a b, .dispatches, first, second => first = .integer a && second = .integer b
  | _, _, _, _ => false

/-- The tables without the calls and dispatches of other tracks. -/
def Tables.only (tables : Tables) (key : TrackKey) : Tables :=
  { tables with
    calls := tables.calls.filter fun row => key.isIn .calls row.process row.thread
    dispatches := tables.dispatches.filter fun row => key.isIn .dispatches row.device row.queue }

/-- The rows of a table of events as selected, before any window. -/
def Tables.selections (tables : Tables) : TableName → List EventSelection
  | .calls => tables.callSelections
  | .dispatches => tables.dispatchSelections
  | .samples => []

/-- Every row of the table that meets the window has numbers in its key columns. -/
def Tables.KeyedIn (tables : Tables) (window : Window) (name : TableName) : Prop :=
  ∀ row ∈ tables.selections name, meets window row.start row.stop = true → row.isKeyed = true

variable {tables : Tables} {window : Window} {track : Descriptor} {key : TrackKey}

theorem Tables.callSelections_only
    (tables : Tables) (process thread : Int) :
    (tables.only (.thread process thread)).callSelections =
      tables.callSelections.filter (EventSelection.holds process thread) := by
  rw [callSelections, callSelections, List.filter_map]
  rfl

theorem Tables.dispatchSelections_only
    (tables : Tables) (device queue : Int) :
    (tables.only (.queue device queue)).dispatchSelections =
      tables.dispatchSelections.filter (EventSelection.holds device queue) := by
  rw [dispatchSelections, dispatchSelections, List.filter_map]
  rfl

/-- **A scan over keyed rows is the same without the rows of other tracks.** -/
theorem Tables.scan_only
    (hevents : key.OfEvents)
    (hkeyed : tables.KeyedIn window key.table) :
    tables.scan window [key] key.table = (tables.only key).scan window [key] key.table := by
  have hrows : ∀ row ∈ inWindow window (tables.selections key.table), row.isKeyed = true :=
    fun row hrow => hkeyed row (mem_inWindow_iff.1 hrow).1 (mem_inWindow_iff.1 hrow).2
  cases key with
  | thread process thread =>
      have hinjective : ∀ a b, TrackKey.thread a b = .thread process thread →
          a = process ∧ b = thread := by
        simp
      have hscan : callEvents.scan window [.thread process thread] tables.callSelections =
          callEvents.scan window [.thread process thread]
            (tables.only (.thread process thread)).callSelections := by
        rw [callSelections_only]
        exact callEvents.scan_holds hinjective hrows
      simp only [scan, TrackKey.table, hscan]
      rfl
  | queue device queue =>
      have hinjective : ∀ a b, TrackKey.queue a b = .queue device queue →
          a = device ∧ b = queue := by
        simp
      have hscan : dispatchEvents.scan window [.queue device queue] tables.dispatchSelections =
          dispatchEvents.scan window [.queue device queue]
            (tables.only (.queue device queue)).dispatchSelections := by
        rw [dispatchSelections_only]
        exact dispatchEvents.scan_holds hinjective hrows
      simp only [scan, TrackKey.table, hscan]
      rfl
  | monitor device name => exact absurd rfl hevents

/-- A table that is scanned is keyed in the window. -/
theorem Tables.keyedIn_of_scan
    {name : TableName} {wanted : List TrackKey} {found : List (TrackKey × Row)}
    (hscan : tables.scan window wanted name = .ok found) :
    tables.KeyedIn window name := by
  intro row hrow hmeets
  have hselected := mem_inWindow_iff.2 ⟨hrow, hmeets⟩
  cases name with
  | calls =>
      obtain ⟨-, -, hscan⟩ := Outcome.bind_eq_ok_iff.1 hscan
      exact callEvents.isKeyed_of_scan hscan row hselected
  | dispatches =>
      obtain ⟨-, -, hscan⟩ := Outcome.bind_eq_ok_iff.1 hscan
      exact dispatchEvents.isKeyed_of_scan hscan row hselected
  | samples => cases hrow

section Reads

variable
  (hkey : TrackKey.ofDescriptor track = .ok key)
  (hevents : key.OfEvents)
include hkey hevents

theorem Tables.readOne_only
    (hkeyed : tables.KeyedIn window key.table) :
    tables.readOne track window = (tables.only key).readOne track window := by
  rw [readOne_eq tables window hkey, readOne_eq (tables.only key) window hkey,
    scan_only hevents hkeyed]

omit hevents in
theorem Tables.exists_readOne_error
    (hunkeyed : ¬ tables.KeyedIn window key.table) :
    ∃ failure, tables.readOne track window = .error failure := by
  cases hread : tables.readOne track window with
  | error failure => exact ⟨failure, rfl⟩
  | ok rows =>
      obtain ⟨own, found, hown, hscan⟩ := exists_scan_of_readOne hread
      obtain rfl : own = key := Except.ok.inj (hown.symm.trans hkey)
      exact absurd (keyedIn_of_scan hscan) hunkeyed

/-- **A read is the same without the rows of other tracks** if every row of the window has
numbers in its key columns, failures included; otherwise it fails.  So what is read depends on
the rows of other tracks exactly if one of them in the window has no number in a key column,
and the track's own rows could be read. -/
theorem Tables.readTrack_only_iff
    (tables : Tables) (name : String) (window : Window) :
    (tables.KeyedIn window key.table →
      (tables.toSource name).readTrack track window =
        ((tables.only key).toSource name).readTrack track window) ∧
    (¬ tables.KeyedIn window key.table →
      ∃ failure, (tables.toSource name).readTrack track window = .error failure) ∧
    (((tables.toSource name).readTrack track window).toOption =
        (((tables.only key).toSource name).readTrack track window).toOption ↔
      tables.KeyedIn window key.table ∨
        ∃ failure, ((tables.only key).toSource name).readTrack track window = .error failure) := by
  have hsame : tables.KeyedIn window key.table →
      (tables.toSource name).readTrack track window =
        ((tables.only key).toSource name).readTrack track window :=
    fun hkeyed => congrArg reportFailure (readOne_only hkey hevents hkeyed)
  have hfails : ¬ tables.KeyedIn window key.table →
      ∃ failure, (tables.toSource name).readTrack track window = .error failure := by
    intro hunkeyed
    obtain ⟨failure, hread⟩ := exists_readOne_error hkey hunkeyed
    exact ⟨failure.toFailure, congrArg reportFailure hread⟩
  refine ⟨hsame, hfails, fun hboth => ?_, ?_⟩
  · by_cases hkeyed : tables.KeyedIn window key.table
    · exact Or.inl hkeyed
    · obtain ⟨failure, hread⟩ := hfails hkeyed
      rw [hread] at hboth
      cases honly : ((tables.only key).toSource name).readTrack track window with
      | error other => exact Or.inr ⟨other, rfl⟩
      | ok rows =>
          rw [honly] at hboth
          cases hboth
  · rintro (hkeyed | ⟨failure, honly⟩)
    · rw [hsame hkeyed]
    · by_cases hkeyed : tables.KeyedIn window key.table
      · rw [hsame hkeyed]
      · obtain ⟨other, hread⟩ := hfails hkeyed
        rw [hread, honly]
        rfl

end Reads

section Example

/-- A call without a name, and a later one without a thread. -/
def threadlessCall : Tables :=
  { namelessCall with
    calls := namelessCall.calls ++
      [⟨2, .integer 100, .null, .integer 50, .integer 60, .null, .null⟩] }

/-- The thread of the first call. -/
def firstThread : Descriptor :=
  namelessThread 0 "100"

theorem ofDescriptor_firstThread :
    TrackKey.ofDescriptor firstThread = .ok (.thread 100 100) :=
  ofDescriptor_namelessThread 0 rfl

/-- Without the call of another track the file is that of the first call. -/
theorem readTrack_only_threadlessCall :
    ((threadlessCall.only (.thread 100 100)).toSource "capture.rpd").readTrack firstThread
        ⟨0, 100⟩ = .ok [namelessRow] :=
  reportFailure_eq_ok_iff.2 (readOne_namelessThread 0 rfl)

theorem keyedIn_threadlessCall :
    threadlessCall.KeyedIn ⟨0, 40⟩ .calls := by
  intro row hrow hmeets
  rcases List.mem_cons.1 hrow with rfl | hrow
  · rfl
  · rw [List.mem_singleton.1 hrow] at hmeets
    cases hmeets

theorem not_keyedIn_threadlessCall :
    ¬ threadlessCall.KeyedIn ⟨0, 100⟩ .calls := by
  intro hkeyed
  have hlast := hkeyed _ (List.mem_cons_of_mem _ List.mem_cons_self) rfl
  cases hlast

/-- Before the second call starts it makes no difference; a window that holds it cannot be
read. -/
theorem readTrack_only_iff_threadless :
    (threadlessCall.toSource "capture.rpd").readTrack firstThread ⟨0, 40⟩ =
        ((threadlessCall.only (.thread 100 100)).toSource "capture.rpd").readTrack firstThread
          ⟨0, 40⟩ ∧
      (∃ failure, (threadlessCall.toSource "capture.rpd").readTrack firstThread ⟨0, 100⟩ =
        .error failure) ∧
      ((threadlessCall.only (.thread 100 100)).toSource "capture.rpd").readTrack firstThread
        ⟨0, 100⟩ = .ok [namelessRow] := by
  have hevents : (TrackKey.thread 100 100).OfEvents := nofun
  have hbefore := Tables.readTrack_only_iff ofDescriptor_firstThread hevents threadlessCall
    "capture.rpd" ⟨0, 40⟩
  have hwhole := Tables.readTrack_only_iff ofDescriptor_firstThread hevents threadlessCall
    "capture.rpd" ⟨0, 100⟩
  exact ⟨hbefore.1 keyedIn_threadlessCall, hwhole.2.1 not_keyedIn_threadlessCall,
    readTrack_only_threadlessCall⟩

/-- A row without a thread makes the read of another thread fail. -/
theorem exists_read_disturbed :
    ∃ (tables : Tables) (name : String) (track : Descriptor) (key : TrackKey) (window : Window)
      (rows : List Row) (failure : Failure),
      TrackKey.ofDescriptor track = .ok key ∧ key.OfEvents ∧
        ((tables.only key).toSource name).readTrack track window = .ok rows ∧
        (tables.toSource name).readTrack track window = .error failure := by
  obtain ⟨failure, hread⟩ :=
    Tables.exists_readOne_error ofDescriptor_firstThread not_keyedIn_threadlessCall
  exact ⟨threadlessCall, "capture.rpd", firstThread, .thread 100 100, ⟨0, 100⟩, [namelessRow],
    failure.toFailure, ofDescriptor_firstThread, nofun, readTrack_only_threadlessCall,
    congrArg reportFailure hread⟩

end Example

end Tables

end Rocpd

end TimelineStore
