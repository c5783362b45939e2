import TimelineStore.Proofs.Rocpd.Events
import TimelineStore.Proofs.Trace

/-!
# Where an event stands

An event is named by its row and its operation, and its track by a category and two texts.
The texts of a key name one track of the metadata only, and of all reads over windows that
hold the start of an event it is the reads of this track that return it.

**Results.**
* `Tables.SoundEvents.exists_standsAt`: every call and every dispatch stands on one track.
* `Trace.find?_eq_of_unique`: a loaded trace finds the track that the texts name.
-/

namespace TimelineStore

open Sql

section Lookup

variable {trace : Trace} {metadata : Metadata}

/-- Texts that name one of the descriptors only find the track with this descriptor. -/
theorem Trace.find?_eq_of_unique
    {category : Category} {process subprocess : String} {index : Nat}
    (hloaded : trace.LoadedWith metadata)
    (hinside : index < metadata.tracks.length)
    (hunique : ∀ other descriptor, metadata.tracks[other]? = some descriptor →
      (descriptor.names category process subprocess = true ↔ other = index)) :
    trace.find? category process subprocess = some ⟨index⟩ := by
  have hnames : ∀ (id : TrackId) (track : Track), trace.track? id = some track →
      (track.descriptor.names category process subprocess = true ↔ id.index = index) :=
    fun id track htrack => hunique id.index track.descriptor (hloaded.descriptor htrack)
  obtain ⟨track, htrack⟩ : ∃ track, trace.track? ⟨index⟩ = some track :=
    Trace.track?_of_lt (hloaded.trackCount ▸ hinside)
  have hsome : (trace.tracks.find? (·.descriptor.names category process subprocess)).isSome := by
    rw [List.find?_isSome]
    exact ⟨track, List.mem_of_getElem? htrack, (hnames _ _ htrack).2 rfl⟩
  obtain ⟨found, hfound⟩ := Option.isSome_iff_exists.1 hsome
  have hid := Trace.track?_of_mem (List.mem_of_find?_eq_some hfound)
  have hnamed := List.find?_some hfound
  have hindex := (hnames _ _ hid).1 hnamed
  rw [Trace.find?, hfound, Option.map_some]
  exact congrArg (fun index => some (TrackId.mk index)) hindex

end Lookup

namespace Rocpd

/-- A read of the track over the window returns the event. -/
def Yields (source : Source) (track : Descriptor) (window : Window) (event : EventRow) : Prop :=
  ∃ rows, source.readTrack track window = .ok rows ∧ .event event ∈ rows

/-- The event stands on the track at a position: over windows that hold its start a read of
this track returns it, and no read of any track returns another event of its name. -/
structure StandsAt (source : Source) (metadata : Metadata) (index : Nat)
    (event : EventRow) : Prop where
  inside : index < metadata.tracks.length
  yields : ∀ window : Window, window.contains event.time = true →
    ∀ other track, metadata.tracks[other]? = some track →
      ∀ found : EventRow,
        EventId.ofRow found.id found.operation = .ofRow event.id event.operation →
          (Yields source track window found ↔ other = index ∧ found = event)

section Names

variable {tables : Tables} {entry other : Entry} {event found : EventRow}

theorem eventIn_inj
    {operation : Operation} {first second : Int} {ids : List Int}
    (hids : Identified ids)
    (hfirst : first ∈ ids)
    (hsecond : second ∈ ids)
    (hsame : eventIn operation first = eventIn operation second) :
    first = second := by
  have hcells := congrArg rowCell hsame
  rw [rowCell_eventIn _ (hids.low _ hfirst) (hids.high _ hfirst),
    rowCell_eventIn _ (hids.low _ hsecond) (hids.high _ hsecond)] at hcells
  exact Sql.Cell.integer.inj hcells

/-- **An event is known by its name**: no two rows of calls and dispatches have the same. -/
theorem Tables.SoundEvents.eq_of_name
    (hsound : tables.SoundEvents)
    (hentry : entry ∈ tables.withoutSamples.entries)
    (hother : other ∈ tables.withoutSamples.entries)
    (hevent : entry.row = .event event)
    (hfound : other.row = .event found)
    (hname : EventId.ofRow found.id found.operation = .ofRow event.id event.operation) :
    other = entry := by
  have hoperation := congrArg EventId.operation hname
  rcases mem_entries_withoutSamples_iff.1 hentry with ⟨row, hrow, rfl⟩ | ⟨row, hrow, rfl⟩ <;>
    rcases mem_entries_withoutSamples_iff.1 hother with ⟨next, hnext, rfl⟩ | ⟨next, hnext, rfl⟩ <;>
      obtain rfl := Row.event.inj hevent <;> obtain rfl := Row.event.inj hfound
  · have hcall : tables.callAt? (rowCell (eventIn .launch next.id)) = some row :=
      (congrArg (fun event => tables.callAt? (rowCell event)) hname).trans (hsound.callAt?_eq hrow)
    rw [Option.some.inj ((hsound.callAt?_eq hnext).symm.trans hcall)]
  · cases hoperation
  · cases hoperation
  · have hdispatch : tables.dispatchAt? (rowCell (eventIn .dispatch next.id)) = some row :=
      (congrArg (fun event => tables.dispatchAt? (rowCell event)) hname).trans
        (hsound.dispatchAt?_eq hrow)
    rw [Option.some.inj ((hsound.dispatchAt?_eq hnext).symm.trans hdispatch)]

end Names

section Reads

variable {tables : Tables} {name : String} {metadata : Metadata} {window : Window}

theorem meets_of_contains
    {entry : Entry}
    (htime : entry.start.IsTime)
    (hbound : entry.start.whole < greatestTime)
    (hcontains : window.contains entry.start.time = true) :
    entry.meets window = true := by
  rw [Window.contains_iff, UInt64.le_iff_toNat_le, UInt64.lt_iff_toNat_lt,
    toNat_time (Or.inr htime.isWord)] at hcontains
  obtain ⟨start, hstart, hlow, -⟩ := htime.exists_eq
  rw [hstart] at hbound hcontains
  simp only [Entry.meets, meets, hstart, timeCell, Sql.Cell.integer_isLess_integer,
    Sql.Cell.integer_isAtLeast_integer, Bool.and_eq_true, Bool.or_eq_true, decide_eq_true_iff,
    Sql.Cell.whole] at hbound hcontains ⊢
  omega

theorem toRow_ne_event
    {row : SampleRow} {event : EventRow} :
    row.toRow ≠ .ok (.event event) := by
  intro hrow
  obtain ⟨time, -, hrow⟩ := Outcome.bind_eq_ok_iff.1 hrow
  obtain ⟨value, -, hrow⟩ := Outcome.bind_eq_ok_iff.1 hrow
  cases hrow

/-- A read of a counter returns no event. -/
theorem not_yields_of_counter
    {track : Descriptor}
    (hcounter : track.category = .counter)
    (event : EventRow) :
    ¬ Yields (tables.toSource name) track window event := by
  rintro ⟨rows, hread, hevent⟩
  have hone := reportFailure_eq_ok_iff.1 hread
  obtain ⟨key, found, hkey, hscan⟩ := Tables.exists_scan_of_readOne hone
  have hmonitor : key.table = .samples := by
    rw [TrackKey.ofDescriptor, hcounter] at hkey
    obtain ⟨device, -, hkey⟩ := Outcome.bind_eq_ok_iff.1 hkey
    cases hkey
    rfl
  rw [Tables.readOne_eq tables window hkey, hscan] at hone
  obtain rfl : rowsWith key found = rows := Except.ok.inj hone
  obtain ⟨pair, hpair, hvalue⟩ := List.mem_map.1 hevent
  rw [hmonitor] at hscan
  obtain ⟨-, -, hcollect⟩ := Outcome.bind_eq_ok_iff.1 hscan
  obtain ⟨selected, -, hrow⟩ := exists_of_mem_collect hcollect pair (List.mem_filter.1 hpair).1
  rw [hvalue] at hrow
  exact toRow_ne_event hrow

theorem category_ne_of_isNamedBy
    {key : TrackKey} {descriptor : Descriptor}
    (hevents : key.OfEvents)
    (hnamed : key.IsNamedBy descriptor) :
    descriptor.category ≠ .counter := by
  cases key with
  | thread process thread =>
      rw [(names_iff.1 hnamed).1]
      nofun
  | queue device queue =>
      rw [(names_iff.1 hnamed).1]
      nofun
  | monitor device name => exact absurd rfl hevents

/-- A read of a track over a window that holds the start of an event returns the event if its
key is that of the track, and no other of its name. -/
theorem Tables.SoundEvents.yields_iff
    {key : TrackKey} {entry : Entry} {event found : EventRow}
    (hsound : tables.SoundEvents)
    (hfits : key.Fits)
    (hevents : key.OfEvents)
    (hentry : entry ∈ tables.withoutSamples.entries)
    (hevent : entry.row = .event event)
    (hbound : entry.start.whole < greatestTime)
    (hcontains : window.contains event.time = true)
    (hname : EventId.ofRow found.id found.operation = .ofRow event.id event.operation) :
    Yields (tables.toSource name) key.descriptor window found ↔
      entry.key = key ∧ found = event := by
  have hread := hsound.readTrack_eq name hfits hevents window
  constructor
  · rintro ⟨rows, hrows, hfound⟩
    obtain rfl := Except.ok.inj (hrows.symm.trans hread)
    obtain ⟨other, hother, rfl, hrow⟩ := mem_rowsFor_iff.1 hfound
    obtain rfl := hsound.eq_of_name hentry (mem_entries_of_mem_entriesIn hother) hevent hrow hname
    exact ⟨rfl, Row.event.inj (hrow.symm.trans hevent)⟩
  · rintro ⟨rfl, rfl⟩
    have htime : entry.start.time = found.time := by
      rw [← tables.withoutSamples.time_entry entry hentry, hevent]
      rfl
    have hmeets := meets_of_contains (hsound.withoutSamples.isTime_start entry hentry) hbound
      (htime ▸ hcontains)
    have hin := (entriesIn_perm _ window).mem_iff.2 (List.mem_filter.2 ⟨hentry, hmeets⟩)
    exact ⟨_, hread, mem_rowsFor_iff.2 ⟨entry, hin, rfl, hevent⟩⟩

/-- **Every call and every dispatch stands on one track**, the one that the texts of its key
name. -/
theorem Tables.SoundEvents.exists_standsAt
    {entry : Entry} {event : EventRow}
    (hsound : tables.SoundEvents)
    (hmetadata : (tables.toSource name).metadata.answer = .ok metadata)
    (hentry : entry ∈ tables.withoutSamples.entries)
    (hevent : entry.row = .event event)
    (hbound : entry.start.whole < greatestTime) :
    ∃ index, StandsAt (tables.toSource name) metadata index event ∧
      ∀ other descriptor, metadata.tracks[other]? = some descriptor →
        (entry.key.IsNamedBy descriptor ↔ other = index) := by
  obtain ⟨keys, monitors, htracks, hmonitors, hnodup, hmem, hkeys⟩ := hsound.exists_keys hmetadata
  have hkey := (hmem entry.key).2 ⟨entry, hentry, rfl⟩
  obtain ⟨index, hindex⟩ := List.mem_iff_getElem?.1 hkey
  have hinside := (List.getElem?_eq_some_iff.1 hindex).1
  -- a track is that of a key of calls or dispatches, or a counter
  have hcases : ∀ other descriptor, metadata.tracks[other]? = some descriptor →
      (∃ key, keys[other]? = some key ∧ key.descriptor = descriptor) ∨
        other ≠ index ∧ descriptor.category = .counter := by
    intro other descriptor hother
    rw [htracks] at hother
    by_cases hless : other < (keys.map TrackKey.descriptor).length
    · rw [List.getElem?_append_left hless, List.getElem?_map, Option.map_eq_some_iff] at hother
      exact Or.inl hother
    · rw [List.getElem?_append_right (by omega)] at hother
      refine Or.inr ⟨?_, hmonitors _ (List.mem_of_getElem? hother)⟩
      rw [List.length_map] at hless
      omega
  refine ⟨index, ⟨?_, ?_⟩, ?_⟩
  · rw [htracks, List.length_append, List.length_map]
    omega
  · intro window hcontains other track hother found hname
    rcases hcases other track hother with ⟨key, hkeyAt, rfl⟩ | ⟨hne, hcounter⟩
    · obtain ⟨hfits, hevents⟩ := hkeys key (List.mem_of_getElem? hkeyAt)
      rw [hsound.yields_iff hfits hevents hentry hevent hbound hcontains hname]
      refine and_congr_left' ⟨?_, ?_⟩
      · rintro rfl
        exact (List.getElem?_inj (List.getElem?_eq_some_iff.1 hkeyAt).1 hnodup).1
          (hkeyAt.trans hindex.symm)
      · rintro rfl
        exact Option.some.inj (hindex.symm.trans hkeyAt)
    · exact ⟨fun hyields => absurd hyields (not_yields_of_counter hcounter found),
        fun hsame => absurd hsame.1 hne⟩
  · intro other descriptor hother
    rcases hcases other descriptor hother with ⟨key, hkeyAt, rfl⟩ | ⟨hne, hcounter⟩
    · refine isNamedBy_iff_of_nodup hnodup (fun key hkey => (hkeys key hkey).1) hindex other _ ?_
      rw [List.getElem?_map, hkeyAt]
      rfl
    · refine ⟨fun hnamed => ?_, fun hsame => absurd hsame hne⟩
      exact absurd hcounter (category_ne_of_isNamedBy (hkeys _ hkey).2 hnamed)

end Reads

end Rocpd

end TimelineStore
