import TimelineStore.Proofs.Rocpd.Batch
import TimelineStore.Proofs.Rocpd.Scan

/-!
# Calls and dispatches

What the tables say of calls and dispatches does not depend on their samples.  Without
these the tables are sound as soon as the columns of calls and dispatches are, so what
holds of all rows of sound tables holds of the calls and dispatches of any tables whose
events are sound.

An event is known by its row and its operation; rows that have distinct identifiers of
60 bits are told apart by them.

**Results.**
* `Tables.SoundEvents.exists_keys`: which threads and queues are among the tracks.
* `Tables.SoundEvents.readTrack_eq`: what a read of one of them returns.
* `Tables.SoundEvents.callAt?_eq`, `Tables.SoundEvents.dispatchAt?_eq`: the row of an event.
-/

namespace TimelineStore

open Sql

namespace Rocpd

section Soundness

/-- Distinct row numbers that an event has room for. -/
structure Identified (ids : List Int) : Prop where
  nodup : ids.Nodup
  low : ∀ id ∈ ids, 0 ≤ id
  high : ∀ id ∈ ids, id < rowLimit

/-- The tables of strings, of calls and of dispatches have their columns, and these have the
types of their schema; every call and every dispatch has its own identifier, a start and an
end.  Of samples nothing is asked. -/
structure Tables.SoundEvents (tables : Tables) : Prop where
  complete : ∀ table ∈ rowTables, table ∉ tables.bare
  distinct : (tables.strings.map StringRow.id).Nodup
  strings : ∀ row ∈ tables.strings, row.string = .null ∨ row.string.IsText
  calls : ∀ row ∈ tables.calls, SoundEvent row.process row.thread row.start row.stop
  dispatches : ∀ row ∈ tables.dispatches, SoundEvent row.device row.queue row.start row.stop
  callIds : Identified (tables.calls.map CallRow.id)
  dispatchIds : Identified (tables.dispatches.map DispatchRow.id)
  callStops : ∀ row ∈ tables.calls, row.stop.IsTime
  dispatchStops : ∀ row ∈ tables.dispatches, row.stop.IsTime

/-- The tables without their samples. -/
def Tables.withoutSamples (tables : Tables) : Tables :=
  { tables with samples := none }

variable {tables : Tables}

theorem Tables.SoundEvents.withoutSamples
    (hsound : tables.SoundEvents) :
    tables.withoutSamples.Sound where
  complete := hsound.complete
  distinct := hsound.distinct
  strings := hsound.strings
  calls := hsound.calls
  dispatches := hsound.dispatches
  samples := List.forall_mem_nil _

theorem mem_entries_withoutSamples_iff
    {entry : Entry} :
    entry ∈ tables.withoutSamples.entries ↔
      (∃ row ∈ tables.calls, tables.callEntry row = entry) ∨
        ∃ row ∈ tables.dispatches, tables.dispatchEntry row = entry := by
  have hnone : tables.withoutSamples.deviceSamples = [] := rfl
  rw [Tables.mem_entries_iff, hnone]
  simp only [List.not_mem_nil, false_and, exists_false, or_false]
  rfl

end Soundness

section Rows

variable {tables : Tables}

theorem find?_id_eq
    {ρ : Type} {id : ρ → Int} {rows : List ρ} {row : ρ}
    (hnodup : (rows.map id).Nodup)
    (hrow : row ∈ rows) :
    rows.find? (fun other => Sql.Cell.integer (id other) = Sql.Cell.integer (id row)) =
      some row := by
  induction rows with
  | nil => cases hrow
  | cons first rest ih =>
      rw [List.map_cons, List.nodup_cons] at hnodup
      rcases List.mem_cons.1 hrow with rfl | hrest
      · simp
      · have hother : id first ≠ id row := by
          intro hsame
          exact hnodup.1 (hsame ▸ List.mem_map_of_mem hrest)
        rw [List.find?_cons_of_neg (by simpa using hother)]
        exact ih hnodup.2 hrest

/-- The event of a row of a table, as an event row names it. -/
def eventIn (operation : Operation) (id : Int) : EventId :=
  .ofRow (wordOf id) operation

theorem toNat_wordOf
    {id : Int}
    (hlow : 0 ≤ id)
    (hhigh : id < rowLimit) :
    (wordOf id).toNat = id.toNat := by
  have hbound : id < 0x1000000000000000 := hhigh
  rw [wordOf, UInt64.ofInt, UInt64.toNat_ofNat']
  omega

/-- The identifier of a row is read back from its event. -/
theorem rowCell_eventIn
    {id : Int}
    (operation : Operation)
    (hlow : 0 ≤ id)
    (hhigh : id < rowLimit) :
    rowCell (eventIn operation id) = .integer id := by
  have hsmall : id.toNat < rowLimit := by omega
  have hval : (eventIn operation id).row.val = id.toNat := by
    rw [eventIn, EventId.ofRow, Fin.val_ofNat, toNat_wordOf hlow hhigh, Nat.mod_eq_of_lt hsmall]
  rw [rowCell, hval, Int.toNat_of_nonneg hlow]

/-- **The event of a call is found as that call.** -/
theorem Tables.SoundEvents.callAt?_eq
    {row : CallRow}
    (hsound : tables.SoundEvents)
    (hrow : row ∈ tables.calls) :
    tables.callAt? (rowCell (eventIn .launch row.id)) = some row := by
  have hid := List.mem_map_of_mem (f := CallRow.id) hrow
  rw [rowCell_eventIn _ (hsound.callIds.low _ hid) (hsound.callIds.high _ hid)]
  exact find?_id_eq hsound.callIds.nodup hrow

/-- **The event of a dispatch is found as that dispatch.** -/
theorem Tables.SoundEvents.dispatchAt?_eq
    {row : DispatchRow}
    (hsound : tables.SoundEvents)
    (hrow : row ∈ tables.dispatches) :
    tables.dispatchAt? (rowCell (eventIn .dispatch row.id)) = some row := by
  have hid := List.mem_map_of_mem (f := DispatchRow.id) hrow
  rw [rowCell_eventIn _ (hsound.dispatchIds.low _ hid) (hsound.dispatchIds.high _ hid)]
  exact find?_id_eq hsound.dispatchIds.nodup hrow

end Rows

section Tracks

variable {tables : Tables} {name : String} {metadata : Metadata}

/-- A key of threads or of queues. -/
def TrackKey.OfEvents (key : TrackKey) : Prop :=
  key.table ≠ .samples

theorem category_of_describe
    {category : Category} {column : String} {pair : Sql.Cell × Sql.Cell} {track : Descriptor}
    (hdescribe : describe category column pair = .ok track) :
    track.category = category := by
  obtain ⟨process, -, hrest⟩ := Outcome.bind_eq_ok_iff.1 hdescribe
  cases hrest
  rfl

/-- The stages of reading metadata, where all of them succeed. -/
theorem exists_stages
    (hmetadata : (tables.toSource name).metadata.answer = .ok metadata) :
    ∃ threads queues monitors, tables.threads = .ok threads ∧ tables.queues = .ok queues ∧
      tables.monitors = .ok monitors ∧ metadata.tracks = threads ++ (queues ++ monitors) := by
  have hread : tables.metadata.answer = .ok metadata := hmetadata
  unfold Tables.metadata Tables.stages at hread
  cases hbounds : tables.bounds with
  | error failure =>
      rw [hbounds] at hread
      cases hread
  | ok window =>
      cases hthreads : tables.threads with
      | error failure =>
          rw [hbounds, hthreads] at hread
          cases hread
      | ok threads =>
          cases hqueues : tables.queues with
          | error failure =>
              rw [hbounds, hthreads, hqueues] at hread
              cases hread
          | ok queues =>
              cases hmonitors : tables.monitors with
              | error failure =>
                  rw [hbounds, hthreads, hqueues, hmonitors] at hread
                  cases hread
              | ok monitors =>
                  rw [hbounds, hthreads, hqueues, hmonitors] at hread
                  cases hread
                  refine ⟨threads, queues, monitors, rfl, rfl, rfl, ?_⟩
                  simp

/-- **The threads and queues among the tracks are those of the keys of calls and dispatches,
each once**; all other tracks are counters. -/
theorem Tables.SoundEvents.exists_keys
    (hsound : tables.SoundEvents)
    (hmetadata : (tables.toSource name).metadata.answer = .ok metadata) :
    ∃ (keys : List TrackKey) (monitors : List Descriptor),
      metadata.tracks = keys.map TrackKey.descriptor ++ monitors ∧
        (∀ track ∈ monitors, track.category = .counter) ∧ keys.Nodup ∧
        (∀ key, key ∈ keys ↔ ∃ entry ∈ tables.withoutSamples.entries, entry.key = key) ∧
          ∀ key ∈ keys, key.Fits ∧ key.OfEvents := by
  obtain ⟨threads, queues, monitors, hthreads, hqueues, hmonitors, htracks⟩ :=
    exists_stages hmetadata
  obtain ⟨threadKeys, hthreadKeys, hthreadsNodup, hthread⟩ := hsound.withoutSamples.exists_threads
  obtain ⟨queueKeys, hqueueKeys, hqueuesNodup, hqueue⟩ := hsound.withoutSamples.exists_queues
  obtain rfl := Except.ok.inj (hthreads.symm.trans hthreadKeys)
  obtain rfl := Except.ok.inj (hqueues.symm.trans hqueueKeys)
  have hmem : ∀ key, key ∈ threadKeys ++ queueKeys ↔
      ∃ entry ∈ tables.withoutSamples.entries, entry.key = key := by
    intro key
    simp only [List.mem_append, hthread, hqueue, mem_entries_withoutSamples_iff, or_and_right,
      exists_or, exists_exists_and_eq_and]
    rfl
  refine ⟨threadKeys ++ queueKeys, monitors, by simp [htracks], ?_, ?_, hmem, ?_⟩
  · intro track htrack
    obtain ⟨pair, -, hdescribe⟩ := Outcome.exists_of_mem_values hmonitors htrack
    exact category_of_describe hdescribe
  · refine List.nodup_append.2 ⟨hthreadsNodup, hqueuesNodup, ?_⟩
    rintro key hkey other hother rfl
    obtain ⟨_, _, rfl⟩ := (hthread key).1 hkey
    obtain ⟨_, _, habsurd⟩ := (hqueue _).1 hother
    cases habsurd
  · intro key hkey
    obtain ⟨entry, hentry, rfl⟩ := (hmem key).1 hkey
    refine ⟨hsound.withoutSamples.fits entry hentry, ?_⟩
    rcases mem_entries_withoutSamples_iff.1 hentry with ⟨row, -, rfl⟩ | ⟨row, -, rfl⟩ <;> nofun

/-- A read of a thread or a queue returns the rows of the window with its key. -/
theorem Tables.SoundEvents.readTrack_eq
    {key : TrackKey}
    (hsound : tables.SoundEvents)
    (name : String)
    (hfits : key.Fits)
    (hevents : key.OfEvents)
    (window : Window) :
    (tables.toSource name).readTrack key.descriptor window =
      .ok (rowsFor key (tables.withoutSamples.entriesIn window)) := by
  have hkey := TrackKey.ofDescriptor_descriptor hfits
  -- the samples are not read, whether there are any or not
  have hscan : tables.scan window [key] key.table =
      tables.withoutSamples.scan window [key] key.table := by
    cases key with
    | thread process thread => rfl
    | queue device queue => rfl
    | monitor device name => exact absurd rfl hevents
  have hread : tables.readOne key.descriptor window =
      tables.withoutSamples.readOne key.descriptor window := by
    rw [Tables.readOne_eq tables window hkey, Tables.readOne_eq tables.withoutSamples window hkey,
      hscan]
  rw [← hsound.withoutSamples.readTrack_eq name hfits window]
  exact congrArg reportFailure hread

end Tracks

end Rocpd

end TimelineStore
