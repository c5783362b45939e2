import TimelineStore.Proofs.Request
import TimelineStore.Proofs.Rocpd.Bounds
import TimelineStore.Proofs.Rocpd.Scan

/-!
# Reads of the full window

A read of all tracks over the window of the metadata is meant to return every row.  It
does so only if the ends of the tables reach as far as their starts: the window stops one
past the greatest end, so the rows that start after it are missed.  Such rows exist where
the last rows to start have no end, or end before they start.

**Results.**
* `readsAll_iff_of_bounds`: a full read returns every row if and only if the window of the
  metadata is not empty and every row meets it.
* `readsAll_iff`: that is so if and only if some end is no earlier than any start of a row
  on a track, and no such row starts at the greatest time.
-/

namespace TimelineStore

open Sql

namespace Rocpd

/-- The request made of the window of the metadata and all its tracks is valid, and a read
of it, of all tracks at once or of one after the other, returns every row exactly once, in
the row set of the one track that names the key columns of the row. -/
def Tables.ReadsAll (tables : Tables) (name : String) : Prop :=
  ∃ (metadata : Metadata) (request : Request) (sets : List (List Row)),
    (tables.toSource name).metadata.answer = .ok metadata ∧
      Request.make metadata.window ((List.range metadata.tracks.length).map TrackId.mk) =
        .ok request ∧
      (tables.toSource name).readTracks metadata.tracks request.window = .ok sets ∧
      Source.oneByOne (tables.toSource name).readTrack metadata.tracks request.window =
        .ok sets ∧
      sets.flatten.Perm (tables.entries.map Entry.row) ∧
      ∀ entry ∈ tables.entries, ∃ (index : Nat) (rows : List Row),
        (∀ other descriptor, metadata.tracks[other]? = some descriptor →
          (entry.key.IsNamedBy descriptor ↔ other = index)) ∧
        sets[index]? = some rows ∧ rows.Perm (rowsFor entry.key tables.entries)

/-- Some end is no earlier than the start of any row on a track, where a negative end counts
as zero; and no such row starts at the greatest time that a table can hold. -/
def Tables.EndsCover (tables : Tables) : Prop :=
  ∃ last : Int, .integer last ∈ tables.ends ∧
    ∀ entry ∈ tables.entries,
      entry.start.whole ≤ max last 0 ∧ entry.start.whole < 2 ^ 63 - 1

section Sets

variable {keys : List TrackKey} {entries : List Entry}

/-- Rows given out by distinct keys are given out once each, if every key is among them. -/
theorem flatMap_rowsFor_perm
    (hnodup : keys.Nodup)
    (hall : ∀ entry ∈ entries, entry.key ∈ keys) :
    (keys.flatMap fun key => rowsFor key entries).Perm (entries.map Entry.row) := by
  induction keys generalizing entries with
  | nil =>
      have hnone : entries = [] :=
        List.eq_nil_iff_forall_not_mem.2 fun entry hentry => by simpa using hall entry hentry
      rw [hnone]
      rfl
  | cons key keys ih =>
      obtain ⟨hfresh, hrest⟩ := List.nodup_cons.1 hnodup
      have hothers : ∀ entry ∈ entries.filter (fun entry => !decide (entry.key = key)),
          entry.key ∈ keys := by
        intro entry hentry
        obtain ⟨hmem, hother⟩ := List.mem_filter.1 hentry
        rcases List.mem_cons.1 (hall entry hmem) with hsame | hin
        · simp [hsame] at hother
        · exact hin
      -- the other keys find the same rows among the entries that are left
      have hleft : ∀ other ∈ keys,
          rowsFor other (entries.filter fun entry => !decide (entry.key = key)) =
            rowsFor other entries := by
        intro other hother
        unfold rowsFor
        rw [List.filter_filter]
        refine congrArg _ (List.filter_congr fun entry _ => ?_)
        by_cases hsame : entry.key = other
        · have hne : other ≠ key := fun heq => hfresh (heq ▸ hother)
          simp [hsame, hne]
        · simp [hsame]
      rw [List.flatMap_cons]
      have hsplit := (List.filter_append_perm (fun entry : Entry => decide (entry.key = key))
        entries).map Entry.row
      rw [List.map_append] at hsplit
      refine List.Perm.trans ?_ hsplit
      refine List.Perm.append (List.Perm.refl _) ?_
      have hrests := ih hrest hothers
      rwa [List.flatMap_congr hleft] at hrests

end Sets

section Reads

variable {tables : Tables} {keys : List TrackKey} {window : Window}

/-- Tracks read one after the other are given what they are given at once. -/
theorem Tables.Sound.oneByOne_eq
    (hsound : tables.Sound)
    (name : String)
    (hfits : ∀ key ∈ keys, key.Fits)
    (window : Window) :
    Source.oneByOne (tables.toSource name).readTrack (keys.map TrackKey.descriptor) window =
      .ok (keys.map fun key => rowsFor key (tables.entriesIn window)) := by
  exact Outcome.mapM_map_eq_ok fun key hkey => hsound.readTrack_eq name (hfits key hkey) window

/-- The row sets of all keys together are the rows that meet the window. -/
theorem flatten_rowsFor_perm
    (hnodup : keys.Nodup)
    (hmem : ∀ key, key ∈ keys ↔ ∃ entry ∈ tables.entries, entry.key = key)
    (window : Window) :
    (keys.map fun key => rowsFor key (tables.entriesIn window)).flatten.Perm
      ((tables.entries.filter (Entry.meets window)).map Entry.row) := by
  have hfound := entriesIn_perm tables window
  rw [← List.flatMap_def]
  refine (flatMap_rowsFor_perm hnodup fun entry hentry => ?_).trans (hfound.map Entry.row)
  have hin := (List.mem_filter.1 (hfound.mem_iff.1 hentry)).1
  exact (hmem _).2 ⟨entry, hin, rfl⟩

/-- **A full read returns every row if and only if the window is not empty and every row
meets it.** -/
theorem Tables.Sound.readsAll_iff_of_bounds
    (hsound : tables.Sound)
    (name : String)
    (hsome : tables.entries ≠ [])
    (hbounds : tables.bounds = .ok window) :
    tables.ReadsAll name ↔
      window.isEmpty = false ∧ ∀ entry ∈ tables.entries, entry.meets window = true := by
  obtain ⟨keys, hmetadata, hnodup, hmem⟩ := hsound.exists_metadata hbounds
  have hfits : ∀ key ∈ keys, key.Fits := by
    intro key hkey
    obtain ⟨entry, hentry, rfl⟩ := (hmem key).1 hkey
    exact hsound.fits entry hentry
  have hread : (tables.toSource name).readTracks (keys.map TrackKey.descriptor) window =
      .ok (keys.map fun key => rowsFor key (tables.entriesIn window)) := by
    simp only [Tables.toSource, hsound.read_eq hfits window, reportFailure]
  have hflat := flatten_rowsFor_perm hnodup hmem window
  constructor
  · rintro ⟨metadata, request, sets, hanswer, hmake, hsets, -, hall, -⟩
    have hsame : metadata = ⟨window, keys.map TrackKey.descriptor⟩ :=
      Except.ok.inj (hanswer.symm.trans hmetadata)
    subst hsame
    have hwindow : request.window = window := (Request.parts_of_make hmake).1
    refine ⟨hwindow ▸ request.covers, ?_⟩
    rw [hwindow, hread, Except.ok.injEq] at hsets
    subst hsets
    -- as many rows are read as there are entries, so no entry is missed
    have hlength := (hflat.symm.trans hall).length_eq
    rw [List.length_map, List.length_map] at hlength
    exact List.length_filter_eq_length_iff.1 hlength
  · rintro ⟨hcovers, hmeets⟩
    have hself := List.filter_eq_self.2 hmeets
    have hwhole : (tables.entriesIn window).Perm tables.entries := by
      have hfound := entriesIn_perm tables window
      rwa [hself] at hfound
    rw [hself] at hflat
    have hids : (List.range (keys.map TrackKey.descriptor).length).map TrackId.mk ≠ [] := by
      obtain ⟨entry, hentry⟩ := List.exists_mem_of_ne_nil _ hsome
      have hkey := (hmem _).2 ⟨entry, hentry, rfl⟩
      have hpos := List.length_pos_of_mem hkey
      rw [List.length_map, Ne, List.map_eq_nil_iff, List.range_eq_nil]
      omega
    obtain ⟨request, hmake⟩ := Request.exists_make hcovers hids
    have hwindow := (Request.parts_of_make hmake).1
    refine ⟨_, request, _, hmetadata, hmake, hwindow ▸ hread,
      hwindow ▸ hsound.oneByOne_eq name hfits window, hflat, ?_⟩
    intro entry hentry
    obtain ⟨index, hindex⟩ := List.mem_iff_getElem?.1 ((hmem _).2 ⟨entry, hentry, rfl⟩)
    refine ⟨index, rowsFor entry.key (tables.entriesIn window),
      isNamedBy_iff_of_nodup hnodup hfits hindex, ?_, (hwhole.filter _).map _⟩
    rw [List.getElem?_map, hindex]
    rfl

end Reads

section Ends

variable {tables : Tables}

theorem start_mem_starts (tables : Tables) :
    ∀ entry ∈ tables.entries, entry.start ∈ tables.starts := by
  simp only [Tables.starts, List.flatten_cons, List.flatten_nil, List.append_nil,
    List.mem_append, List.mem_map]
  refine Tables.forall_mem_entries (fun row hrow => ?_) (fun row hrow => ?_) (fun row hrow => ?_)
  · obtain ⟨call, hcall, rfl⟩ := List.mem_map.1 hrow
    exact Or.inl ⟨call, hcall, rfl⟩
  · obtain ⟨dispatch, hdispatch, rfl⟩ := List.mem_map.1 hrow
    exact Or.inr (Or.inl ⟨dispatch, hdispatch, rfl⟩)
  · exact Or.inr (Or.inr ⟨row, (List.mem_filter.1 hrow).1, rfl⟩)

/-- Which entries meet the window of the metadata. -/
theorem Tables.Sound.meets_iff
    {first last : Int} {entry : Entry}
    (hsound : tables.Sound)
    (hlow : 0 ≤ first)
    (hfirst : ∀ start, .integer start ∈ tables.starts → first ≤ start)
    (hlast : last < 2 ^ 63)
    (hentry : entry ∈ tables.entries) :
    entry.meets (boundsOf first last) = true ↔
      entry.start.whole ≤ max last 0 ∧ entry.start.whole < 2 ^ 63 - 1 := by
  have hmem := start_mem_starts tables entry hentry
  obtain ⟨start, hstart, -, hhigh⟩ := (hsound.isTime_of_mem_starts hmem).exists_eq
  rw [hstart] at hmem
  unfold Entry.meets
  rw [hstart]
  exact meets_bounds entry.stop hlow (hfirst start hmem) hhigh hlast

/-- **A full read returns every row if and only if the ends cover the starts.** -/
theorem Tables.readsAll_iff
    (hsound : tables.Sound)
    (name : String)
    (hsome : tables.entries ≠ []) :
    tables.ReadsAll name ↔ tables.EndsCover := by
  obtain ⟨entry, hentry⟩ := List.exists_mem_of_ne_nil _ hsome
  have hstarts : tables.starts ≠ [] := List.ne_nil_of_mem (start_mem_starts tables entry hentry)
  obtain ⟨first, hlow, hhigh, hfirst, ⟨hbounds, hnone⟩ | ⟨last, hbounds, hlast, hmem, hgreatest⟩⟩ :=
    hsound.bounds_cases hstarts
  · -- no row has an end: the window is empty, and there is no request for it
    rw [hsound.readsAll_iff_of_bounds name hsome hbounds]
    constructor
    · rintro ⟨hcovers, -⟩
      simp [Window.isEmpty] at hcovers
    · rintro ⟨last, hlast, -⟩
      cases hnone _ hlast
  · rw [hsound.readsAll_iff_of_bounds name hsome hbounds, isEmpty_boundsOf hhigh hlow hlast]
    constructor
    · rintro ⟨-, hmeets⟩
      exact ⟨last, hmem, fun other hother =>
        (hsound.meets_iff hlow hfirst hlast hother).1 (hmeets other hother)⟩
    · rintro ⟨other, hother, hcover⟩
      have hless := hgreatest other hother
      have hall : ∀ found ∈ tables.entries,
          found.start.whole ≤ max last 0 ∧ found.start.whole < 2 ^ 63 - 1 := by
        intro found hfound
        have hstart := hcover found hfound
        omega
      refine ⟨?_, fun found hfound => (hsound.meets_iff hlow hfirst hlast hfound).2
        (hall found hfound)⟩
      -- the window holds the start of any entry, so it is not empty
      have hstart := hall entry hentry
      have hin := start_mem_starts tables entry hentry
      rw [← (hsound.isTime_of_mem_starts hin).isWord.integer_whole] at hin
      have hfrom := hfirst _ hin
      omega

/-- Two calls of one thread; the second starts after the first has ended. -/
def twoCalls (stop : Cell) : Tables where
  strings := [⟨1, .text "f"⟩]
  calls := [
    ⟨1, .integer 100, .integer 100, .integer 10, .integer 20, .integer 1, .null⟩,
    ⟨2, .integer 100, .integer 100, .integer 30, stop, .integer 1, .null⟩]
  dispatches := []
  samples := none
  links := none
  frames := none
  bare := []

theorem sound_twoCalls
    {stop : Cell}
    (hstop : stop = .null ∨ stop.IsWord) :
    (twoCalls stop).Sound := by
  have hword : (Cell.integer 100).IsWord := .integer (by decide) (by decide)
  have hfirst : SoundEvent (.integer 100) (.integer 100) (.integer 10) (.integer 20) :=
    ⟨hword, hword, .integer (by decide) (by decide), Or.inr (.integer (by decide) (by decide))⟩
  have hsecond : SoundEvent (.integer 100) (.integer 100) (.integer 30) stop :=
    ⟨hword, hword, .integer (by decide) (by decide), hstop⟩
  constructor
  · intro table _
    exact List.not_mem_nil
  · exact List.nodup_singleton _
  · intro row hrow
    rw [List.mem_singleton.1 hrow]
    exact Or.inr (.text "f")
  · intro row hrow
    rcases List.mem_cons.1 hrow with rfl | hrow
    · exact hfirst
    · rw [List.mem_singleton.1 hrow]
      exact hsecond
  · intro row hrow
    cases hrow
  · intro row hrow
    cases hrow

/-- The second call is missed if it has no end, and returned once it ends at 40. -/
theorem readsAll_iff_twoCalls :
    (twoCalls .null).Sound ∧ (twoCalls .null).entries ≠ [] ∧
      ¬(twoCalls .null).ReadsAll "capture.rpd" ∧
        (twoCalls (.integer 40)).ReadsAll "capture.rpd" := by
  have hword : (Cell.integer 40).IsWord := .integer (by decide) (by decide)
  have hopen := sound_twoCalls (Or.inl rfl)
  have hclosed := sound_twoCalls (Or.inr hword)
  have hsome : ∀ stop, (twoCalls stop).entries ≠ [] := fun stop => List.cons_ne_nil _ _
  have hstarts : ∀ stop, (twoCalls stop).entries.map Entry.start = [.integer 10, .integer 30] :=
    fun stop => rfl
  refine ⟨hopen, hsome _, ?_, ?_⟩
  · rw [Tables.readsAll_iff hopen "capture.rpd" (hsome _)]
    rintro ⟨last, hlast, hall⟩
    have hends : (twoCalls .null).ends = [.integer 20, .null] := rfl
    have hvalue : last = 20 := by
      simpa [hends] using hlast
    have hsecond : Cell.integer 30 ∈ (twoCalls .null).entries.map Entry.start := by
      simp [hstarts]
    obtain ⟨entry, hentry, hstart⟩ := List.mem_map.1 hsecond
    have hbound := (hall entry hentry).1
    rw [hstart, hvalue] at hbound
    simp [Cell.whole] at hbound
  · rw [Tables.readsAll_iff hclosed "capture.rpd" (hsome _)]
    have hends : (twoCalls (.integer 40)).ends = [.integer 20, .integer 40] := rfl
    refine ⟨40, by simp [hends], fun entry hentry => ?_⟩
    have hstart := List.mem_map_of_mem (f := Entry.start) hentry
    rw [hstarts] at hstart
    rcases List.mem_cons.1 hstart with hfirst | hstart
    · simp [hfirst, Cell.whole]
    · simp [List.mem_singleton.1 hstart, Cell.whole]

end Ends

end Rocpd

end TimelineStore
