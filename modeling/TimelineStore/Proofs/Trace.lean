import TimelineStore.Proofs.Outcome
import TimelineStore.Trace

/-!
# Traces by their tracks

What operations on a trace do to the track with an identifier.  A trace is
`LoadedWith` metadata when it has the window and the descriptors of the metadata,
whatever chunks its tracks hold.
-/

namespace TimelineStore

namespace Trace

/-- The window and the descriptors of the trace are those of the metadata. -/
def LoadedWith (trace : Trace) (metadata : Metadata) : Prop :=
  trace.window? = some metadata.window ∧
    trace.tracks.map (·.descriptor) = metadata.tracks

section Loaded

variable {trace : Trace} {metadata : Metadata}

/-- A trace that has a window is loaded. -/
theorem isLoaded_of_window?
    {window : Window}
    (hwindow : trace.window? = some window) :
    trace.isLoaded = true := by
  unfold window? at hwindow
  unfold Trace.isLoaded
  cases hlayout : trace.layout with
  | none => simp [hlayout] at hwindow
  | some layout => rfl

theorem LoadedWith.isLoaded
    (hloaded : trace.LoadedWith metadata) :
    trace.isLoaded = true :=
  isLoaded_of_window? hloaded.1

theorem LoadedWith.trackCount
    (hloaded : trace.LoadedWith metadata) :
    trace.trackCount = metadata.tracks.length := by
  rw [← hloaded.2, List.length_map, Trace.trackCount]

/-- A track has the descriptor at its position in the metadata. -/
theorem LoadedWith.descriptor
    {id : TrackId} {track : Track}
    (hloaded : trace.LoadedWith metadata)
    (htrack : trace.track? id = some track) :
    metadata.tracks[id.index]? = some track.descriptor := by
  rw [← hloaded.2, List.getElem?_map]
  exact congrArg (Option.map _) htrack

theorem layout_of_unloaded
    (hunloaded : trace.isLoaded = false) :
    trace.layout = none := by
  cases hlayout : trace.layout with
  | none => rfl
  | some layout => simp [Trace.isLoaded, hlayout] at hunloaded

/-- A trace that is not loaded yet has the metadata that is loaded into it. -/
theorem loadedWith_loadMetadata
    (hunloaded : trace.isLoaded = false)
    (metadata : Metadata) :
    (trace.loadMetadata metadata).LoadedWith metadata := by
  have hnone := layout_of_unloaded hunloaded
  constructor
  · simp [loadMetadata, hnone, window?, Layout.ofMetadata]
  · refine List.ext_getElem? fun index => ?_
    simp only [loadMetadata, hnone, tracks, Layout.ofMetadata, Option.map_some, Option.getD_some,
      List.getElem?_map, List.getElem?_mapIdx, Option.map_map]
    exact Option.map_id'

/-- Loading metadata makes no chunk. -/
theorem chunks_loadMetadata
    (hunloaded : trace.isLoaded = false)
    (metadata : Metadata) :
    ∀ track ∈ (trace.loadMetadata metadata).tracks, track.shelf.chunks = [] := by
  have hnone := layout_of_unloaded hunloaded
  intro track hmem
  simp only [loadMetadata, hnone, tracks, Layout.ofMetadata, Option.map_some, Option.getD_some,
    List.mem_mapIdx] at hmem
  obtain ⟨index, _, rfl⟩ := hmem
  rfl

end Loaded

/-- A trace is what its window, its tracks and the rest of it are. -/
theorem eq_of_parts
    {trace other : Trace}
    (hid : trace.id = other.id)
    (hwindow : trace.window? = other.window?)
    (htracks : trace.tracks = other.tracks)
    (hstrings : trace.strings = other.strings)
    (hdetails : trace.details = other.details)
    (hbound : trace.boundTo = other.boundTo) :
    trace = other := by
  have hlayout : trace.layout = other.layout := by
    unfold window? at hwindow
    unfold tracks at htracks
    cases hfirst : trace.layout with
    | none => cases hsecond : other.layout <;> simp [hfirst, hsecond] at hwindow ⊢
    | some layout =>
        cases hsecond : other.layout with
        | none => simp [hfirst, hsecond] at hwindow
        | some held =>
            obtain ⟨window, tracks, numbered⟩ := layout
            simp only [hfirst, hsecond, Option.map_some, Option.getD_some,
              Option.some.injEq] at hwindow htracks
            simp only [Option.some.injEq]
            subst hwindow htracks
            rfl
  obtain ⟨id, layout, strings, details, boundTo⟩ := trace
  simp only at hid hlayout hstrings hdetails hbound
  rw [hid, hlayout, hstrings, hdetails, hbound]

section Lookup

variable {trace : Trace} {id : TrackId} {track : Track}

/-- A track is found under its own identifier. -/
theorem id_of_track?
    (htrack : trace.track? id = some track) :
    track.id = id := by
  unfold track? tracks at htrack
  cases hlayout : trace.layout with
  | none => simp [hlayout] at htrack
  | some layout =>
      simp only [hlayout, Option.map_some, Option.getD_some] at htrack
      obtain ⟨hinside, rfl⟩ := List.getElem?_eq_some_iff.1 htrack
      exact layout.numbered id.index hinside

theorem track?_of_mem
    (hmem : track ∈ trace.tracks) :
    trace.track? track.id = some track := by
  obtain ⟨index, hindex⟩ := List.mem_iff_getElem?.1 hmem
  have htrack : trace.track? ⟨index⟩ = some track := hindex
  rwa [id_of_track? htrack]

theorem track?_of_lt
    (hinside : id.index < trace.trackCount) :
    ∃ track, trace.track? id = some track :=
  ⟨_, List.getElem?_eq_getElem hinside⟩

/-- A trace resolves identifiers exactly to the tracks that it finds under them. -/
theorem resolve_eq_ok_iff
    {ids : List TrackId} {found : List Track} :
    trace.resolve ids = .ok found ↔
      trace.isLoaded = true ∧
        List.Forall₂ (fun id track => trace.track? id = some track) ids found := by
  cases hlayout : trace.layout with
  | none => simp [resolve, isLoaded, hlayout]
  | some layout =>
      have htracks : trace.tracks = layout.tracks := by
        simp [tracks, hlayout]
      simp only [resolve, isLoaded, hlayout, Option.isSome_some, true_and, Outcome.mapM_eq_ok_iff]
      refine iff_of_eq (congrArg (List.Forall₂ · ids found) ?_)
      funext id track
      rw [track?, htracks]
      cases layout.tracks[id.index]? <;> simp

theorem exists_resolve
    {ids : List TrackId}
    (hloaded : trace.isLoaded = true)
    (hinside : ∀ id ∈ ids, id.index < trace.trackCount) :
    ∃ found, trace.resolve ids = .ok found := by
  induction ids with
  | nil => exact ⟨[], resolve_eq_ok_iff.2 ⟨hloaded, .nil⟩⟩
  | cons id ids ih =>
      obtain ⟨rest, hrest⟩ := ih fun other hmem => hinside other (List.mem_cons_of_mem id hmem)
      obtain ⟨track, htrack⟩ := track?_of_lt (hinside id List.mem_cons_self)
      exact ⟨track :: rest,
        resolve_eq_ok_iff.2 ⟨hloaded, .cons htrack (resolve_eq_ok_iff.1 hrest).2⟩⟩

/-- Resolved tracks come in the order in which they were asked for. -/
theorem map_id_of_resolve
    {ids : List TrackId} {found : List Track}
    (hresolve : trace.resolve ids = .ok found) :
    found.map (·.id) = ids := by
  have heach := (resolve_eq_ok_iff.1 hresolve).2
  clear hresolve
  induction heach with
  | nil => rfl
  | cons htrack _ ih => rw [List.map_cons, id_of_track? htrack, ih]

theorem track?_of_resolve
    {ids : List TrackId} {found : List Track} {track : Track}
    (hresolve : trace.resolve ids = .ok found)
    (hmem : track ∈ found) :
    trace.track? track.id = some track := by
  have heach := (resolve_eq_ok_iff.1 hresolve).2
  clear hresolve
  induction heach with
  | nil => cases hmem
  | cons htrack _ ih =>
      rcases List.mem_cons.1 hmem with rfl | hmem
      · rw [id_of_track? htrack]
        exact htrack
      · exact ih hmem

/-- A trace that finds the same tracks resolves to them. -/
theorem resolve_of_track?_eq
    {other : Trace} {ids : List TrackId} {found : List Track}
    (hloaded : other.isLoaded = trace.isLoaded)
    (hsame : ∀ id ∈ ids, other.track? id = trace.track? id)
    (hresolve : trace.resolve ids = .ok found) :
    other.resolve ids = .ok found := by
  obtain ⟨hbefore, heach⟩ := resolve_eq_ok_iff.1 hresolve
  refine resolve_eq_ok_iff.2 ⟨hloaded.trans hbefore, ?_⟩
  clear hresolve
  induction heach with
  | nil => exact .nil
  | cons htrack _ ih =>
      exact .cons ((hsame _ List.mem_cons_self).trans htrack)
        (ih fun other hmem => hsame other (List.mem_cons_of_mem _ hmem))

end Lookup

section Materialize

variable
  (trace : Trace) (track : Track) (window : Window) (rows : List Row)

theorem tracks_materialize :
    (trace.materialize track window rows).2.tracks =
      trace.tracks.map fun other =>
        if other.id = track.id then other.acquire (trace.materialize track window rows).1
        else other := by
  unfold tracks
  cases hlayout : trace.layout with
  | none => simp [materialize, hlayout]
  | some layout => simp [materialize, hlayout, Layout.modify, Layout.map]

theorem track?_materialize
    (id : TrackId) :
    (trace.materialize track window rows).2.track? id =
      (trace.track? id).map fun other =>
        if other.id = track.id then other.acquire (trace.materialize track window rows).1
        else other := by
  unfold track?
  rw [tracks_materialize, List.getElem?_map]

theorem track?_materialize_self
    {held : Track}
    (hheld : trace.track? track.id = some held) :
    (trace.materialize track window rows).2.track? track.id =
      some (held.acquire (trace.materialize track window rows).1) := by
  rw [track?_materialize, hheld]
  simp [id_of_track? hheld]

theorem track?_materialize_of_ne
    {id : TrackId}
    (hne : id ≠ track.id) :
    (trace.materialize track window rows).2.track? id = trace.track? id := by
  rw [track?_materialize]
  cases hheld : trace.track? id with
  | none => rfl
  | some held => simp [id_of_track? hheld, hne]

theorem isLoaded_materialize :
    (trace.materialize track window rows).2.isLoaded = trace.isLoaded := by
  simp [materialize, isLoaded]

theorem window?_materialize :
    (trace.materialize track window rows).2.window? = trace.window? := by
  cases hlayout : trace.layout with
  | none => simp [materialize, window?, hlayout]
  | some layout => simp [materialize, window?, hlayout, Layout.modify, Layout.map]

theorem descriptors_materialize :
    (trace.materialize track window rows).2.tracks.map (·.descriptor) =
      trace.tracks.map (·.descriptor) := by
  rw [tracks_materialize, List.map_map]
  refine List.map_congr_left fun other _ => ?_
  simp only [Function.comp_apply]
  split <;> rfl

end Materialize

section MapTracks

variable
  (trace : Trace) (change : Track → Track) (keeps : ∀ track, (change track).id = track.id)

@[simp] theorem tracks_mapTracks :
    (trace.mapTracks change keeps).tracks = trace.tracks.map change := by
  unfold tracks
  cases hlayout : trace.layout with
  | none => simp [mapTracks, hlayout]
  | some layout => simp [mapTracks, hlayout, Layout.map]

@[simp] theorem isLoaded_mapTracks :
    (trace.mapTracks change keeps).isLoaded = trace.isLoaded := by
  simp [mapTracks, isLoaded]

@[simp] theorem window?_mapTracks :
    (trace.mapTracks change keeps).window? = trace.window? := by
  cases hlayout : trace.layout with
  | none => simp [mapTracks, window?, hlayout]
  | some layout => simp [mapTracks, window?, hlayout, Layout.map]

end MapTracks

end Trace

end TimelineStore
