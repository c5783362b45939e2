import TimelineStore.Proofs.Reading.Sets
import TimelineStore.Proofs.Track

/-!
# What a trace undergoes

All that calls and workers do to a trace comes down to a few acts: metadata is loaded, the
rows of a track are stored as a chunk, the answer of a source is kept as detail, chunks and
detail are given up, and the trace is bound to a database.  A trace `Undergoes` acts one
after the other.

Whatever a trace undergoes, it remains the same session: its tracks keep their descriptors,
and it remains loaded and bound once it is.

**Results.**
* `Trace.undergoes_load`, `Trace.undergoes_loadMetadata`, `Trace.undergoes_loadDetail`: the
  acts that reads come down to.
* `Trace.Undergoes.has`, `Trace.Undergoes.isLoaded`, `Trace.Undergoes.loadedWith`,
  `Trace.Undergoes.boundTo`: what no act changes.
* `Trace.resident_perform`: where the chunks of a trace come from.
-/

namespace TimelineStore

namespace Trace

/-- One thing that is done to a trace. -/
inductive Act where
  | load (metadata : Metadata)
  /-- The rows of a track become its chunk over a window. -/
  | store (track : Track) (window : Window) (rows : List Row)
  /-- What a source answers becomes resident detail of an event. -/
  | keep (source : Source) (kind : DetailKind) (event : EventId) (raw : RawDetail)
  | evictAt (start : Timestamp)
  | evictWindow (window : Window)
  | evictAll
  | evictDetail (kind : DetailKind) (event : EventId)
  | evictDetails (kind : DetailKind)
  | bind (database : DatabaseId)

/-- The trace after an act. -/
def perform (trace : Trace) : Act → Trace
  | .load metadata => trace.loadMetadata metadata
  | .store track window rows => (trace.materialize track window rows).2
  | .keep _ _ event raw => trace.putDetail event (.resolve trace.trackOf? raw)
  | .evictAt start => trace.evictAt start
  | .evictWindow window => trace.evictWindow window
  | .evictAll => trace.evictAll
  | .evictDetail kind event => trace.evictDetail kind event
  | .evictDetails kind => trace.evictDetails kind
  | .bind database => { trace with boundTo := some database }

/-- The trace has a track with the identifier and the descriptor of another, whatever
chunks the two hold. -/
def Has (trace : Trace) (track : Track) : Prop :=
  ∃ held, trace.track? track.id = some held ∧ held.descriptor = track.descriptor

/-- The act can be done to the trace: rows are stored of its own tracks, over windows that
cover some time, detail is kept of a loaded trace if it has the kind that was asked for and
the kind applies to the event, and a trace that is bound is bound to no other database. -/
def Admits (trace : Trace) : Act → Prop
  | .store track window _ => trace.Has track ∧ window.isEmpty = false
  | .keep source kind event raw =>
    trace.isLoaded = true ∧ kind.appliesTo event.operation = true ∧
      source.readDetail kind event = .ok raw ∧ raw.kind = kind
  | .bind database => ∀ bound, trace.boundTo = some bound → bound = database
  | _ => True

/-- Acts done to a trace one after the other lead to another. -/
inductive Undergoes (trace : Trace) : List Act → Trace → Prop where
  | refl : trace.Undergoes [] trace
  | snoc {acts : List Act} {middle : Trace} {act : Act} :
      trace.Undergoes acts middle → middle.Admits act →
        trace.Undergoes (acts ++ [act]) (middle.perform act)

namespace Undergoes

variable {trace middle after : Trace} {acts later : List Act}

theorem single
    {act : Act}
    (hadmits : trace.Admits act) :
    trace.Undergoes [act] (trace.perform act) := by
  simpa using snoc .refl hadmits

/-- Nothing changes where no act is done. -/
theorem eq_of_nil
    (hundergoes : trace.Undergoes [] after) :
    after = trace := by
  generalize hnone : ([] : List Act) = acts at hundergoes
  cases hundergoes with
  | refl => rfl
  | snoc _ _ => cases List.append_ne_nil_of_right_ne_nil _ (List.cons_ne_nil _ _) hnone.symm

theorem trans
    (hfirst : trace.Undergoes acts middle)
    (hsecond : middle.Undergoes later after) :
    trace.Undergoes (acts ++ later) after := by
  induction hsecond with
  | refl => simpa using hfirst
  | snoc _ hadmits ih =>
      rw [← List.append_assoc]
      exact ih.snoc hadmits

end Undergoes

section Kept

variable {trace after : Trace} {acts : List Act}

@[simp] theorem id_perform
    (trace : Trace) (act : Act) :
    (trace.perform act).id = trace.id := by
  cases act with
  | load metadata => cases hlayout : trace.layout <;> simp [perform, loadMetadata, hlayout]
  | _ => rfl

theorem isLoaded_perform
    (act : Act)
    (hloaded : trace.isLoaded = true) :
    (trace.perform act).isLoaded = true := by
  cases act with
  | load metadata =>
      obtain ⟨layout, hlayout⟩ := Option.isSome_iff_exists.1 hloaded
      simpa [perform, loadMetadata, hlayout] using hloaded
  | store track window rows => exact (trace.isLoaded_materialize track window rows).trans hloaded
  | evictAt start => exact (trace.isLoaded_mapTracks _ _).trans hloaded
  | evictWindow window => exact (trace.isLoaded_mapTracks _ _).trans hloaded
  | evictAll => exact (trace.isLoaded_mapTracks _ _).trans hloaded
  | _ => exact hloaded

theorem boundTo_perform
    {act : Act} {database : DatabaseId}
    (hadmits : trace.Admits act)
    (hbound : trace.boundTo = some database) :
    (trace.perform act).boundTo = some database := by
  cases act with
  | load metadata => cases hlayout : trace.layout <;> simp [perform, loadMetadata, hlayout, hbound]
  | bind other => exact congrArg some (hadmits database hbound).symm
  | _ => exact hbound

/-- How an act changes tracks: it keeps their names and makes no chunk but one that it
stores. -/
structure Alters (trace : Trace) (act : Act) (change : Track → Track) : Prop where
  id : ∀ held, (change held).id = held.id
  descriptor : ∀ held, (change held).descriptor = held.descriptor
  chunks : ∀ held, ∀ chunk ∈ (change held).shelf.chunks, chunk ∈ held.shelf.chunks ∨
    ∃ stored window rows, act = .store stored window rows ∧ stored.id = held.id ∧
      chunk = (trace.materialize stored window rows).1

theorem Alters.of_less
    {act : Act} {change : Track → Track}
    (hid : ∀ held, (change held).id = held.id)
    (hdescriptor : ∀ held, (change held).descriptor = held.descriptor)
    (hless : ∀ held, ∀ chunk ∈ (change held).shelf.chunks, chunk ∈ held.shelf.chunks) :
    trace.Alters act change :=
  ⟨hid, hdescriptor, fun held chunk hchunk => .inl (hless held chunk hchunk)⟩

/-- Tracks are changed one by one, unless an act is what makes them. -/
theorem tracks_perform
    (trace : Trace) (act : Act) :
    (∃ change, trace.Alters act change ∧
        (trace.perform act).tracks = trace.tracks.map change) ∨
      trace.isLoaded = false ∧ ∃ metadata, act = .load metadata := by
  have hsame (hkept : (trace.perform act).tracks = trace.tracks) :
      ∃ change, trace.Alters act change ∧
        (trace.perform act).tracks = trace.tracks.map change :=
    ⟨fun held => held, .of_less (fun _ => rfl) (fun _ => rfl) fun _ _ hchunk => hchunk,
      by rw [hkept, List.map_id']⟩
  cases act with
  | load metadata =>
      cases hlayout : trace.layout with
      | none => exact .inr ⟨by simp [Trace.isLoaded, hlayout], metadata, rfl⟩
      | some layout => exact .inl (hsame (by simp [perform, loadMetadata, hlayout]))
  | store track window rows =>
      -- only the track that the rows are stored of gets a chunk
      refine .inl ⟨_, ⟨fun held => ?_, fun held => ?_, fun held chunk hchunk => ?_⟩,
        trace.tracks_materialize track window rows⟩
      · split <;> rfl
      · split <;> rfl
      · split at hchunk
        · rename_i hheld
          rcases held.shelf.eq_or_mem_of_mem_insert _ hchunk with hnew | hbefore
          · exact .inr ⟨track, window, rows, rfl, hheld.symm, hnew⟩
          · exact .inl hbefore
        · exact .inl hchunk
  | evictAt start =>
      exact .inl ⟨(·.evictAt start),
        .of_less (fun _ => rfl) (fun _ => rfl) fun _ _ hchunk => (List.mem_filter.1 hchunk).1,
        trace.tracks_mapTracks _ _⟩
  | evictWindow window =>
      exact .inl ⟨(·.evictWindow window),
        .of_less (fun _ => rfl) (fun _ => rfl) fun _ _ hchunk => (List.mem_filter.1 hchunk).1,
        trace.tracks_mapTracks _ _⟩
  | evictAll =>
      exact .inl ⟨Track.evictAll,
        .of_less (fun _ => rfl) (fun _ => rfl) fun _ _ hchunk => absurd hchunk List.not_mem_nil,
        trace.tracks_mapTracks _ _⟩
  | _ => exact .inl (hsame rfl)

/-- A trace that has metadata keeps it, whatever else is loaded into it. -/
theorem LoadedWith.perform
    {metadata : Metadata}
    (act : Act)
    (hloaded : trace.LoadedWith metadata) :
    (trace.perform act).LoadedWith metadata := by
  have hwindow : (trace.perform act).window? = trace.window? := by
    cases act with
    | load other =>
        obtain ⟨layout, hlayout⟩ := Option.isSome_iff_exists.1 hloaded.isLoaded
        simp [Trace.perform, loadMetadata, hlayout]
    | store track window rows => exact trace.window?_materialize track window rows
    | evictAt start => exact trace.window?_mapTracks _ _
    | evictWindow window => exact trace.window?_mapTracks _ _
    | evictAll => exact trace.window?_mapTracks _ _
    | _ => rfl
  refine ⟨hwindow.trans hloaded.1, ?_⟩
  rcases trace.tracks_perform act with ⟨change, halters, htracks⟩ | ⟨hunloaded, -⟩
  · rw [htracks, List.map_map, ← hloaded.2]
    exact List.map_congr_left fun held _ => halters.descriptor held
  · cases hunloaded.symm.trans hloaded.isLoaded

/-- Only binding binds a trace. -/
theorem boundTo_perform_cases
    {act : Act} {database : DatabaseId}
    (hbound : (trace.perform act).boundTo = some database) :
    trace.boundTo = some database ∨ act = .bind database := by
  cases act with
  | load metadata =>
      cases hlayout : trace.layout <;> simp [perform, loadMetadata, hlayout] at hbound <;>
        exact .inl hbound
  | bind other =>
      cases hbound
      exact .inr rfl
  | _ => exact .inl hbound

theorem bind_eq_ok_iff
    {database : DatabaseId} :
    trace.bind database = .ok after ↔
      trace.Admits (.bind database) ∧ after = trace.perform (.bind database) := by
  obtain ⟨id, layout, strings, details, boundTo⟩ := trace
  cases boundTo with
  | none => simp [Trace.bind, binding, Except.map, Admits, perform, eq_comm]
  | some bound =>
      by_cases hsame : bound = database
      · simp [Trace.bind, binding, Except.map, Admits, perform, hsame, eq_comm]
      · simp [Trace.bind, binding, Except.map, Admits, hsame]

/-- A trace that cannot be bound is left as it was: what is written down before the failure stood
there already. -/
theorem binding_of_error
    {database : DatabaseId} {failure : Failure}
    (hfailed : (trace.binding database).1 = .error failure) :
    (trace.binding database).2 = trace := by
  obtain ⟨id, layout, strings, details, boundTo⟩ := trace
  cases boundTo with
  | none => simp [binding] at hfailed
  | some bound => rfl

/-- A track keeps its descriptor, whatever happens to its chunks. -/
theorem exists_track?_perform
    {id : TrackId} {held : Track}
    (act : Act)
    (hheld : trace.track? id = some held) :
    ∃ kept, (trace.perform act).track? id = some kept ∧ kept.descriptor = held.descriptor := by
  rcases trace.tracks_perform act with ⟨change, halters, htracks⟩ | ⟨hunloaded, -⟩
  · refine ⟨change held, ?_, halters.descriptor held⟩
    rw [track?, htracks, List.getElem?_map]
    exact congrArg _ hheld
  · simp [track?, tracks, layout_of_unloaded hunloaded] at hheld

theorem Has.perform
    {track : Track}
    (act : Act)
    (hhas : trace.Has track) :
    (trace.perform act).Has track := by
  obtain ⟨held, hheld, hdescriptor⟩ := hhas
  obtain ⟨kept, hkept, hsame⟩ := exists_track?_perform act hheld
  exact ⟨kept, hkept, hsame.trans hdescriptor⟩

/-- Rows are stored of a track as the trace has it. -/
theorem Admits.descriptor_eq
    {stored track : Track} {window : Window} {rows : List Row}
    (hadmits : trace.Admits (.store stored window rows))
    (htrack : track ∈ (trace.perform (.store stored window rows)).tracks)
    (hid : stored.id = track.id) :
    track.descriptor = stored.descriptor := by
  obtain ⟨kept, hkept, hdescriptor⟩ := hadmits.1.perform (.store stored window rows)
  have hfound := track?_of_mem htrack
  rw [← hid, hkept] at hfound
  rw [← Option.some.inj hfound, hdescriptor]

theorem has_of_track?
    {id : TrackId} {track : Track}
    (htrack : trace.track? id = some track) :
    trace.Has track :=
  ⟨track, by rwa [id_of_track? htrack], rfl⟩

namespace Undergoes

theorem id_eq
    (hundergoes : trace.Undergoes acts after) :
    after.id = trace.id := by
  induction hundergoes with
  | refl => rfl
  | snoc _ _ ih => rw [id_perform, ih]

theorem isLoaded
    (hundergoes : trace.Undergoes acts after)
    (hloaded : trace.isLoaded = true) :
    after.isLoaded = true := by
  induction hundergoes with
  | refl => exact hloaded
  | snoc _ _ ih => exact isLoaded_perform _ ih

theorem loadedWith
    {metadata : Metadata}
    (hundergoes : trace.Undergoes acts after)
    (hloaded : trace.LoadedWith metadata) :
    after.LoadedWith metadata := by
  induction hundergoes with
  | refl => exact hloaded
  | snoc _ _ ih => exact ih.perform _

/-- A trace that is bound remains bound to the same database. -/
theorem boundTo
    {database : DatabaseId}
    (hundergoes : trace.Undergoes acts after)
    (hbound : trace.boundTo = some database) :
    after.boundTo = some database := by
  induction hundergoes with
  | refl => exact hbound
  | snoc _ hadmits ih => exact boundTo_perform hadmits ih

theorem boundTo_cases
    {database : DatabaseId}
    (hundergoes : trace.Undergoes acts after)
    (hbound : after.boundTo = some database) :
    trace.boundTo = some database ∨ .bind database ∈ acts := by
  induction hundergoes with
  | refl => exact .inl hbound
  | snoc _ _ ih =>
      rcases boundTo_perform_cases hbound with hbefore | rfl
      · exact (ih hbefore).imp_right (List.mem_append_left _)
      · exact .inr (List.mem_append_right _ List.mem_cons_self)

theorem has
    {track : Track}
    (hundergoes : trace.Undergoes acts after)
    (hhas : trace.Has track) :
    after.Has track := by
  induction hundergoes with
  | refl => exact hhas
  | snoc _ _ ih => exact ih.perform _

/-- A loaded trace resolves the same identifiers to tracks with the same descriptors. -/
theorem resolve
    {ids : List TrackId} {found : List Track}
    (hundergoes : trace.Undergoes acts after)
    (hresolve : trace.resolve ids = .ok found) :
    ∃ kept, after.resolve ids = .ok kept ∧
      found.map (·.descriptor) = kept.map (·.descriptor) := by
  obtain ⟨hloaded, heach⟩ := resolve_eq_ok_iff.1 hresolve
  have hafter := hundergoes.isLoaded hloaded
  clear hresolve
  induction heach with
  | nil => exact ⟨[], resolve_eq_ok_iff.2 ⟨hafter, .nil⟩, rfl⟩
  | cons htrack _ ih =>
      obtain ⟨kept, hkept, hsame⟩ := ih
      -- the track is still there under its identifier, though its chunks may have changed
      obtain ⟨held, hheld, hdescriptor⟩ := hundergoes.has (has_of_track? htrack)
      rw [id_of_track? htrack] at hheld
      refine ⟨held :: kept,
        resolve_eq_ok_iff.2 ⟨hafter, .cons hheld (resolve_eq_ok_iff.1 hkept).2⟩, ?_⟩
      rw [List.map_cons, List.map_cons, hdescriptor, hsame]

end Undergoes

end Kept

section Residents

variable {trace : Trace}

/-- A chunk that is resident after an act was resident on the same track before, or the act
stored it. -/
theorem resident_perform
    {act : Act} {track : Track} {chunk : Chunk}
    (htrack : track ∈ (trace.perform act).tracks)
    (hchunk : chunk ∈ track.shelf.chunks) :
    (∃ held ∈ trace.tracks, held.id = track.id ∧ held.descriptor = track.descriptor ∧
      chunk ∈ held.shelf.chunks) ∨
    ∃ stored window rows, act = .store stored window rows ∧ stored.id = track.id ∧
      chunk = (trace.materialize stored window rows).1 := by
  rcases trace.tracks_perform act with ⟨change, halters, htracks⟩ | ⟨hunloaded, metadata, rfl⟩
  · rw [htracks] at htrack
    obtain ⟨held, hheld, rfl⟩ := List.mem_map.1 htrack
    rw [halters.id held, halters.descriptor held]
    refine (halters.chunks held chunk hchunk).imp_left fun hbefore => ?_
    exact ⟨held, hheld, rfl, rfl, hbefore⟩
  · have hnone := chunks_loadMetadata hunloaded metadata track htrack
    rw [hnone] at hchunk
    cases hchunk

end Residents

section Reads

/-- The acts that store row sets. -/
def storing (window : Window) (sets : List (Track × List Row)) : List Act :=
  sets.map fun set => .store set.1 window set.2

theorem undergoes_storeSets
    {window : Window}
    (hcovers : window.isEmpty = false) :
    ∀ (sets : List (Track × List Row)) (totals : ChunkTotals) (trace : Trace),
      (∀ set ∈ sets, trace.Has set.1) →
        trace.Undergoes (storing window sets) (Source.storeSets window sets totals trace).2
  | [], _, _, _ => .refl
  | (track, rows) :: sets, totals, trace, hhas => by
      have hfirst : trace.Undergoes [.store track window rows]
          (trace.materialize track window rows).2 :=
        .single ⟨hhas (track, rows) List.mem_cons_self, hcovers⟩
      have hrest : ∀ set ∈ sets, (trace.materialize track window rows).2.Has set.1 := by
        intro set hset
        exact hfirst.has (hhas set (List.mem_cons_of_mem _ hset))
      exact hfirst.trans (undergoes_storeSets hcovers sets _ _ hrest)

/-- **A read of any course stores its row sets.** -/
theorem undergoes_load
    (course : Course) (mode : ReadMode) (request : Request) (trace : Trace) :
    trace.Undergoes (storing request.window (course.sets mode request trace))
      (course.load mode request trace).trace := by
  rw [course.trace_load mode request trace]
  exact undergoes_storeSets request.covers _ _ trace fun set hset =>
    has_of_track? (course.track?_of_mem_sets hset)

theorem undergoes_loadMetadata
    (source : Source) (trace : Trace) :
    ∃ acts, trace.Undergoes acts (source.loadMetadata trace).trace ∧
      ∀ act ∈ acts, ∃ metadata, source.metadata.answer = .ok metadata ∧ act = .load metadata := by
  cases hanswer : source.metadata.answer with
  | error failure => exact ⟨[], by simpa [Source.loadMetadata, hanswer] using .refl, by simp⟩
  | ok metadata =>
      refine ⟨[.load metadata], ?_, by simp⟩
      simp only [Source.loadMetadata, hanswer]
      exact .single trivial

/-- A read of detail keeps what the source answers, unless it fails or finds the detail
resident. -/
theorem undergoes_loadDetail
    (source : Source) (kind : DetailKind) (event : EventId) (trace : Trace) :
    ∃ acts, trace.Undergoes acts (source.loadDetail kind event trace).trace ∧
      ∀ act ∈ acts, ∃ raw, act = .keep source kind event raw := by
  unfold Source.loadDetail
  split
  · exact ⟨[], .refl, by simp⟩
  rename_i hloaded
  split
  · exact ⟨[], .refl, by simp⟩
  rename_i happlies
  split
  · exact ⟨[], .refl, by simp⟩
  cases hanswer : source.readDetail kind event with
  | error failure => exact ⟨[], .refl, by simp⟩
  | ok raw =>
      dsimp only
      split
      · exact ⟨[], .refl, by simp⟩
      · rename_i hkind
        have hadmits : trace.Admits (.keep source kind event raw) :=
          ⟨by simpa using hloaded, by simpa using happlies, hanswer, by simpa using hkind⟩
        exact ⟨_, .single hadmits, by simp⟩

end Reads

end Trace

end TimelineStore
