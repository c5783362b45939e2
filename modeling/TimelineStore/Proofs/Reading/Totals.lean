import TimelineStore.Proofs.Job
import TimelineStore.Proofs.Reading.Sets
import TimelineStore.Proofs.Request
import TimelineStore.Proofs.Track

/-!
# The totals of a read

A read adds its totals up while it stores one chunk after another.  An aggregate of the trace
walks the tracks afterwards and takes what each of them acquired last.  No track is requested
twice, so what a track acquired last is the chunk that the read made for it, and both come to
the same.

**Results.**
* `Source.totals_storeSets_eq`, `Source.map_lastChunk?_storeSets`: the chunks that are made are
  those that are added up, and those that the tracks acquired last.
* `Course.exists_sets_eq_of_ok`: a read that succeeds stores a row set for each of its tracks.
* `Course.aggregate_of_ok`: the totals of a read are the aggregate of what it left.
-/

namespace TimelineStore

namespace Source

variable (window : Window)

/-- The chunks that are made when row sets are stored. -/
def chunksOf : List (Track × List Row) → Trace → List Chunk
  | [], _ => []
  | (track, rows) :: items, trace =>
    let (chunk, next) := trace.materialize track window rows
    chunk :: chunksOf items next

theorem length_chunksOf :
    ∀ (items : List (Track × List Row)) (trace : Trace),
      (chunksOf window items trace).length = items.length
  | [], _ => rfl
  | (track, rows) :: items, trace => by
      simp only [chunksOf, List.length_cons, length_chunksOf items]

/-- Every chunk has the window of the read. -/
theorem window_of_mem_chunksOf
    {chunk : Chunk} :
    ∀ {items : List (Track × List Row)} {trace : Trace},
      chunk ∈ chunksOf window items trace → chunk.window = window
  | (track, rows) :: items, trace, hmem => by
      rcases List.mem_cons.1 hmem with rfl | hmem
      · exact Chunk.window_build ..
      · exact window_of_mem_chunksOf hmem

/-- The chunks that are made are added to the totals. -/
theorem totals_storeSets_eq :
    ∀ (items : List (Track × List Row)) (totals : ChunkTotals) (trace : Trace),
      (storeSets window items totals trace).1 =
        (chunksOf window items trace).foldl ChunkTotals.add totals
  | [], _, _ => rfl
  | (track, rows) :: items, totals, trace => by
      simp only [storeSets, chunksOf, List.foldl_cons]
      exact totals_storeSets_eq items _ _

theorem chunks_foldl_add
    (chunks : List Chunk) (totals : ChunkTotals) :
    (chunks.foldl ChunkTotals.add totals).chunks = totals.chunks + chunks.length := by
  induction chunks generalizing totals with
  | nil => rfl
  | cons chunk chunks ih =>
      have hone : (totals.add chunk).chunks = totals.chunks + 1 := rfl
      rw [List.foldl_cons, ih, hone, List.length_cons, Nat.add_assoc, Nat.add_comm 1]

/-- **Each track has acquired the chunk last that was made for it**, since what is stored
afterwards is of other tracks. -/
theorem map_lastChunk?_storeSets :
    ∀ (items : List (Track × List Row)) (totals : ChunkTotals) (trace : Trace),
      (items.map (·.1.id)).Nodup →
        (∀ item ∈ items, ∃ held, trace.track? item.1.id = some held) →
          (items.map fun item =>
            ((storeSets window items totals trace).2.track? item.1.id).bind Track.lastChunk?) =
              (chunksOf window items trace).map some
  | [], _, _, _, _ => rfl
  | (track, rows) :: items, totals, trace, hnodup, hknown => by
      rw [List.map_cons, List.nodup_cons] at hnodup
      obtain ⟨hfresh, hnodup⟩ := hnodup
      let made := trace.materialize track window rows
      obtain ⟨held, hheld⟩ := hknown (track, rows) List.mem_cons_self
      have hacquired : (storeSets window items (totals.add made.1) made.2).2.track? track.id =
          some (held.acquire made.1) :=
        (track?_storeSets_of_not_mem window items _ _ hfresh).trans
          (trace.track?_materialize_self track window rows hheld)
      have hstill : ∀ item ∈ items, ∃ held, made.2.track? item.1.id = some held := by
        intro item hitem
        have hother : item.1.id ≠ track.id := fun hsame =>
          hfresh (hsame ▸ List.mem_map_of_mem (f := fun item : Track × List Row => item.1.id) hitem)
        rw [trace.track?_materialize_of_ne track window rows hother]
        exact hknown item (List.mem_cons_of_mem _ hitem)
      have hrest := map_lastChunk?_storeSets items (totals.add made.1) made.2 hnodup hstill
      simp only [storeSets, chunksOf, List.map_cons]
      refine List.cons_eq_cons.2 ⟨?_, hrest⟩
      rw [hacquired, Option.bind_some, Track.lastChunk?_acquire]

end Source

namespace Course

variable (course : Course)

theorem sets_eq_of_loadInTurn
    (window : Window) (share : Float) :
    ∀ {place : Nat} {tracks : List Track} {totals sum : ChunkTotals} {trace : Trace},
      (course.loadInTurn window share place tracks totals trace).result = .ok sum →
        (course.setsInTurn window place tracks).map Prod.fst = tracks ∧
          (Source.storeSets window (course.setsInTurn window place tracks) totals trace).1 = sum
  | _, [], _, _, _, hread => ⟨rfl, Except.ok.inj hread⟩
  | place, track :: tracks, totals, sum, trace, hread => by
      cases hrows : course.rows window place track with
      | error failure => simp [loadInTurn, hrows, Reading.failed] at hread
      | ok rows =>
          simp only [loadInTurn, hrows, Reading.after] at hread
          obtain ⟨htracks, hsum⟩ := sets_eq_of_loadInTurn window share hread
          simp only [setsInTurn, hrows, List.map_cons, htracks, Source.storeSets]
          exact ⟨trivial, hsum⟩

/-- A read that succeeds stores a row set for each of its tracks, and ends with the totals of
what it stores. -/
theorem exists_sets_eq_of_ok
    {mode : ReadMode} {request : Request} {trace : Trace} {totals : ChunkTotals}
    (hread : (course.load mode request trace).result = .ok totals) :
    ∃ tracks, trace.resolve request.tracks = .ok tracks ∧
      (course.sets mode request trace).map Prod.fst = tracks ∧
      (Source.storeSets request.window (course.sets mode request trace) .zero trace).1 =
        totals := by
  cases hresolve : trace.resolve request.tracks with
  | error failure =>
      cases mode <;> simp [load, loadEach, loadBatch, hresolve, Reading.failed] at hread
  | ok tracks =>
      refine ⟨tracks, rfl, ?_⟩
      cases mode with
      | each =>
          simp only [load, loadEach, hresolve] at hread
          simp only [sets, hresolve]
          exact course.sets_eq_of_loadInTurn request.window _ hread
      | batch =>
          simp only [load, loadBatch, hresolve] at hread
          simp only [sets, hresolve, setsAtOnce]
          cases hcheckpoint : course.checkpoint 0 with
          | error failure => simp [hcheckpoint, Reading.failed] at hread
          | ok =>
              simp only [hcheckpoint, Source.loadBatch, hresolve] at hread
              cases hsets : (course.source 0).readTracks (tracks.map (·.descriptor))
                  request.window with
              | error failure => simp [hsets, Reading.failed] at hread
              | ok answer =>
                  simp only [hsets] at hread
                  by_cases hlength : answer.length = tracks.length
                  · simp only [hlength, ne_eq, not_true_eq_false, if_false,
                      Except.ok.injEq] at hread
                    simp only [hlength, if_true]
                    exact ⟨List.map_fst_zip (Nat.le_of_eq hlength.symm), hread⟩
                  · simp [hlength, Reading.failed] at hread

/-- **The totals of a read are the aggregate of what it left.**  The read may have any course:
its source may answer otherwise each time it is asked, and it may be in the middle of being
asked to stop.  If it succeeds, then an aggregate over its tracks comes to its totals, these
count the distinct tracks that were named, and each of them has acquired a chunk of exactly
the window of the request last. -/
theorem aggregate_of_ok
    {mode : ReadMode} {window : Window} {ids : List TrackId} {request : Request} {trace : Trace}
    {totals : ChunkTotals}
    (hmake : Request.make window ids = .ok request)
    (hread : (course.load mode request trace).result = .ok totals) :
    let after := (course.load mode request trace).trace
    after.aggregate request.tracks = totals ∧
      totals.chunks = ids.toFinset.card ∧
      ∀ id ∈ ids, ∃ track chunk, after.track? id = some track ∧
        track.lastChunk? = some chunk ∧ chunk.window = request.window := by
  obtain ⟨tracks, hresolve, htracks, htotals⟩ := course.exists_sets_eq_of_ok hread
  have hids : (course.sets mode request trace).map (·.1.id) = request.tracks := by
    rw [← Trace.map_id_of_resolve hresolve, ← htracks, List.map_map]
    rfl
  have hlast := Source.map_lastChunk?_storeSets request.window (course.sets mode request trace)
    .zero trace (hids ▸ request.distinct)
    fun item hitem => ⟨item.1, course.track?_of_mem_sets hitem⟩
  have hwalk : (request.tracks.map fun id =>
      ((course.load mode request trace).trace.track? id).bind Track.lastChunk?) =
        (Source.chunksOf request.window (course.sets mode request trace) trace).map some := by
    rw [← hlast, ← hids, List.map_map, course.trace_load]
    rfl
  refine ⟨?_, ?_, fun id hid => ?_⟩
  · have hchunks : (request.tracks.filterMap fun id =>
        ((course.load mode request trace).trace.track? id).bind Track.lastChunk?) =
          Source.chunksOf request.window (course.sets mode request trace) trace := by
      have hkept := congrArg (List.filterMap id) hwalk
      simpa [List.filterMap_map] using hkept
    rw [Trace.aggregate, hchunks, ChunkTotals.ofChunks, ← Source.totals_storeSets_eq, htotals]
  · rw [← htotals, Source.totals_storeSets_eq, Source.chunks_foldl_add, Source.length_chunksOf,
      ← List.length_map (·.1.id), hids, Request.length_tracks_of_make hmake]
    exact Nat.zero_add _
  · rw [← mem_firstOccurrences, ← (Request.parts_of_make hmake).2] at hid
    have hmem := hwalk ▸ List.mem_map_of_mem (f := fun id =>
      ((course.load mode request trace).trace.track? id).bind Track.lastChunk?) hid
    obtain ⟨chunk, hchunk, hfound⟩ := List.mem_map.1 hmem
    obtain ⟨track, htrack, hlastChunk⟩ := Option.bind_eq_some_iff.1 hfound.symm
    exact ⟨track, chunk, htrack, hlastChunk, Source.window_of_mem_chunksOf _ hchunk⟩

section Example

open Session (capture loaded both)

/-- The capture, which has lost its rows when it is asked for the second time. -/
def fading : Course :=
  ⟨fun _ => .ok (), fun place =>
    if place = 0 then capture.toSource
    else { capture.toSource with readTrack := fun _ _ => .ok [] }⟩

theorem result_load_fading :
    (fading.load .each both loaded).result = .ok ⟨2, 1, 160⟩ := by
  have hresolve : loaded.resolve both.tracks = .ok [queue, thread] := rfl
  have hqueue : fading.rows both.window 0 queue =
      .ok [.event ⟨3, .dispatch, 12, 9, "kernel", "f"⟩] := rfl
  have hthread : fading.rows both.window 1 thread = .ok [] := rfl
  simp only [load, loadEach, hresolve, loadInTurn, hqueue, hthread, Reading.after]
  cbv

/-- Three tracks are named, of which two are one. -/
theorem aggregate_of_ok_fading :
    let after := (fading.load .each both loaded).trace
    Request.make ⟨12, 20⟩ [⟨1⟩, ⟨0⟩, ⟨1⟩] = .ok both ∧
      (fading.load .each both loaded).result = .ok ⟨2, 1, 160⟩ ∧
      after.aggregate both.tracks = ⟨2, 1, 160⟩ ∧
      ∃ track chunk, after.track? ⟨0⟩ = some track ∧ track.lastChunk? = some chunk ∧
        chunk.window = ⟨12, 20⟩ := by
  have hmake : Request.make ⟨12, 20⟩ [⟨1⟩, ⟨0⟩, ⟨1⟩] = .ok both := by decide
  obtain ⟨htotals, -, hlast⟩ := fading.aggregate_of_ok hmake result_load_fading
  exact ⟨hmake, result_load_fading, htotals, hlast ⟨0⟩ (by decide)⟩

end Example

end Course

end TimelineStore
