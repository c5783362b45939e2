import TimelineStore.Proofs.Reading.Sets

/-!
# What a source answers to a read

A read succeeds exactly if the trace knows its tracks and the source answers with one row set
for each.  It is `Answered` with these, and they decide what it stores: the chunks that the
trace holds already have no part in it, and the totals that the read ends with depend on the
rows alone.

**Results.**
* `Source.exists_answered_of_ok`, `Source.Answered.result_load`, `Source.Answered.trace_load`:
  a read that succeeds is one that is answered.
* `Source.Answered.acquired`: what each track of an answered read acquires.
* `Source.Answered.eq_sets`: answers to the same tracks are the same.
-/

namespace TimelineStore

namespace Chunk

theorem length_rows
    (strings : StringTable) (chunk : Chunk) :
    (chunk.rows strings).length = chunk.size := by
  unfold rows Records.rows size Records.size
  cases chunk.records <;> simp

variable
  (track : TrackId) (window : Window) (counter : Bool)
  (rows : List Row) (table : StringTable)

theorem size_build :
    (build track window counter rows table).1.size = (rows.filter (Row.fits counter)).length := by
  have hrows := congrArg List.length (rows_build track window counter rows table)
  rwa [length_rows, List.length_map, Row.sortByTime, List.length_mergeSort] at hrows

theorem footprint_build :
    (build track window counter rows table).1.footprint =
      overhead + (rows.filter (Row.fits counter)).length *
        (if counter then Records.sampleBytes else Records.entryBytes) := by
  rw [← size_build track window counter rows table]
  cases counter <;> rfl

end Chunk

namespace Source

/-- The totals of row sets depend on the rows and the descriptors of the tracks alone. -/
theorem totals_storeSets
    (window : Window) :
    ∀ {items others : List (Track × List Row)} (totals : ChunkTotals) (trace other : Trace),
      items.map Course.described = others.map Course.described →
        (storeSets window items totals trace).1 = (storeSets window others totals other).1
  | [], [], _, _, _, _ => rfl
  | (track, rows) :: items, (second, _) :: others, totals, trace, other, hsame => by
      obtain ⟨hhead, htail⟩ := List.cons.inj hsame
      have hdescriptor : track.descriptor = second.descriptor := congrArg Prod.fst hhead
      obtain rfl := congrArg Prod.snd hhead
      have hchunk : totals.add (trace.materialize track window rows).1 =
          totals.add (other.materialize second window rows).1 := by
        simp only [ChunkTotals.add, Trace.materialize, Chunk.size_build, Chunk.footprint_build,
          hdescriptor]
      simp only [storeSets, hchunk]
      exact totals_storeSets window _ _ _ htail

/-- What a source answers when the rows of some tracks are read in a mode. -/
def answers (source : Source) :
    ReadMode → List Descriptor → Window → Except Failure (List (List Row))
  | .batch => source.readTracks
  | .each => oneByOne source.readTrack

/-- The trace knows the tracks of a request, and the source answers with a row set of each. -/
structure Answered
    (source : Source) (mode : ReadMode) (request : Request) (trace : Trace)
    (tracks : List Track) (sets : List (List Row)) : Prop where
  resolves : trace.resolve request.tracks = .ok tracks
  answers : source.answers mode (tracks.map (·.descriptor)) request.window = .ok sets
  length : sets.length = tracks.length

section Answered

variable
  {source : Source} {mode again : ReadMode} {request : Request} {trace kept : Trace}
  {tracks others : List Track} {sets later : List (List Row)} {totals : ChunkTotals}

/-- A read that is answered stores the answer. -/
theorem Answered.load_eq
    (hanswered : source.Answered mode request trace tracks sets) :
    ∃ steps, source.load mode request trace =
      ⟨(storeSets request.window (tracks.zip sets) .zero trace).2, steps,
        .ok (storeSets request.window (tracks.zip sets) .zero trace).1⟩ := by
  obtain ⟨hresolve, hanswers, hlength⟩ := hanswered
  cases mode with
  | batch =>
      have hbatch : source.readTracks (tracks.map (·.descriptor)) request.window = .ok sets :=
        hanswers
      refine ⟨[⟨100.0, s!"{tracks.length} tracks loaded"⟩], ?_⟩
      simp [load, loadBatch, hresolve, hbatch, hlength]
  | each =>
      have heach := (source.oneByOne_descriptors request.window tracks).symm.trans hanswers
      refine ⟨tracks.map (trackStep (trackShare tracks.length)), ?_⟩
      simp only [load, loadEach, hresolve]
      exact source.loadInTurn_of_ok request.window _ .zero trace heach

theorem Answered.result_load
    (hanswered : source.Answered mode request trace tracks sets) :
    (source.load mode request trace).result =
      .ok (storeSets request.window (tracks.zip sets) .zero trace).1 := by
  obtain ⟨steps, hload⟩ := hanswered.load_eq
  rw [hload]

theorem Answered.trace_load
    (hanswered : source.Answered mode request trace tracks sets) :
    (source.load mode request trace).trace =
      (storeSets request.window (tracks.zip sets) .zero trace).2 := by
  obtain ⟨steps, hload⟩ := hanswered.load_eq
  rw [hload]

/-- A read that succeeds was answered. -/
theorem exists_answered_of_ok
    (hread : (source.load mode request trace).result = .ok totals) :
    ∃ tracks sets, source.Answered mode request trace tracks sets := by
  cases hresolve : trace.resolve request.tracks with
  | error failure =>
      cases mode <;> simp [load, loadEach, loadBatch, hresolve, Reading.failed] at hread
  | ok tracks =>
      cases mode with
      | batch =>
          simp only [load, loadBatch, hresolve] at hread
          cases hsets : source.readTracks (tracks.map (·.descriptor)) request.window with
          | error failure => simp [hsets, Reading.failed] at hread
          | ok sets =>
              by_cases hlength : sets.length = tracks.length
              · exact ⟨tracks, sets, hresolve, hsets, hlength⟩
              · simp [hsets, hlength, Reading.failed] at hread
      | each =>
          simp only [load, loadEach, hresolve] at hread
          cases hsets : tracks.mapM fun track =>
              source.readTrack track.descriptor request.window with
          | error failure =>
              rw [source.result_loadInTurn_of_error request.window _ .zero trace hsets] at hread
              cases hread
          | ok sets =>
              refine ⟨tracks, sets, hresolve, ?_, ?_⟩
              · exact (source.oneByOne_descriptors request.window tracks).trans hsets
              · exact (Outcome.mapM_eq_ok_iff.1 hsets).length_eq.symm

/-- A trace whose tracks have the same descriptors gets the same answer. -/
theorem Answered.of_descriptors
    (hanswered : source.Answered mode request trace tracks sets)
    (hresolve : kept.resolve request.tracks = .ok others)
    (hsame : tracks.map (·.descriptor) = others.map (·.descriptor)) :
    source.Answered mode request kept others sets := by
  have hlength := congrArg List.length hsame
  rw [List.length_map, List.length_map] at hlength
  exact ⟨hresolve, hsame ▸ hanswered.answers, hanswered.length.trans hlength⟩

/-- **Answers to the same tracks are the same**, in one mode, and in both modes if the answers
of the source agree. -/
theorem Answered.eq_sets
    (hmode : again = mode ∨ source.Agrees)
    (hfirst : source.Answered mode request trace tracks sets)
    (hagain : source.Answered again request kept others later)
    (hsame : tracks.map (·.descriptor) = others.map (·.descriptor)) :
    later = sets := by
  have hasked := hfirst.answers
  rw [hsame] at hasked
  rcases hmode with rfl | hagrees
  · exact Except.ok.inj (hagain.answers.symm.trans hasked)
  · -- a batch has what the tracks are answered one by one
    have heach {mode : ReadMode} {answer : List (List Row)}
        (hanswer : source.answers mode (others.map (·.descriptor)) request.window = .ok answer)
        (hlength : answer.length = others.length) :
        oneByOne source.readTrack (others.map (·.descriptor)) request.window = .ok answer := by
      cases mode with
      | batch => exact hagrees _ _ _ hanswer (hlength.trans (List.length_map _).symm)
      | each => exact hanswer
    have hlength : sets.length = others.length := by
      rw [hfirst.length, ← List.length_map (·.descriptor), hsame, List.length_map]
    have hone := heach hasked hlength
    rw [heach hagain.answers hagain.length] at hone
    exact Except.ok.inj hone

section Acquired

variable (hanswered : source.Answered mode request trace tracks sets)
include hanswered

theorem Answered.map_id_zip :
    (tracks.zip sets).map (·.1.id) = request.tracks := by
  have hfst : (tracks.zip sets).map Prod.fst = tracks :=
    List.map_fst_zip (Nat.le_of_eq hanswered.length.symm)
  rw [← Trace.map_id_of_resolve hanswered.resolves]
  conv_rhs => rw [← hfst, List.map_map]
  rfl

/-- A requested track acquires the chunk made of the row set at its place in the request. -/
theorem Answered.acquired
    {place : Nat} {id : TrackId}
    (hid : request.tracks[place]? = some id) :
    ∃ rows held chunk, sets[place]? = some rows ∧ trace.track? id = some held ∧
      (source.load mode request trace).trace.track? id = some (held.acquire chunk) ∧
      chunk.MadeOf (source.load mode request trace).trace.strings held request.window rows := by
  obtain ⟨held, hplace, hheld⟩ :
      ∃ held, tracks[place]? = some held ∧ trace.track? id = some held := by
    rw [← Trace.map_id_of_resolve hanswered.resolves, List.getElem?_map] at hid
    obtain ⟨held, hplace, rfl⟩ := Option.map_eq_some_iff.1 hid
    exact ⟨held, hplace,
      Trace.track?_of_resolve hanswered.resolves (List.mem_of_getElem? hplace)⟩
  obtain ⟨hinside, -⟩ := List.getElem?_eq_some_iff.1 hplace
  rw [← hanswered.length] at hinside
  have hrows : sets[place]? = some sets[place] := List.getElem?_eq_getElem hinside
  have hpair : (held, sets[place]) ∈ tracks.zip sets :=
    List.mem_of_getElem? (List.getElem?_zip_eq_some.2 ⟨hplace, hrows⟩)
  have hnodup : ((tracks.zip sets).map (·.1.id)).Nodup := by
    rw [hanswered.map_id_zip]
    exact request.distinct
  have hown : held.id = id := Trace.id_of_track? hheld
  obtain ⟨chunk, hacquired, hmade⟩ := track?_storeSets_of_mem request.window
    (tracks.zip sets) .zero trace hnodup hpair (hown ▸ hheld)
  rw [hanswered.trace_load]
  exact ⟨_, held, chunk, hrows, hheld, hown ▸ hacquired, hmade⟩

theorem Answered.track?_of_not_mem
    {id : TrackId}
    (hid : id ∉ request.tracks) :
    (source.load mode request trace).trace.track? id = trace.track? id := by
  rw [hanswered.trace_load]
  refine track?_storeSets_of_not_mem request.window (tracks.zip sets) .zero trace ?_
  rwa [hanswered.map_id_zip]

theorem Answered.continues :
    trace.Continues (source.load mode request trace).trace := by
  rw [hanswered.trace_load]
  exact continues_storeSets request.window (tracks.zip sets) .zero trace

end Acquired

end Answered

end Source

end TimelineStore
