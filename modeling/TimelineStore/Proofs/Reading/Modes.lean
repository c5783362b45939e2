import TimelineStore.Proofs.Future
import TimelineStore.Proofs.Reading.Store

/-!
# Modes of reading

A batched read asks for all rows first and stores them afterwards; a read track by
track asks for the rows of the next track when those of the last one are stored.  What
is stored does not feed back into what the source answers, so both modes come down to
`Source.storeSets` on the same row sets.

**Results.**
* `Source.loadInTurn_of_ok`: reading track by track stores the row sets of the source.
* `Source.load_of_readTracks`: so does a read in either mode, if all row sets can be read.
* `Source.result_loadEach`: both modes end alike on every source whose batch is read one
  by one.
* `Source.acquires_load_of_ok`, `Source.track?_load_of_not_mem`, `Source.continues_load_of_ok`:
  what a read that succeeds does to the tracks of its trace.
-/

namespace TimelineStore

namespace Source

section Stored

variable
  (source : Source) (window : Window) (share : Float)

/-- The rows of each of some tracks, as a batch that is read one by one asks for them. -/
theorem oneByOne_descriptors
    (tracks : List Track) :
    oneByOne source.readTrack (tracks.map (·.descriptor)) window =
      tracks.mapM fun track => source.readTrack track.descriptor window := by
  unfold oneByOne
  rw [List.mapM_map]
  rfl

/-- If the rows of every track can be read, reading in turn stores them all. -/
theorem loadInTurn_of_ok :
    ∀ {tracks : List Track} {sets : List (List Row)} (totals : ChunkTotals) (trace : Trace),
      tracks.mapM (fun track => source.readTrack track.descriptor window) = .ok sets →
        source.loadInTurn window share tracks totals trace =
          ⟨(storeSets window (tracks.zip sets) totals trace).2,
            tracks.map (trackStep share),
            .ok (storeSets window (tracks.zip sets) totals trace).1⟩
  | [], sets, totals, trace, _ => rfl
  | track :: tracks, sets, totals, trace, hsets => by
      obtain ⟨rows, rest, hrows, hrest, rfl⟩ := Outcome.mapM_cons_eq_ok_iff.1 hsets
      have hlater := loadInTurn_of_ok
        (totals.add (trace.materialize track window rows).1)
        (trace.materialize track window rows).2 hrest
      have hload : source.loadTrack window track trace =
          .ok (trace.materialize track window rows) := by
        simp [loadTrack, hrows, bind, Except.bind, pure, Except.pure]
      simp only [loadInTurn, hload, hlater, Reading.after, List.map_cons, List.zip_cons_cons,
        storeSets]

/-- If the rows of some track cannot be read, reading in turn ends with the failure of the
first such track. -/
theorem result_loadInTurn_of_error
    {failure : Failure} :
    ∀ {tracks : List Track} (totals : ChunkTotals) (trace : Trace),
      tracks.mapM (fun track => source.readTrack track.descriptor window) = .error failure →
        (source.loadInTurn window share tracks totals trace).result = .error failure
  | [], totals, trace, hfailed => by
      cases hfailed
  | track :: tracks, totals, trace, hfailed => by
      rw [List.mapM_cons] at hfailed
      cases hrows : source.readTrack track.descriptor window with
      | error other =>
          rw [hrows] at hfailed
          cases hfailed
          simp [loadInTurn, loadTrack, hrows, bind, Except.bind, Reading.failed]
      | ok rows =>
          have hload : source.loadTrack window track trace =
              .ok (trace.materialize track window rows) := by
            simp [loadTrack, hrows, bind, Except.bind, pure, Except.pure]
          have hrest :
              tracks.mapM (fun track => source.readTrack track.descriptor window) =
                .error failure := by
            cases hsets : tracks.mapM fun track => source.readTrack track.descriptor window with
            | error other =>
                rw [hrows, hsets] at hfailed
                exact hfailed
            | ok sets =>
                rw [hrows, hsets] at hfailed
                cases hfailed
          have hlater := result_loadInTurn_of_error
            (totals.add (trace.materialize track window rows).1)
            (trace.materialize track window rows).2 hrest
          simp only [loadInTurn, hload, Reading.after]
          exact hlater

end Stored

section Modes

variable
  {source : Source} {request : Request} {trace : Trace} {found : List Track}

/-- A read in either mode of tracks whose rows can all be read stores their row sets. -/
theorem load_of_readTracks
    {sets : List (List Row)}
    (mode : ReadMode)
    (hdefault : source.readTracks = oneByOne source.readTrack)
    (hresolve : trace.resolve request.tracks = .ok found)
    (hsets : oneByOne source.readTrack (found.map (·.descriptor)) request.window = .ok sets) :
    (source.load mode request trace).result =
        .ok (storeSets request.window (found.zip sets) .zero trace).1 ∧
      (source.load mode request trace).trace =
        (storeSets request.window (found.zip sets) .zero trace).2 := by
  have heach := (oneByOne_descriptors source request.window found).symm.trans hsets
  cases mode with
  | batch =>
      have hlength : sets.length = found.length :=
        (Outcome.mapM_eq_ok_iff.1 heach).length_eq.symm
      simp [load, loadBatch, hresolve, hdefault, hsets, hlength]
  | each =>
      simp only [load, loadEach, hresolve,
        loadInTurn_of_ok source request.window (trackShare found.length) .zero trace heach,
        and_self]

/-- **Both modes end alike**, with the same totals or with the same failure. -/
theorem result_loadEach
    (hdefault : source.readTracks = oneByOne source.readTrack) :
    (source.loadEach request trace).result = (source.loadBatch request trace).result := by
  cases hresolve : trace.resolve request.tracks with
  | error failure => simp [loadEach, loadBatch, hresolve, Reading.failed]
  | ok found =>
      cases hsets : oneByOne source.readTrack (found.map (·.descriptor)) request.window with
      | ok sets =>
          have hbatch := load_of_readTracks .batch hdefault hresolve hsets
          have heach := load_of_readTracks .each hdefault hresolve hsets
          exact heach.1.trans hbatch.1.symm
      | error failure =>
          have heach := (oneByOne_descriptors source request.window found).symm.trans hsets
          simp only [loadEach, loadBatch, hresolve, hdefault, hsets, Reading.failed]
          exact result_loadInTurn_of_error source request.window _ .zero trace heach

/-- A read that succeeds stored the row sets of the tracks that it asked for. -/
theorem exists_storeSets_of_ok
    {totals : ChunkTotals}
    (mode : ReadMode)
    (hdefault : source.readTracks = oneByOne source.readTrack)
    (hread : (source.load mode request trace).result = .ok totals) :
    ∃ (found : List Track) (sets : List (List Row)),
      trace.resolve request.tracks = .ok found ∧
      oneByOne source.readTrack (found.map (·.descriptor)) request.window = .ok sets ∧
      totals = (storeSets request.window (found.zip sets) .zero trace).1 ∧
      (source.load mode request trace).trace =
        (storeSets request.window (found.zip sets) .zero trace).2 := by
  have hbatch : (source.loadBatch request trace).result = .ok totals := by
    cases mode with
    | batch => exact hread
    | each => exact (result_loadEach hdefault).symm.trans hread
  cases hresolve : trace.resolve request.tracks with
  | error failure => simp [loadBatch, hresolve, Reading.failed] at hbatch
  | ok found =>
      cases hsets : oneByOne source.readTrack (found.map (·.descriptor)) request.window with
      | error failure => simp [loadBatch, hresolve, hdefault, hsets, Reading.failed] at hbatch
      | ok sets =>
          have hload := load_of_readTracks mode hdefault hresolve hsets
          have htotals := hread.symm.trans hload.1
          exact ⟨found, sets, rfl, hsets, Except.ok.inj htotals, hload.2⟩

/-- A read that succeeds leaves the same trace in both modes. -/
theorem trace_loadEach
    {totals : ChunkTotals}
    (hdefault : source.readTracks = oneByOne source.readTrack)
    (hread : (source.loadBatch request trace).result = .ok totals) :
    (source.loadEach request trace).trace = (source.loadBatch request trace).trace := by
  obtain ⟨found, sets, hresolve, hsets, -, htrace⟩ :=
    exists_storeSets_of_ok .batch hdefault hread
  have heach := load_of_readTracks .each hdefault hresolve hsets
  exact heach.2.trans htrace.symm

/-- A read that succeeds leaves the session and the metadata of its trace as they were. -/
theorem continues_load_of_ok
    {totals : ChunkTotals}
    (mode : ReadMode)
    (hdefault : source.readTracks = oneByOne source.readTrack)
    (hread : (source.load mode request trace).result = .ok totals) :
    trace.Continues (source.load mode request trace).trace := by
  obtain ⟨found, sets, -, -, -, htrace⟩ := exists_storeSets_of_ok mode hdefault hread
  rw [htrace]
  exact continues_storeSets request.window (found.zip sets) .zero trace

/-- A read of known tracks succeeds if the rows of all tracks can be read. -/
theorem exists_load_eq_ok
    (mode : ReadMode)
    (hdefault : source.readTracks = oneByOne source.readTrack)
    (hloaded : trace.isLoaded = true)
    (hinside : ∀ id ∈ request.tracks, id.index < trace.trackCount)
    (hrows : ∀ track ∈ trace.tracks,
      ∃ rows, source.readTrack track.descriptor request.window = .ok rows) :
    ∃ totals : ChunkTotals,
      (source.load mode request trace).result = .ok totals ∧
        totals.chunks = request.tracks.length := by
  obtain ⟨found, hresolve⟩ := Trace.exists_resolve hloaded hinside
  have hfound : ∀ track ∈ found,
      ∃ rows, source.readTrack track.descriptor request.window = .ok rows := by
    intro track hmem
    exact hrows track (List.mem_of_getElem? (Trace.track?_of_resolve hresolve hmem))
  obtain ⟨sets, hsets⟩ := Outcome.exists_mapM_eq_ok hfound
  have hbatch := (oneByOne_descriptors source request.window found).trans hsets
  refine ⟨_, (load_of_readTracks mode hdefault hresolve hbatch).1, ?_⟩
  have hlength := (Outcome.mapM_eq_ok_iff.1 hsets).length_eq
  have hcount := (Trace.resolve_eq_ok_iff.1 hresolve).2.length_eq
  rw [chunks_storeSets, List.length_zip, ← hlength, Nat.min_self, hcount]
  exact Nat.zero_add found.length

/-- A requested track acquires the chunk made of the rows that the source answers. -/
theorem acquires_load_of_ok
    {totals : ChunkTotals} {id : TrackId} {held : Track}
    (mode : ReadMode)
    (hdefault : source.readTracks = oneByOne source.readTrack)
    (hread : (source.load mode request trace).result = .ok totals)
    (hid : id ∈ request.tracks)
    (hheld : trace.track? id = some held) :
    ∃ (rows : List Row) (chunk : Chunk),
      source.readTrack held.descriptor request.window = .ok rows ∧
      (source.load mode request trace).trace.track? id = some (held.acquire chunk) ∧
      chunk.MadeOf (source.load mode request trace).trace.strings held request.window rows := by
  obtain ⟨found, sets, hresolve, hsets, -, htrace⟩ :=
    exists_storeSets_of_ok mode hdefault hread
  have heach := (oneByOne_descriptors source request.window found).symm.trans hsets
  have hids := Trace.map_id_of_resolve hresolve
  have hmem : held ∈ found := by
    rw [← hids] at hid
    obtain ⟨track, htrack, rfl⟩ := List.mem_map.1 hid
    have hsame := Trace.track?_of_resolve hresolve htrack
    rw [hheld, Option.some.injEq] at hsame
    rw [hsame]
    exact htrack
  obtain ⟨rows, hrows, hpair⟩ := Outcome.exists_mem_zip heach hmem
  have hlength := (Outcome.mapM_eq_ok_iff.1 heach).length_eq
  have hnodup : ((found.zip sets).map (·.1.id)).Nodup := by
    have hfst : (found.zip sets).map (·.1.id) = found.map (·.id) := by
      rw [← Function.comp_def, ← List.map_map, List.map_fst_zip (by omega)]
    rw [hfst, hids]
    exact request.distinct
  have hown : held.id = id := Trace.id_of_track? hheld
  obtain ⟨chunk, hacquired, hmade⟩ := track?_storeSets_of_mem request.window
    (found.zip sets) .zero trace hnodup hpair (hown ▸ hheld)
  rw [htrace]
  exact ⟨rows, chunk, hrows, hown ▸ hacquired, hmade⟩

/-- A track that was not requested stays as it is. -/
theorem track?_load_of_not_mem
    {totals : ChunkTotals} {id : TrackId}
    (mode : ReadMode)
    (hdefault : source.readTracks = oneByOne source.readTrack)
    (hread : (source.load mode request trace).result = .ok totals)
    (hid : id ∉ request.tracks) :
    (source.load mode request trace).trace.track? id = trace.track? id := by
  obtain ⟨found, sets, hresolve, hsets, -, htrace⟩ :=
    exists_storeSets_of_ok mode hdefault hread
  rw [htrace]
  refine track?_storeSets_of_not_mem request.window (found.zip sets) .zero trace ?_
  intro hmem
  obtain ⟨⟨track, rows⟩, hpair, rfl⟩ := List.mem_map.1 hmem
  rw [← Trace.map_id_of_resolve hresolve] at hid
  exact hid (List.mem_map_of_mem (List.of_mem_zip hpair).1)

end Modes

end Source

/-- What is heard of a reading that succeeded ends with its closing event. -/
theorem Reading.getLast?_events
    {α : Type} {reading : Reading α} {value : α}
    (hresult : reading.result = .ok value)
    (source : String) (text : α → String) :
    (reading.events source text).getLast? = some (Meter.completed source (text value)) := by
  simp [Reading.events, hresult, Meter.finish_succeeded, Meter.start]

end TimelineStore
