import TimelineStore.Proofs.Reading.Failed

/-!
# What a read stores

A read gets row sets one after the other, or all of them at once, and stores those that it
gets, whether it succeeds in the end or not.  `Course.sets` lists them, each with its track;
storing them is all that a read does to its trace.

**Results.**
* `Course.trace_load`: a read of any course leaves what storing its row sets leaves.
* `Course.track?_of_mem_sets`: the tracks that rows are stored of are those of the trace.
* `Course.described_sets`, `Course.sets_subset_of_ok`: what row sets depend on.
-/

namespace TimelineStore

/-- A batch that has a row set for each track has what the tracks are answered one by one. -/
def Source.Agrees (source : Source) : Prop :=
  ∀ (descriptors : List Descriptor) (window : Window) (sets : List (List Row)),
    source.readTracks descriptors window = .ok sets → sets.length = descriptors.length →
      Source.oneByOne source.readTrack descriptors window = .ok sets

namespace Course

section Sets

variable (course : Course)

/-- The row sets that reading in turn gets before it fails, from a place on. -/
def setsInTurn (window : Window) : Nat → List Track → List (Track × List Row)
  | _, [] => []
  | place, track :: tracks =>
    match course.rows window place track with
    | .error _ => []
    | .ok rows => (track, rows) :: setsInTurn window (place + 1) tracks

/-- The row sets of a batch; a batch that fails or misses a set counts for nothing. -/
def setsAtOnce (window : Window) (tracks : List Track) : List (Track × List Row) :=
  match course.checkpoint 0, (course.source 0).readTracks (tracks.map (·.descriptor)) window with
  | .ok (), .ok sets => if sets.length = tracks.length then tracks.zip sets else []
  | _, _ => []

/-- The row sets that a read stores, each with its track. -/
def sets (mode : ReadMode) (request : Request) (trace : Trace) : List (Track × List Row) :=
  match trace.resolve request.tracks, mode with
  | .error _, _ => []
  | .ok tracks, .each => course.setsInTurn request.window 0 tracks
  | .ok tracks, .batch => course.setsAtOnce request.window tracks

theorem trace_loadInTurn
    (window : Window) (share : Float) :
    ∀ (place : Nat) (tracks : List Track) (totals : ChunkTotals) (trace : Trace),
      (course.loadInTurn window share place tracks totals trace).trace =
        (Source.storeSets window (course.setsInTurn window place tracks) totals trace).2
  | _, [], _, _ => rfl
  | place, track :: tracks, totals, trace => by
      cases hrows : course.rows window place track with
      | error failure => simp only [loadInTurn, setsInTurn, hrows, Reading.failed, Source.storeSets]
      | ok rows =>
          simp only [loadInTurn, setsInTurn, hrows, Reading.after, Source.storeSets]
          exact trace_loadInTurn window share (place + 1) tracks _ _

theorem trace_loadBatch
    {request : Request} {trace : Trace} {tracks : List Track}
    (hresolve : trace.resolve request.tracks = .ok tracks) :
    (course.loadBatch request trace).trace =
      (Source.storeSets request.window (course.setsAtOnce request.window tracks) .zero
        trace).2 := by
  simp only [loadBatch, hresolve, setsAtOnce]
  cases course.checkpoint 0 with
  | error failure => rfl
  | ok =>
      simp only [Source.loadBatch, hresolve]
      cases (course.source 0).readTracks (tracks.map (·.descriptor)) request.window with
      | error failure => rfl
      | ok sets =>
          by_cases hlength : sets.length = tracks.length
          · simp [hlength]
          · simp [hlength, Reading.failed, Source.storeSets]

/-- **A read does nothing to its trace but store the row sets that it gets.** -/
theorem trace_load
    (mode : ReadMode) (request : Request) (trace : Trace) :
    (course.load mode request trace).trace =
      (Source.storeSets request.window (course.sets mode request trace) .zero trace).2 := by
  cases hresolve : trace.resolve request.tracks with
  | error failure =>
      cases mode <;> simp [load, loadEach, loadBatch, sets, hresolve, Reading.failed,
        Source.storeSets]
  | ok tracks =>
      cases mode with
      | batch =>
          simp only [load, sets, hresolve]
          exact course.trace_loadBatch hresolve
      | each =>
          simp only [load, loadEach, sets, hresolve]
          exact course.trace_loadInTurn _ _ 0 tracks .zero trace

theorem prefix_setsInTurn
    (window : Window) :
    ∀ (place : Nat) (tracks : List Track),
      (course.setsInTurn window place tracks).map Prod.fst <+: tracks
  | _, [] => List.nil_prefix
  | place, track :: tracks => by
      cases hrows : course.rows window place track with
      | error failure =>
          simp only [setsInTurn, hrows]
          exact List.nil_prefix
      | ok rows =>
          simp only [setsInTurn, hrows, List.map_cons]
          exact List.prefix_cons_inj track |>.2
            (prefix_setsInTurn window (place + 1) tracks)

theorem prefix_setsAtOnce
    (window : Window) (tracks : List Track) :
    (course.setsAtOnce window tracks).map Prod.fst <+: tracks := by
  unfold setsAtOnce
  split
  · split
    · rename_i sets _ _ hlength
      simpa only [List.map_fst_zip (Nat.le_of_eq hlength.symm)] using List.prefix_rfl
    · exact List.nil_prefix
  · exact List.nil_prefix

/-- Rows are stored of tracks of the trace, as the trace has them before the read. -/
theorem track?_of_mem_sets
    {mode : ReadMode} {request : Request} {trace : Trace} {set : Track × List Row}
    (hset : set ∈ course.sets mode request trace) :
    trace.track? set.1.id = some set.1 := by
  unfold sets at hset
  cases hresolve : trace.resolve request.tracks with
  | error failure => simp [hresolve] at hset
  | ok tracks =>
      have hmem : set.1 ∈ tracks := by
        cases mode with
        | each =>
            simp only [hresolve] at hset
            exact (course.prefix_setsInTurn _ _ _).subset (List.mem_map_of_mem hset)
        | batch =>
            simp only [hresolve] at hset
            exact (course.prefix_setsAtOnce _ _).subset (List.mem_map_of_mem hset)
      exact Trace.track?_of_resolve hresolve hmem

/-- A row set with the descriptor of its track, which is all that a source is told of it. -/
def described (set : Track × List Row) : Descriptor × List Row :=
  (set.1.descriptor, set.2)

theorem described_zip
    (tracks : List Track) (answer : List (List Row)) :
    (tracks.zip answer).map described = (tracks.map (·.descriptor)).zip answer := by
  rw [List.zip_map_left]
  rfl

theorem described_setsInTurn
    (window : Window) :
    ∀ (place : Nat) (tracks others : List Track),
      tracks.map (·.descriptor) = others.map (·.descriptor) →
        (course.setsInTurn window place tracks).map described =
          (course.setsInTurn window place others).map described
  | _, [], [], _ => rfl
  | place, track :: tracks, other :: others, hsame => by
      obtain ⟨hhead, htail⟩ := List.cons.inj hsame
      have hasked : course.rows window place track = course.rows window place other := by
        simp only [rows, hhead]
      cases hrows : course.rows window place other with
      | error failure => simp only [setsInTurn, hasked, hrows]
      | ok rows =>
          simp only [setsInTurn, hasked, hrows, List.map_cons, described, hhead,
            described_setsInTurn window (place + 1) tracks others htail]

/-- What a read stores depends on the descriptors of the tracks alone. -/
theorem described_sets
    {mode : ReadMode} {request : Request} {trace after : Trace} {tracks others : List Track}
    (hresolve : trace.resolve request.tracks = .ok tracks)
    (hafter : after.resolve request.tracks = .ok others)
    (hsame : tracks.map (·.descriptor) = others.map (·.descriptor)) :
    (course.sets mode request after).map described =
      (course.sets mode request trace).map described := by
  cases mode with
  | each =>
      simp only [sets, hresolve, hafter]
      exact (course.described_setsInTurn request.window 0 tracks others hsame).symm
  | batch =>
      have hlength : tracks.length = others.length := by
        simpa using congrArg List.length hsame
      simp only [sets, hresolve, hafter, setsAtOnce, hsame]
      split
      · rw [hlength]
        split
        · rw [described_zip, described_zip, hsame]
        · rfl
      · rfl

/-- If the rows of every track can be read, reading in turn gets them all. -/
theorem setsInTurn_calm
    {source : Source} {window : Window} :
    ∀ (place : Nat) {tracks : List Track} {answer : List (List Row)},
      tracks.mapM (fun track => source.readTrack track.descriptor window) = .ok answer →
        (calm source).setsInTurn window place tracks = tracks.zip answer
  | _, [], _, _ => rfl
  | place, track :: tracks, _, hanswer => by
      obtain ⟨rows, rest, hrows, hrest, rfl⟩ := Outcome.mapM_cons_eq_ok_iff.1 hanswer
      have hcalm : (calm source).rows window place track = .ok rows := hrows
      simp only [setsInTurn, hcalm, List.zip_cons_cons, setsInTurn_calm (place + 1) hrest]

/-- A batch of a source whose answers agree stores no more than reading in turn. -/
theorem setsAtOnce_calm_subset
    {source : Source} {window : Window} {tracks : List Track} {answer : List (List Row)}
    (hagrees : source.Agrees)
    (hanswer : tracks.mapM (fun track => source.readTrack track.descriptor window) = .ok answer) :
    (calm source).setsAtOnce window tracks ⊆ tracks.zip answer := by
  simp only [setsAtOnce, calm]
  cases hbatch : source.readTracks (tracks.map (·.descriptor)) window with
  | error failure => simp
  | ok sets =>
      by_cases hlength : sets.length = tracks.length
      · have hsingly := hagrees _ _ _ hbatch (hlength.trans (List.length_map _).symm)
        rw [source.oneByOne_descriptors, hanswer] at hsingly
        cases hsingly
        simp [hlength]
      · simp [hlength]

/-- What a read stores that succeeds is what its tracks are answered one by one. -/
theorem exists_sets_of_ok
    {source : Source} {mode : ReadMode} {request : Request} {trace : Trace} {totals : ChunkTotals}
    (hagrees : source.Agrees)
    (hread : (source.load mode request trace).result = .ok totals) :
    ∃ (tracks : List Track) (answer : List (List Row)),
      trace.resolve request.tracks = .ok tracks ∧
      tracks.mapM (fun track => source.readTrack track.descriptor request.window) = .ok answer ∧
      (calm source).sets mode request trace = tracks.zip answer := by
  cases hresolve : trace.resolve request.tracks with
  | error failure =>
      cases mode <;>
        simp [Source.load, Source.loadEach, Source.loadBatch, hresolve, Reading.failed] at hread
  | ok tracks =>
      cases mode with
      | each =>
          simp only [Source.load, Source.loadEach, hresolve] at hread
          cases hanswer : tracks.mapM fun track =>
              source.readTrack track.descriptor request.window with
          | error failure =>
              rw [source.result_loadInTurn_of_error request.window _ .zero trace hanswer] at hread
              cases hread
          | ok answer =>
              refine ⟨tracks, answer, rfl, hanswer, ?_⟩
              simp only [sets, hresolve]
              exact setsInTurn_calm 0 hanswer
      | batch =>
          simp only [Source.load, Source.loadBatch, hresolve] at hread
          cases hbatch : source.readTracks (tracks.map (·.descriptor)) request.window with
          | error failure => simp [hbatch, Reading.failed] at hread
          | ok answer =>
              by_cases hlength : answer.length = tracks.length
              · have hsingly := hagrees _ _ _ hbatch (hlength.trans (List.length_map _).symm)
                rw [source.oneByOne_descriptors] at hsingly
                refine ⟨tracks, answer, rfl, hsingly, ?_⟩
                simp [sets, hresolve, setsAtOnce, calm, hbatch, hlength]
              · simp [hbatch, hlength, Reading.failed] at hread

/-- If a read succeeds and the answers of its source agree, reading in another mode stores no
other row set. -/
theorem sets_subset_of_ok
    {source : Source} {mode : ReadMode} {request : Request} {trace : Trace} {totals : ChunkTotals}
    (again : ReadMode)
    (hagrees : source.Agrees)
    (hread : (source.load mode request trace).result = .ok totals) :
    (calm source).sets again request trace ⊆ (calm source).sets mode request trace := by
  obtain ⟨tracks, answer, hresolve, hanswer, hsets⟩ := exists_sets_of_ok hagrees hread
  rw [hsets]
  cases again with
  | each =>
      simp only [sets, hresolve]
      rw [setsInTurn_calm 0 hanswer]
      exact List.Subset.refl _
  | batch =>
      simp only [sets, hresolve]
      exact setsAtOnce_calm_subset hagrees hanswer

end Sets

end Course

end TimelineStore
