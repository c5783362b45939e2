import TimelineStore.Proofs.Reading.Modes

/-!
# Reads that fail

A read passes checkpoints, at which it may be told to stop, and asks a source that may
answer otherwise each time it is asked.  A `Course` says what a read meets; `Course.load` is
the read that meets it, and a read that nobody stops is one with a calm course.

A batched read stores nothing before it has all rows, so it leaves nothing behind when it
fails.  A read track by track has stored the tracks before the one that failed, and comes to
the same as a shorter request that succeeds.

**Results.**
* `Course.load_calm`: a read that nobody stops has a calm course.
* `Course.loadInTurn_of_error`: reading in turn fails at one track and stores those before it.
* `Course.trace_loadBatch_of_error`, `Course.leavesFirst_of_error`: what a read that fails
  leaves.
* `Course.load_of_lacks`: no read begins when some track cannot be named.
-/

namespace TimelineStore

/-- The request for the first tracks of another. -/
def Request.first (request : Request) (count : Nat) (some : 0 < count) : Request where
  window := request.window
  tracks := request.tracks.take count
  covers := request.covers
  selects := by
    simpa [List.take_eq_nil_iff, Nat.ne_of_gt some] using request.selects
  distinct := request.distinct.sublist (List.take_sublist count request.tracks)

namespace Trace

/-- Some track cannot be named: there is no metadata, or an identifier is unknown. -/
def Lacks (trace : Trace) (ids : List TrackId) : Prop :=
  trace.isLoaded = false ∨ ∃ id ∈ ids, trace.track? id = none

section Lacks

variable {trace : Trace} {ids : List TrackId}

theorem not_lacks_of_resolve
    {found : List Track}
    (hresolve : trace.resolve ids = .ok found) :
    ¬ trace.Lacks ids := by
  obtain ⟨hloaded, heach⟩ := resolve_eq_ok_iff.1 hresolve
  rintro (hunloaded | ⟨id, hmem, hunknown⟩)
  · rw [hloaded] at hunloaded
    cases hunloaded
  · clear hresolve hloaded
    induction heach with
    | nil => cases hmem
    | cons htrack _ ih =>
        rcases List.mem_cons.1 hmem with rfl | hmem
        · rw [htrack] at hunknown
          cases hunknown
        · exact ih hmem

/-- A trace fails to resolve identifiers exactly if some track cannot be named. -/
theorem exists_resolve_eq_error_iff :
    (∃ failure, trace.resolve ids = .error failure) ↔ trace.Lacks ids := by
  constructor
  · rintro ⟨failure, hfailed⟩
    by_contra hknown
    simp only [Lacks, not_or, Bool.not_eq_false, not_exists, not_and] at hknown
    obtain ⟨hloaded, hknown⟩ := hknown
    have hinside : ∀ id ∈ ids, id.index < trace.trackCount := by
      intro id hmem
      by_contra hbeyond
      exact hknown id hmem (List.getElem?_eq_none (Nat.le_of_not_lt hbeyond))
    obtain ⟨found, hresolve⟩ := exists_resolve hloaded hinside
    rw [hfailed] at hresolve
    cases hresolve
  · intro hlacks
    cases hresolve : trace.resolve ids with
    | error failure => exact ⟨failure, rfl⟩
    | ok found => exact absurd hlacks (not_lacks_of_resolve hresolve)

/-- The first of some identifiers resolve to the first of their tracks. -/
theorem resolve_take
    {found : List Track}
    (hresolve : trace.resolve ids = .ok found)
    (count : Nat) :
    trace.resolve (ids.take count) = .ok (found.take count) := by
  obtain ⟨hloaded, heach⟩ := resolve_eq_ok_iff.1 hresolve
  exact resolve_eq_ok_iff.2 ⟨hloaded, List.forall₂_take count heach⟩

end Lacks

end Trace

/-- A batched read that fails leaves the trace as it was. -/
theorem Source.trace_loadBatch_of_error
    {source : Source} {request : Request} {trace : Trace} {failure : Failure}
    (hfailed : (source.loadBatch request trace).result = .error failure) :
    (source.loadBatch request trace).trace = trace := by
  unfold Source.loadBatch at hfailed ⊢
  cases hresolve : trace.resolve request.tracks with
  | error other => rfl
  | ok found =>
      simp only [hresolve] at hfailed ⊢
      cases hsets : source.readTracks (found.map (·.descriptor)) request.window with
      | error other => rfl
      | ok sets =>
          simp only [hsets] at hfailed ⊢
          split at hfailed
          · rename_i hlength
            rw [if_pos hlength]
            rfl
          · cases hfailed

/-- What a read meets: what its checkpoints say, and the source as it is when the read asks
it for the first time, for the second time, and so on. -/
structure Course where
  checkpoint : Nat → Except Failure Unit
  source : Nat → Source

namespace Course

/-- Nobody stops the read, and the source stays what it is. -/
def calm (source : Source) : Course :=
  ⟨fun _ => .ok (), fun _ => source⟩

section Loading

variable (course : Course)

/-- The rows of a track, as the read gets them that has got those of `place` tracks. -/
def rows (window : Window) (place : Nat) (track : Track) : Except Failure (List Row) := do
  course.checkpoint place
  (course.source place).readTrack track.descriptor window

/-- Reads tracks one after the other, from a place on. -/
def loadInTurn (window : Window) (share : Float) :
    Nat → List Track → ChunkTotals → Trace → Reading ChunkTotals
  | _, [], totals, trace => ⟨trace, [], .ok totals⟩
  | place, track :: tracks, totals, trace =>
    match course.rows window place track with
    | .error failure => .failed trace failure
    | .ok rows =>
      let (chunk, next) := trace.materialize track window rows
      (loadInTurn window share (place + 1) tracks (totals.add chunk) next).after
        (Source.trackStep share track)

/-- Reads a request track by track, with a checkpoint before each. -/
def loadEach (request : Request) (trace : Trace) : Reading ChunkTotals :=
  match trace.resolve request.tracks with
  | .error failure => .failed trace failure
  | .ok tracks =>
    course.loadInTurn request.window (Source.trackShare tracks.length) 0 tracks .zero trace

/-- Reads a request as one batch, with a checkpoint before it. -/
def loadBatch (request : Request) (trace : Trace) : Reading ChunkTotals :=
  match trace.resolve request.tracks with
  | .error failure => .failed trace failure
  | .ok _ =>
    match course.checkpoint 0 with
    | .error failure => .failed trace failure
    | .ok () => (course.source 0).loadBatch request trace

/-- Reads a request in a mode. -/
def load : ReadMode → Request → Trace → Reading ChunkTotals
  | .batch => course.loadBatch
  | .each => course.loadEach

end Loading

section Calm

variable (source : Source)

theorem loadInTurn_calm
    (window : Window) (share : Float) :
    ∀ (place : Nat) (tracks : List Track) (totals : ChunkTotals) (trace : Trace),
      (calm source).loadInTurn window share place tracks totals trace =
        source.loadInTurn window share tracks totals trace
  | _, [], _, _ => rfl
  | place, track :: tracks, totals, trace => by
      have hrows : (calm source).rows window place track =
          source.readTrack track.descriptor window := rfl
      simp only [loadInTurn, Source.loadInTurn, hrows, Source.loadTrack_eq]
      cases source.readTrack track.descriptor window with
      | error failure => rfl
      | ok rows =>
          simp only [Except.map]
          rw [loadInTurn_calm window share (place + 1) tracks]

/-- A read that nobody stops has a calm course. -/
theorem load_calm
    (mode : ReadMode) (request : Request) (trace : Trace) :
    (calm source).load mode request trace = source.load mode request trace := by
  cases mode with
  | batch =>
      simp only [load, loadBatch, Source.load]
      cases hresolve : trace.resolve request.tracks with
      | error failure => simp only [Source.loadBatch, hresolve]
      | ok found => rfl
  | each =>
      simp only [load, loadEach, Source.load, Source.loadEach]
      cases trace.resolve request.tracks with
      | error failure => rfl
      | ok found => exact loadInTurn_calm source _ _ 0 found .zero trace

end Calm

section Failed

variable (course : Course)

/-- The read gets the rows of `count` tracks, counted from a place on, and fails at the
next one. -/
structure StopsAfter (window : Window) (place : Nat) (tracks : List Track) (count : Nat)
    (failure : Failure) : Prop where
  passed : ∀ (index : Nat) (track : Track), index < count → tracks[index]? = some track →
    ∃ rows, course.rows window (place + index) track = .ok rows
  stopped : ∃ track, tracks[count]? = some track ∧
    course.rows window (place + count) track = .error failure

/-- A track whose rows the read gets comes before those that it stops among. -/
theorem StopsAfter.cons
    {course : Course} {window : Window} {place count : Nat} {track : Track}
    {tracks : List Track} {rows : List Row} {failure : Failure}
    (hrows : course.rows window place track = .ok rows)
    (hstops : course.StopsAfter window (place + 1) tracks count failure) :
    course.StopsAfter window place (track :: tracks) (count + 1) failure := by
  have hplace : ∀ index, place + 1 + index = place + (index + 1) := fun index => by omega
  constructor
  · intro index next hless hnext
    cases index with
    | zero =>
        cases hnext
        exact ⟨rows, hrows⟩
    | succ index =>
        rw [← hplace]
        exact hstops.passed index next (Nat.lt_of_succ_lt_succ hless) hnext
  · rw [← hplace]
    exact hstops.stopped

/-- Reading in turn fails at one track.  What it leaves is what reading the tracks before
that one leaves, and that succeeds, whatever share each track has in the whole. -/
theorem loadInTurn_of_error
    (window : Window) (share : Float) {failure : Failure} :
    ∀ {place : Nat} {tracks : List Track} {totals : ChunkTotals} {trace : Trace},
      (course.loadInTurn window share place tracks totals trace).result = .error failure →
        ∃ count, course.StopsAfter window place tracks count failure ∧
          ∀ other : Float,
            (∃ sum, (course.loadInTurn window other place (tracks.take count) totals
              trace).result = .ok sum) ∧
            (course.loadInTurn window other place (tracks.take count) totals trace).trace =
              (course.loadInTurn window share place tracks totals trace).trace
  | _, [], _, _, hfailed => by
      cases hfailed
  | place, track :: tracks, totals, trace, hfailed => by
      cases hrows : course.rows window place track with
      | error reason =>
          simp only [loadInTurn, hrows, Reading.failed, Except.error.injEq] at hfailed
          subst hfailed
          refine ⟨0, ⟨?_, ⟨track, rfl, hrows⟩⟩, fun other => ⟨⟨totals, rfl⟩, ?_⟩⟩
          · intro index _ hless
            cases hless
          · simp only [loadInTurn, hrows, Reading.failed, List.take_zero]
      | ok rows =>
          simp only [loadInTurn, hrows, Reading.after] at hfailed
          obtain ⟨count, hstops, hrest⟩ := loadInTurn_of_error window share hfailed
          refine ⟨count + 1, hstops.cons hrows, fun other => ?_⟩
          obtain ⟨⟨sum, hsum⟩, htrace⟩ := hrest other
          simp only [List.take_succ_cons, loadInTurn, hrows, Reading.after]
          exact ⟨⟨sum, hsum⟩, htrace⟩

/-- A read track by track fails with `count` tracks behind it: at the track that stands
there, or before all tracks because some track cannot be named. -/
def FailsAt (request : Request) (trace : Trace) (count : Nat) (failure : Failure) : Prop :=
  (trace.Lacks request.tracks ∧ trace.resolve request.tracks = .error failure ∧ count = 0) ∨
    ∃ found, trace.resolve request.tracks = .ok found ∧
      course.StopsAfter request.window 0 found count failure

/-- A trace is what a read of the first tracks of a request leaves, and that read
succeeds. -/
def LeavesFirst (request : Request) (trace : Trace) (count : Nat) (after : Trace) : Prop :=
  (count = 0 ∧ after = trace) ∨
    ∃ (some : 0 < count) (totals : ChunkTotals),
      (course.load .each (request.first count some) trace).result = .ok totals ∧
        (course.load .each (request.first count some) trace).trace = after

theorem leavesFirst_of_error
    {request : Request} {trace : Trace} {failure : Failure}
    (hfailed : (course.load .each request trace).result = .error failure) :
    ∃ count, course.FailsAt request trace count failure ∧
      course.LeavesFirst request trace count (course.load .each request trace).trace := by
  simp only [load, loadEach] at hfailed ⊢
  cases hresolve : trace.resolve request.tracks with
  | error reason =>
      simp only [hresolve, Reading.failed, Except.error.injEq] at hfailed ⊢
      subst hfailed
      have hlacks := Trace.exists_resolve_eq_error_iff.1 ⟨reason, hresolve⟩
      exact ⟨0, .inl ⟨hlacks, hresolve, rfl⟩, .inl ⟨rfl, rfl⟩⟩
  | ok found =>
      simp only [hresolve] at hfailed ⊢
      obtain ⟨count, hstops, hshorter⟩ :=
        course.loadInTurn_of_error request.window _ hfailed
      obtain ⟨⟨totals, htotals⟩, htrace⟩ :=
        hshorter (Source.trackShare (found.take count).length)
      refine ⟨count, .inr ⟨found, hresolve, hstops⟩, ?_⟩
      rcases Nat.eq_zero_or_pos count with rfl | hsome
      · exact .inl ⟨rfl, htrace.symm⟩
      · have hfirst := Trace.resolve_take hresolve count
        refine .inr ⟨hsome, totals, ?_⟩
        simp only [load, loadEach, Request.first, hfirst]
        exact ⟨htotals, htrace⟩

theorem trace_loadBatch_of_error
    {request : Request} {trace : Trace} {failure : Failure}
    (hfailed : (course.load .batch request trace).result = .error failure) :
    (course.load .batch request trace).trace = trace := by
  simp only [load, loadBatch] at hfailed ⊢
  cases hresolve : trace.resolve request.tracks with
  | error reason => rfl
  | ok found =>
      simp only [hresolve] at hfailed ⊢
      cases hcheckpoint : course.checkpoint 0 with
      | error reason => rfl
      | ok =>
          simp only [hcheckpoint] at hfailed ⊢
          exact Source.trace_loadBatch_of_error hfailed

/-- A read in either mode fails, and leaves the trace as it was, if some track cannot be
named. -/
theorem load_of_lacks
    {request : Request} {trace : Trace}
    (mode : ReadMode)
    (hlacks : trace.Lacks request.tracks) :
    ∃ failure, course.load mode request trace = .failed trace failure := by
  obtain ⟨failure, hresolve⟩ := Trace.exists_resolve_eq_error_iff.2 hlacks
  refine ⟨failure, ?_⟩
  cases mode with
  | batch => simp only [load, loadBatch, hresolve]
  | each => simp only [load, loadEach, hresolve]

end Failed

end Course

end TimelineStore
