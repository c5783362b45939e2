import TimelineStore.Proofs.Future
import TimelineStore.Proofs.Reading.Totals

/-!
# What is heard of a read

A read reports a step for each track that it stores, or one step for a batch that it stored.
A listener hears these one after the other, and then one closing event that says how the read
ended.

**Results.**
* `Reading.says_events`: what the events of a reading say.
* `Course.map_message_steps`: the steps of a read are those of what it stored.
* `Course.tells`: what is heard of a read of any course.
-/

namespace TimelineStore

/-- What an event says, whatever its percentage. -/
def ProgressEvent.says (event : ProgressEvent) : String × ProgressStatus × String :=
  (event.source, event.status, event.message)

/-- What the closing event of an operation says. -/
def closing (name : String) : Except Failure String → String × ProgressStatus × String
  | .ok text => (name, .success, text)
  | .error failure => (name, .error, failure.message)

/-- What is said of an operation that did one thing after the other and then ended. -/
def story (name : String) (done : List String) (result : Except Failure String) :
    List (String × ProgressStatus × String) :=
  done.map (fun message => (name, .busy, message)) ++ [closing name result]

theorem Meter.says_advanceAll
    (meter : Meter) (steps : List Step) :
    (meter.advanceAll steps).2.map ProgressEvent.says =
      steps.map fun step => (meter.source, .busy, step.message) := by
  induction steps generalizing meter with
  | nil => rfl
  | cons step steps ih =>
      simp only [advanceAll, List.map_cons, ih, source_advance]
      rfl

/-- There is an event for each step. -/
theorem Meter.length_advanceAll
    (meter : Meter) (steps : List Step) :
    (meter.advanceAll steps).2.length = steps.length := by
  simpa using congrArg List.length (meter.says_advanceAll steps)

theorem Meter.advanceAll_append
    (meter : Meter) (earlier later : List Step) :
    meter.advanceAll (earlier ++ later) =
      (((meter.advanceAll earlier).1.advanceAll later).1,
        (meter.advanceAll earlier).2 ++ ((meter.advanceAll earlier).1.advanceAll later).2) := by
  induction earlier generalizing meter with
  | nil => rfl
  | cons step earlier ih => simp only [List.cons_append, advanceAll, ih]

/-- **What is heard of a reading** is what it reported and then how it ended. -/
theorem Reading.says_events
    {α : Type} (reading : Reading α) (name : String) (text : α → String) :
    (reading.events name text).map ProgressEvent.says =
      story name (reading.steps.map (·.message)) (reading.result.map text) := by
  have hsource := Meter.source_advanceAll (.start name) reading.steps
  simp only [events, List.map_append, Meter.says_advanceAll, story, List.map_map]
  congr 1
  cases reading.result with
  | ok value => exact congrArg (fun source => [(source, _, _)]) hsource
  | error failure => exact congrArg (fun source => [(source, _, _)]) hsource

namespace Course

variable (course : Course)

/-- Reading in turn reports a step for each row set that it stores. -/
theorem steps_loadInTurn
    (window : Window) (share : Float) :
    ∀ (place : Nat) (tracks : List Track) (totals : ChunkTotals) (trace : Trace),
      (course.loadInTurn window share place tracks totals trace).steps =
        (course.setsInTurn window place tracks).map fun set => Source.trackStep share set.1
  | _, [], _, _ => rfl
  | place, track :: tracks, totals, trace => by
      cases hrows : course.rows window place track with
      | error failure => simp only [loadInTurn, setsInTurn, hrows, Reading.failed, List.map_nil]
      | ok rows =>
          simp only [loadInTurn, setsInTurn, hrows, Reading.after, List.map_cons,
            steps_loadInTurn window share (place + 1) tracks]

/-- A read that stops after some tracks has stored just those. -/
theorem StopsAfter.map_fst_setsInTurn
    {course : Course} {window : Window} {failure : Failure} :
    ∀ {place : Nat} {tracks : List Track} {count : Nat},
      course.StopsAfter window place tracks count failure →
        (course.setsInTurn window place tracks).map Prod.fst = tracks.take count
  | _, [], _, hstops => by
      obtain ⟨track, htrack, -⟩ := hstops.stopped
      cases htrack
  | place, track :: tracks, 0, hstops => by
      obtain ⟨other, hother, hfailed⟩ := hstops.stopped
      cases hother
      rw [Nat.add_zero] at hfailed
      simp only [setsInTurn, hfailed, List.map_nil, List.take_zero]
  | place, track :: tracks, count + 1, hstops => by
      have hplace : ∀ index, place + (index + 1) = place + 1 + index := fun index => by omega
      obtain ⟨rows, hrows⟩ := hstops.passed 0 track (Nat.succ_pos count) rfl
      rw [Nat.add_zero] at hrows
      have hrest : course.StopsAfter window (place + 1) tracks count failure := by
        constructor
        · intro index next hless hnext
          rw [← hplace]
          exact hstops.passed (index + 1) next (Nat.succ_lt_succ hless) hnext
        · rw [← hplace]
          exact hstops.stopped
      simp only [setsInTurn, hrows, List.map_cons, List.take_succ_cons, hrest.map_fst_setsInTurn]

section Tells

variable (mode : ReadMode) (request : Request) (trace : Trace)

/-- What a read reports to have done. -/
def done : List String :=
  match mode with
  | .each => (course.sets .each request trace).map fun set => s!"{set.1.id} loaded"
  | .batch =>
    if (course.load .batch request trace).result.toBool then
      [s!"{request.tracks.length} tracks loaded"]
    else []

/-- **A read reports just what it stored**, track by track or as one batch. -/
theorem map_message_steps :
    (course.load mode request trace).steps.map (·.message) = course.done mode request trace := by
  cases hresolve : trace.resolve request.tracks with
  | error failure =>
      cases mode <;>
        simp [load, loadEach, loadBatch, done, sets, hresolve, Reading.failed, Except.toBool]
  | ok tracks =>
      cases mode with
      | each =>
          simp only [load, loadEach, done, sets, hresolve, steps_loadInTurn, List.map_map]
          rfl
      | batch =>
          have hlength := (Trace.resolve_eq_ok_iff.1 hresolve).2.length_eq
          simp only [load, loadBatch, done, hresolve]
          cases course.checkpoint 0 with
          | error failure => rfl
          | ok =>
              simp only [Source.loadBatch, hresolve]
              cases (course.source 0).readTracks (tracks.map (·.descriptor)) request.window with
              | error failure => rfl
              | ok answer =>
                  by_cases hshort : answer.length = tracks.length
                  · simp [hshort, hlength, Except.toBool]
                  · simp [hshort, Reading.failed, Except.toBool]

/-- A read that fails with `count` tracks behind it has stored the first `count` tracks. -/
theorem FailsAt.map_id_sets
    {course : Course} {request : Request} {trace : Trace} {count : Nat} {failure : Failure}
    (hfails : course.FailsAt request trace count failure) :
    (course.sets .each request trace).map (·.1.id) = request.tracks.take count := by
  rcases hfails with ⟨-, hresolve, rfl⟩ | ⟨found, hresolve, hstops⟩
  · simp [sets, hresolve]
  · have hstored := congrArg (List.map (·.id)) hstops.map_fst_setsInTurn
    rw [List.map_map, List.map_take, Trace.map_id_of_resolve hresolve] at hstored
    simp only [sets, hresolve]
    exact hstored

/-- The story of a read. -/
structure Tells (name : String) : Prop where
  /-- Busy events for what was done, one after the other, and one closing event. -/
  events : ((course.load mode request trace).events name ChunkTotals.completion).map
      ProgressEvent.says =
    story name (course.done mode request trace)
      ((course.load mode request trace).result.map ChunkTotals.completion)
  /-- A batch that succeeded is one thing that was done, and one that failed is none. -/
  batch : mode = .batch →
    ((course.done mode request trace).length = 1 ↔
        ∃ totals, (course.load mode request trace).result = .ok totals) ∧
      (course.done mode request trace).length ≤ 1
  /-- Track by track, all tracks were stored, or those before the one that failed. -/
  each : mode = .each →
    ∃ count, course.done mode request trace =
        (request.tracks.take count).map (fun id => s!"{id} loaded") ∧
      (∀ totals, (course.load mode request trace).result = .ok totals →
        count = request.tracks.length) ∧
      ∀ failure, (course.load mode request trace).result = .error failure →
        course.FailsAt request trace count failure ∧
          course.LeavesFirst request trace count (course.load mode request trace).trace

/-- **Each read tells its story**, whatever its course. -/
theorem tells
    (name : String) :
    course.Tells mode request trace name := by
  constructor
  · rw [Reading.says_events, map_message_steps]
  · rintro rfl
    simp only [done]
    cases (course.load .batch request trace).result <;> simp [Except.toBool]
  · rintro rfl
    have hdone : course.done .each request trace =
        ((course.sets .each request trace).map (·.1.id)).map fun id => s!"{id} loaded" := by
      simp only [done, List.map_map]
      rfl
    cases hresult : (course.load .each request trace).result with
    | ok totals =>
        obtain ⟨tracks, hresolve, htracks, -⟩ := course.exists_sets_eq_of_ok hresult
        have hids : (course.sets .each request trace).map (·.1.id) = request.tracks := by
          rw [← Trace.map_id_of_resolve hresolve, ← htracks, List.map_map]
          rfl
        refine ⟨request.tracks.length, ?_, fun _ _ => rfl, nofun⟩
        rw [hdone, hids, List.take_length]
    | error failure =>
        obtain ⟨count, hfails, hleaves⟩ := course.leavesFirst_of_error hresult
        refine ⟨count, by rw [hdone, hfails.map_id_sets], nofun, ?_⟩
        rintro _ ⟨⟩
        exact ⟨hfails, hleaves⟩

end Tells

end Course

end TimelineStore
