import TimelineStore.Proofs.Future
import TimelineStore.Proofs.Reading.Store
import TimelineStore.Proofs.Session.Reachable

/-!
# A worker at its job

A worker is `Busy` when the future that it serves carries its job and the session holds
the trace of the job, and `Working` if nobody asked it to stop.  A turn either leaves it
busy with the rest of the job or ends the job; a job that reads tracks comes to its end with
the trace that reading the tracks in turn leaves.

**Results.**
* `Session.Busy.turn_work`, `Session.Busy.turn_finished`: what one turn does.
* `Session.Busy.slice_cases`, `Session.Busy.begin_track`, `Session.Busy.reading_cases`: what
  the turns of a read do.
* `Session.worked_advanceWithin`: what a worker does that goes on to the end of its tracks.
* `Session.worked_complete`: what a worker does with a whole read.
-/

namespace TimelineStore

namespace Session

/-- The worker of a future is on a job, and nobody asked it to stop. -/
structure Working
    (session : Session) (id : FutureId) (future : Future Job) (run : Run Job) (job : Job)
    (held : HeldTrace) : Prop where
  carried : session.futures.get? id.index = some future
  carriedId : future.id = id
  runs : future.run = some run
  running : run.phase = .running job
  interrupted : run.interrupted = false
  holds : session.traces.get? job.trace.index = some held
  heldId : held.trace.id = job.trace

/-- The traces of a session are those of another, but for one that is changed. -/
def SameButTrace (before after : Session) (id : TraceId) (held : HeldTrace) : Prop :=
  ∀ number : Nat,
    after.traces.get? number =
      if number = id.index then some held else before.traces.get? number

/-- The worker of a future is on a job, whether or not it was asked to stop. -/
structure Busy
    (session : Session) (id : FutureId) (future : Future Job) (run : Run Job) (job : Job)
    (held : HeldTrace) : Prop where
  carried : session.futures.get? id.index = some future
  carriedId : future.id = id
  runs : future.run = some run
  running : run.phase = .running job
  holds : session.traces.get? job.trace.index = some held
  heldId : held.trace.id = job.trace

namespace Busy

variable
  {session : Session} {id : FutureId} {future : Future Job} {run : Run Job} {job : Job}
  {held : HeldTrace} {trace : Trace} {steps : List Step} {turns queries : Nat}

theorem job?_eq
    (hbusy : session.Busy id future run job held) :
    session.job? id = some job := by
  simp [job?, jobOf?, Future.phase?, hbusy.carried, hbusy.runs, hbusy.running]

theorem turn_eq
    (hbusy : session.Busy id future run job held) :
    session.turn id =
      (session.putTrace (job.turn run held.trace).1).putFuture
        (future.take (job.turn run held.trace).2) := by
  simp [turn, hbusy.carried, hbusy.runs, hbusy.running, hbusy.holds]

/-- What the two updates of a turn come to. -/
theorem get?_turn
    {turn : Turn Job}
    (hbusy : session.Busy id future run job held)
    (hturn : job.turn run held.trace = (trace, turn))
    (htrace : trace.id = held.trace.id) :
    (session.turn id).futures.get? id.index =
        some (future.carrying (run.take turn)) ∧
      session.SameButTrace (session.turn id) job.trace { held with trace } := by
  have hindex : trace.id = job.trace := htrace.trans hbusy.heldId
  rw [hbusy.turn_eq, hturn]
  constructor
  · have hid : (future.take turn).id.index = id.index := congrArg FutureId.index hbusy.carriedId
    rw [get?_putFuture, hid, if_pos rfl]
    simp [hbusy.carried, Future.take, Future.carrying, hbusy.runs]
  · intro number
    have hput : ((session.putTrace trace).putFuture (future.take turn)).traces.get? number =
        (session.putTrace trace).traces.get? number := rfl
    rw [hput, get?_putTrace, hindex]
    split
    · rename_i hnumber
      rw [hnumber, hbusy.holds]
      rfl
    · rfl

/-- A turn that leaves work leaves the worker at it. -/
theorem turn_work
    {rest : Job}
    (hbusy : session.Busy id future run job held)
    (hturn : job.turn run held.trace = (trace, ⟨steps, .work rest⟩))
    (htrace : trace.id = held.trace.id)
    (hrest : rest.trace = job.trace) :
    (session.turn id).Busy id
        (future.carrying ((steps.foldl Run.report run).standing (.running rest)))
        ((steps.foldl Run.report run).standing (.running rest)) rest { held with trace } ∧
      session.SameButTrace (session.turn id) job.trace { held with trace } := by
  obtain ⟨hfuture, hsame⟩ := hbusy.get?_turn hturn htrace
  refine ⟨⟨hfuture, hbusy.carriedId, rfl, rfl, ?_, ?_⟩, hsame⟩
  · rw [hrest, hsame job.trace.index, if_pos rfl]
  · exact (htrace.trans hbusy.heldId).trans hrest.symm

theorem advanceWithin_succ
    (hbusy : session.Busy id future run job held)
    (hreading : job.isReadingTrack = false) :
    advanceWithin id (turns + 1) queries session =
      advanceWithin id turns queries (session.turn id) := by
  simp [advanceWithin, hbusy.job?_eq, hreading]

theorem advanceWithin_succ_of_reading
    (hbusy : session.Busy id future run job held)
    (hreading : job.isReadingTrack = true) :
    advanceWithin id (turns + 1) (queries + 1) session =
      advanceWithin id turns queries (session.turn id) := by
  simp [advanceWithin, hbusy.job?_eq, hreading]

theorem complete_eq
    (hbusy : session.Busy id future run job held) :
    session.complete id = (advanceWithin id job.turns job.turns session).2 := by
  simp [complete, advance, hbusy.job?_eq]

end Busy

section Working

variable
  {session : Session} {id : FutureId} {future : Future Job} {run : Run Job} {job : Job}
  {held : HeldTrace}

theorem Working.busy
    (hworking : session.Working id future run job held) :
    session.Busy id future run job held :=
  ⟨hworking.carried, hworking.carriedId, hworking.runs, hworking.running, hworking.holds,
    hworking.heldId⟩

theorem Busy.working
    (hbusy : session.Busy id future run job held)
    (hcalm : run.interrupted = false) :
    session.Working id future run job held :=
  ⟨hbusy.carried, hbusy.carriedId, hbusy.runs, hbusy.running, hcalm, hbusy.holds,
    hbusy.heldId⟩

end Working

/-- After the worker of a future ended its job, the future has the resolved run to be
collected, and the trace is the one that a reading left. -/
structure Worked
    (before after : Session) (id : FutureId) (future : Future Job) (run : Run Job)
    (trace : TraceId) (held : HeldTrace) (reading : Reading String) : Prop where
  carried : after.futures.get? id.index =
    some (future.carrying ((reading.steps.foldl Run.report run).resolve reading.result))
  traces : before.SameButTrace after trace { held with trace := reading.trace }

section Advance

variable
  {session : Session} {id : FutureId} {future : Future Job} {run : Run Job} {job : Job}
  {held : HeldTrace} {turns queries : Nat}

/-- A turn that ends the job ends it as a reading. -/
theorem Busy.turn_finished
    {reading : Reading String}
    (hbusy : session.Busy id future run job held)
    (hturn : job.turn run held.trace = (reading.trace, ⟨reading.steps, .finished reading.result⟩))
    (htrace : reading.trace.id = held.trace.id) :
    Worked session (session.turn id) id future run job.trace held reading := by
  obtain ⟨hfuture, hsame⟩ := hbusy.get?_turn hturn htrace
  exact ⟨hfuture, hsame⟩

/-- What a worker leaves that goes on after a turn, seen from before the turn. -/
theorem Worked.after_turn
    {middle after : Session} {trace : Trace} {phase : Phase Job} {steps : List Step}
    {id : FutureId} {target : TraceId} {reading : Reading String}
    (hsame : session.SameButTrace middle target { held with trace })
    (hworked : Worked middle after id
      (future.carrying ((steps.foldl Run.report run).standing phase))
      ((steps.foldl Run.report run).standing phase) target { held with trace } reading) :
    Worked session after id future run target held
      { reading with steps := steps ++ reading.steps } := by
  constructor
  · rw [hworked.carried, Run.foldl_report_standing, Run.resolve_standing, ← List.foldl_append]
    rfl
  · intro number
    rw [hworked.traces number, hsame number]
    split <;> rfl

/-- Once the job has ended there is nothing to go on with. -/
theorem Worked.job?_eq
    {after : Session} {trace : TraceId} {reading : Reading String}
    (hworked : Worked session after id future run trace held reading) :
    after.job? id = none := by
  obtain ⟨last, hphase⟩ :=
    (reading.steps.foldl Run.report run).phase_resolve reading.result
  simp [job?, jobOf?, Future.phase?, Future.carrying, hworked.carried, hphase]

/-- A worker without a job makes no turn. -/
theorem advanceWithin_of_job?_eq_none
    (hjob : session.job? id = none) :
    advanceWithin id turns queries session = (queries, session) := by
  cases turns with
  | zero => rfl
  | succ turns => simp [advanceWithin, hjob]

end Advance

/-- What is said of a reading of tracks when it is over. -/
def told (reading : Reading ChunkTotals) : Reading String :=
  ⟨reading.trace, reading.steps, reading.result.map ChunkTotals.completion⟩

section Tracks

variable
  {session : Session} {id : FutureId} {future : Future Job} {run : Run Job} {held : HeldTrace}
  {source : Source} {trace : TraceId} {window : Window} {share : Float} {totals : ChunkTotals}
  {left : List Track}

/-- The turn in which a track is begun passes its checkpoint and leaves the trace as it was. -/
theorem Busy.begin_track
    {track : Track}
    (hbusy : session.Busy id future run
      (.inTurn source trace window share totals (track :: left) false) held)
    (hcalm : run.interrupted = false) :
    let rest := Job.inTurn source trace window share totals (track :: left) true
    let next := ([].foldl Run.report run).standing (.running rest)
    (session.turn id).Busy id (future.carrying next) next rest { held with trace := held.trace } ∧
      session.SameButTrace (session.turn id) trace { held with trace := held.trace } := by
  have hturn : (Job.inTurn source trace window share totals (track :: left) false).turn run
      held.trace =
        (held.trace,
          ⟨[], .work (.inTurn source trace window share totals (track :: left) true)⟩) := by
    simp [Job.turn, hcalm]
  exact hbusy.turn_work hturn rfl rfl

/-- The turn in which a track is read: that fails and ends the job, or the worker goes on with
the other tracks. -/
theorem Busy.reading_cases
    {track : Track}
    (hbusy : session.Busy id future run
      (.inTurn source trace window share totals (track :: left) true) held) :
    (∃ failure, source.readTrack track.descriptor window = .error failure ∧
      Worked session (session.turn id) id future run trace held
        (told (.failed held.trace failure))) ∨
    ∃ rows, source.readTrack track.descriptor window = .ok rows ∧
      let made := held.trace.materialize track window rows
      let rest := Job.inTurn source trace window share (totals.add made.1) left false
      let next := ([Source.trackStep share track].foldl Run.report run).standing (.running rest)
      (session.turn id).Busy id (future.carrying next) next rest { held with trace := made.2 } ∧
        session.SameButTrace (session.turn id) trace { held with trace := made.2 } := by
  cases hrows : source.readTrack track.descriptor window with
  | error failure =>
      refine .inl ⟨failure, rfl, hbusy.turn_finished ?_ rfl⟩
      simp [Job.turn, Source.loadTrack_eq, hrows, told, Reading.failed, Except.map]
  | ok rows =>
      refine .inr ⟨rows, rfl, hbusy.turn_work ?_ rfl rfl⟩
      simp [Job.turn, Source.loadTrack_eq, hrows, Except.map]

/-- The turn in which the tracks are found: some cannot be named and the job ends, or the
worker goes on to read them. -/
theorem Busy.slice_cases
    {request : Request}
    (hbusy : session.Busy id future run (.slice source trace request) held) :
    (∃ failure, held.trace.resolve request.tracks = .error failure ∧
      Worked session (session.turn id) id future run trace held
        (told (.failed held.trace failure))) ∨
    ∃ found, held.trace.resolve request.tracks = .ok found ∧
      let rest := Job.inTurn source trace request.window (Source.trackShare found.length) .zero
        found false
      let next := ([].foldl Run.report run).standing (.running rest)
      (session.turn id).Busy id (future.carrying next) next rest { held with trace := held.trace } ∧
        session.SameButTrace (session.turn id) trace { held with trace := held.trace } := by
  cases hresolve : held.trace.resolve request.tracks with
  | error failure =>
      refine .inl ⟨failure, rfl, hbusy.turn_finished ?_ rfl⟩
      simp [Job.turn, hresolve, told, Reading.failed, Except.map]
  | ok found =>
      have hturn : (Job.slice source trace request).turn run held.trace =
          (held.trace, ⟨[], .work (.inTurn source trace request.window
            (Source.trackShare found.length) .zero found false)⟩) := by
        simp only [Job.turn, hresolve]
      exact .inr ⟨found, rfl, hbusy.turn_work hturn rfl rfl⟩

/-- **A worker that goes on to the end of its tracks** leaves what reading them in turn
leaves.  Each track takes a turn to begin with it and a turn to read it. -/
theorem worked_advanceWithin :
    ∀ {left : List Track} {session : Session} {future : Future Job} {run : Run Job}
      {held : HeldTrace} {totals : ChunkTotals} {turns queries : Nat},
      session.Working id future run
          (.inTurn source trace window share totals left false) held →
        2 * left.length + 1 ≤ turns → left.length ≤ queries →
          Worked session (advanceWithin id turns queries session).2 id future run trace held
            (told (source.loadInTurn window share left totals held.trace))
  | _, _, _, _, _, _, 0, _, _, hturns, _ => by omega
  | [], session, future, run, held, totals, turns + 1, queries, hworking, _, _ => by
      have hworked : Worked session (session.turn id) id future run trace held
          (told (source.loadInTurn window share [] totals held.trace)) :=
        hworking.busy.turn_finished rfl rfl
      rw [hworking.busy.advanceWithin_succ rfl, advanceWithin_of_job?_eq_none hworked.job?_eq]
      exact hworked
  | track :: left, _, _, _, _, _, 1, _, _, hturns, _ => by
      simp at hturns
  | track :: left, _, _, _, _, _, _, 0, _, _, hqueries => by
      simp at hqueries
  | track :: left, session, future, run, held, totals, turns + 2, queries + 1,
      hworking, hturns, hqueries => by
      obtain ⟨hbegun, hkept⟩ := hworking.busy.begin_track hworking.interrupted
      rw [hworking.busy.advanceWithin_succ rfl, hbegun.advanceWithin_succ_of_reading rfl]
      simp only [Source.loadInTurn, Source.loadTrack_eq]
      rcases hbegun.reading_cases with ⟨failure, hrows, hworked⟩ | ⟨rows, hrows, hnext, hstored⟩
      · rw [advanceWithin_of_job?_eq_none hworked.job?_eq, hrows]
        exact hworked.after_turn hkept
      · rw [List.length_cons] at hturns hqueries
        have hrest := worked_advanceWithin (hnext.working hworking.interrupted)
          (show 2 * left.length + 1 ≤ turns by omega) (show left.length ≤ queries by omega)
        rw [hrows]
        exact (hrest.after_turn hstored).after_turn hkept

/-- **A worker that goes on to the end of a read** leaves what reading track by track
leaves. -/
theorem worked_complete
    {request : Request}
    (hworking : session.Working id future run (.slice source trace request) held) :
    Worked session (session.complete id) id future run trace held
      (told (source.loadEach request held.trace)) := by
  have hturns : (Job.slice source trace request).turns = 2 * request.tracks.length + 1 + 1 := rfl
  rw [hworking.busy.complete_eq, hturns, hworking.busy.advanceWithin_succ rfl]
  simp only [Source.loadEach]
  rcases hworking.busy.slice_cases with
    ⟨failure, hresolve, hworked⟩ | ⟨found, hresolve, hbegun, hkept⟩
  · rw [advanceWithin_of_job?_eq_none hworked.job?_eq, hresolve]
    exact hworked
  · have hlength : request.tracks.length = found.length :=
      (Trace.resolve_eq_ok_iff.1 hresolve).2.length_eq
    have hrest := worked_advanceWithin (hbegun.working hworking.interrupted)
      (show 2 * found.length + 1 ≤ 2 * request.tracks.length + 1 by omega)
      (show found.length ≤ 2 * request.tracks.length + 1 + 1 by omega)
    rw [hresolve]
    exact hrest.after_turn hkept

end Tracks

end Session

end TimelineStore
