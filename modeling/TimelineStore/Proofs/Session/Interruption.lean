import TimelineStore.Proofs.Reading.Answers
import TimelineStore.Proofs.Session.ReadPaths

/-!
# Reads that are interrupted

A worker that reads tracks can be asked to stop at any moment: before it has found the tracks,
between two tracks, while it reads one, or when it has ended its job.  It sees that only at
the checkpoint before a track.  Counted in turns of the worker, the checkpoint of the track at
a place is passed in turn `2 * place + 2`, and the track is read in the turn after it, so what
is asked at a moment is first seen at the checkpoint of the place `moment / 2`, if the read
comes to it.

**Results.**
* `Course.loadInTurn_raised_of_comes`, `Course.loadInTurn_raised_of_not_comes`: reading in turn
  when a checkpoint stops the read.
* `Session.worked_stopped`: what a worker does that is asked to stop at a moment.
* `Session.interrupted_read`: what an interrupted read leaves.
-/

namespace TimelineStore

/-- The read was asked to stop before the checkpoint of a place, and after those before it. -/
def Course.raised (name : String) (source : Source) (place : Nat) : Course :=
  ⟨fun other => if other < place then .ok () else .error (.interrupted name), fun _ => source⟩

section Raised

variable {name : String} {source : Source} {window : Window} {share : Float}

/-- Reading some tracks one after the other comes to the checkpoint of a place. -/
def Source.Comes (source : Source) (window : Window) (tracks : List Track) (count : Nat) : Prop :=
  count < tracks.length ∧
    ∀ track ∈ tracks.take count, ∃ rows, source.readTrack track.descriptor window = .ok rows

theorem Source.comes_cons_iff
    {track : Track} {tracks : List Track} {count : Nat} :
    source.Comes window (track :: tracks) (count + 1) ↔
      (∃ rows, source.readTrack track.descriptor window = .ok rows) ∧
        source.Comes window tracks count := by
  simp only [Comes, List.length_cons, Nat.add_lt_add_iff_right, List.take_succ_cons,
    List.forall_mem_cons]
  exact and_left_comm

namespace Course

/-- The checkpoint stops the read. -/
theorem loadInTurn_raised_self
    (place : Nat) (track : Track) (left : List Track) (totals : ChunkTotals) (trace : Trace) :
    (raised name source place).loadInTurn window share place (track :: left) totals trace =
      .failed trace (.interrupted name) := by
  have hcheckpoint : (raised name source place).checkpoint place = .error (.interrupted name) :=
    if_neg (Nat.lt_irrefl place)
  have hrows : (raised name source place).rows window place track =
      .error (.interrupted name) := by
    rw [rows, hcheckpoint]
    rfl
  simp only [loadInTurn, hrows]

/-- An earlier checkpoint is passed, and its track is read. -/
theorem rows_raised
    {place other : Nat}
    (hpassed : other < place) (track : Track) :
    (raised name source place).rows window other track =
      source.readTrack track.descriptor window := by
  have hcheckpoint : (raised name source place).checkpoint other = .ok () := if_pos hpassed
  rw [rows, hcheckpoint]
  rfl

/-- **A read that comes to the checkpoint stops there**, with the tracks before it stored. -/
theorem loadInTurn_raised_of_comes :
    ∀ {tracks : List Track} {count : Nat} (place : Nat) (totals : ChunkTotals) (trace : Trace),
      source.Comes window tracks count →
        ∃ sets, (tracks.take count).mapM
            (fun track => source.readTrack track.descriptor window) = .ok sets ∧
          (raised name source (place + count)).loadInTurn window share place tracks totals trace =
            ⟨(Source.storeSets window ((tracks.take count).zip sets) totals trace).2,
              (tracks.take count).map (Source.trackStep share), .error (.interrupted name)⟩
  | [], _, _, _, _, hcomes => absurd hcomes.1 (Nat.not_lt_zero _)
  | track :: tracks, 0, place, totals, trace, _ => by
      refine ⟨[], rfl, ?_⟩
      rw [Nat.add_zero, loadInTurn_raised_self]
      rfl
  | track :: tracks, count + 1, place, totals, trace, hcomes => by
      obtain ⟨⟨rows, hrows⟩, hrest⟩ := Source.comes_cons_iff.1 hcomes
      obtain ⟨sets, hsets, hload⟩ := loadInTurn_raised_of_comes (place + 1)
        (totals.add (trace.materialize track window rows).1)
        (trace.materialize track window rows).2 hrest
      rw [Nat.add_right_comm, Nat.add_assoc] at hload
      refine ⟨rows :: sets, Outcome.mapM_cons_eq_ok_iff.2 ⟨rows, sets, hrows, hsets, rfl⟩, ?_⟩
      have hpassed : place < place + (count + 1) := by omega
      simp only [loadInTurn, rows_raised hpassed, hrows, hload]
      rfl

/-- A read that never comes to the checkpoint is not disturbed. -/
theorem loadInTurn_raised_of_not_comes :
    ∀ {tracks : List Track} {count : Nat} (place : Nat) (totals : ChunkTotals) (trace : Trace),
      ¬ source.Comes window tracks count →
        (raised name source (place + count)).loadInTurn window share place tracks totals trace =
          source.loadInTurn window share tracks totals trace
  | [], _, _, _, _, _ => rfl
  | track :: tracks, 0, _, _, _, hnever => by
      refine absurd ⟨Nat.succ_pos _, fun other hother => ?_⟩ hnever
      cases hother
  | track :: tracks, count + 1, place, totals, trace, hnever => by
      have hpassed : place < place + (count + 1) := by omega
      simp only [loadInTurn, Source.loadInTurn, rows_raised hpassed, Source.loadTrack_eq]
      cases hrows : source.readTrack track.descriptor window with
      | error failure => rfl
      | ok rows =>
          have hrest : ¬ source.Comes window tracks count := fun hcomes =>
            hnever (Source.comes_cons_iff.2 ⟨⟨rows, hrows⟩, hcomes⟩)
          have hload := loadInTurn_raised_of_not_comes (place + 1)
            (totals.add (trace.materialize track window rows).1)
            (trace.materialize track window rows).2 hrest
          rw [Nat.add_right_comm, Nat.add_assoc] at hload
          simp only [Except.map, hload]

end Course

end Raised

namespace Session

/-- The session after so many turns of the worker of a future. -/
def turns (session : Session) (id : FutureId) : Nat → Session
  | 0 => session
  | count + 1 => (session.turn id).turns id count

/-- The worker of a future is asked to stop after so many turns, and goes on to the end of its
job. -/
def stopped (session : Session) (id : FutureId) (moment : Nat) : Session :=
  ((session.turns id moment).interrupt id).2.complete id

section Ended

variable
  {before after : Session} {id : FutureId} {future : Future Job} {run : Run Job}
  {trace : TraceId} {held : HeldTrace} {reading : Reading String}

/-- A worker without a job makes no turn. -/
theorem turns_of_job?_eq_none
    (hjob : after.job? id = none) (count : Nat) :
    after.turns id count = after := by
  have hturn : after.turn id = after := by
    rcases after.turn_cases id with hsame | ⟨future, run, job, held, hcarried, hrun, hphase, -⟩
    · exact hsame
    · simp [job?, jobOf?, Future.phase?, hcarried, hrun, hphase] at hjob
  induction count with
  | zero => rfl
  | succ count ih => rw [turns, hturn, ih]

/-- Asking comes too late when the job has ended. -/
theorem Worked.interrupt
    (hid : future.id = id)
    (hworked : Worked before after id future run trace held reading) :
    Worked before (after.interrupt id).2 id future run trace held reading := by
  obtain ⟨last, hphase⟩ := (reading.steps.foldl Run.report run).phase_resolve reading.result
  have hlate : (future.carrying ((reading.steps.foldl Run.report run).resolve
      reading.result)).interrupt.2 = future.carrying ((reading.steps.foldl Run.report run).resolve
        reading.result) := by
    simp [Future.interrupt, Future.carrying, Run.isPending, hphase]
  have hafter : (after.interrupt id).2 = after.putFuture (future.carrying
      ((reading.steps.foldl Run.report run).resolve reading.result)) := by
    simp only [Session.interrupt, future_eq_ok_iff.2 hworked.carried, hlate]
  rw [hafter]
  refine ⟨?_, hworked.traces⟩
  have hindex : (future.carrying ((reading.steps.foldl Run.report run).resolve
      reading.result)).id.index = id.index := congrArg FutureId.index hid
  rw [get?_putFuture, hindex, if_pos rfl, hworked.carried]
  rfl

/-- **Asked after the end of its job, a worker leaves what it left.** -/
theorem Worked.stopped
    (hid : future.id = id)
    (hworked : Worked before after id future run trace held reading) (moment : Nat) :
    Worked before (after.stopped id moment) id future run trace held reading := by
  have hinterrupted := hworked.interrupt hid
  rw [Session.stopped, turns_of_job?_eq_none hworked.job?_eq, complete, hinterrupted.job?_eq]
  exact hinterrupted

end Ended

section Asked

variable
  {session : Session} {id : FutureId} {future : Future Job} {run : Run Job} {job : Job}
  {held : HeldTrace} {name : String} {source : Source} {trace : TraceId} {window : Window}
  {share : Float} {left : List Track} {totals : ChunkTotals}

/-- A worker that is asked to stop is still at its job. -/
theorem Busy.interrupt
    (hbusy : session.Busy id future run job held) :
    (session.interrupt id).2.Busy id (future.carrying (run.flagged true)) (run.flagged true) job
        held ∧
      (session.interrupt id).2.traces = session.traces := by
  have hasked : future.interrupt.2 = future.carrying (run.flagged true) := by
    simp [Future.interrupt, hbusy.runs, Run.isPending, hbusy.running, Future.carrying,
      Run.flagged]
  have hafter : (session.interrupt id).2 =
      session.putFuture (future.carrying (run.flagged true)) := by
    simp only [Session.interrupt, future_eq_ok_iff.2 hbusy.carried, hasked]
  have hindex : (future.carrying (run.flagged true)).id.index = id.index :=
    congrArg FutureId.index hbusy.carriedId
  rw [hafter]
  refine ⟨⟨?_, hbusy.carriedId, rfl, hbusy.running, hbusy.holds, hbusy.heldId⟩, rfl⟩
  rw [get?_putFuture, hindex, if_pos rfl, hbusy.carried]
  rfl

/-- What a worker leaves that was asked to stop, seen from before it was asked. -/
theorem Worked.of_interrupt
    {middle after : Session} {reading : Reading String}
    (htraces : middle.traces = session.traces)
    (hworked : Worked middle after id (future.carrying (run.flagged true)) (run.flagged true)
      trace held reading) :
    Worked session after id future (run.flagged true) trace held reading := by
  refine ⟨hworked.carried, fun number => ?_⟩
  rw [hworked.traces number, htraces]

theorem isReadingTrack_begin
    (left : List Track) :
    (Job.inTurn source trace window share totals left false).isReadingTrack = false := by
  cases left <;> rfl

/-- A worker that was asked to stop sees it at the next checkpoint, if there is one. -/
theorem Busy.worked_of_asked
    {turns queries : Nat}
    (hbusy : session.Busy id future run
      (.inTurn source trace window share totals left false) held)
    (hasked : run.interrupted = true)
    (hname : run.meter.source = name)
    (place : Nat) :
    Worked session (advanceWithin id (turns + 1) queries session).2 id future run trace held
      (told ((Course.raised name source place).loadInTurn window share place left totals
        held.trace)) := by
  have hworked : Worked session (session.turn id) id future run trace held
      (told ((Course.raised name source place).loadInTurn window share place left totals
        held.trace)) := by
    cases left with
    | nil => exact hbusy.turn_finished rfl rfl
    | cons track left =>
        rw [Course.loadInTurn_raised_self]
        refine hbusy.turn_finished ?_ rfl
        simp [Job.turn, hasked, Run.interruption, hname, told, Reading.failed, Except.map]
  rw [hbusy.advanceWithin_succ (isReadingTrack_begin left),
    advanceWithin_of_job?_eq_none hworked.job?_eq]
  exact hworked

/-- A worker that was asked to stop while it reads a track reads it to the end. -/
theorem Busy.worked_of_asked_reading
    {track : Track}
    (hbusy : session.Busy id future run
      (.inTurn source trace window share totals (track :: left) true) held)
    (hasked : run.interrupted = true)
    (hname : run.meter.source = name)
    (place : Nat) :
    Worked session (session.complete id) id future run trace held
      (told ((Course.raised name source (place + 1)).loadInTurn window share place
        (track :: left) totals held.trace)) := by
  have hturns : (Job.inTurn source trace window share totals (track :: left) true).turns =
      2 * left.length + 1 + 1 + 1 := rfl
  rw [hbusy.complete_eq, hturns, hbusy.advanceWithin_succ_of_reading rfl]
  simp only [Course.loadInTurn, Course.rows_raised (Nat.lt_succ_self place)]
  rcases hbusy.reading_cases with ⟨failure, hrows, hworked⟩ | ⟨rows, hrows, hnext, hsame⟩
  · rw [advanceWithin_of_job?_eq_none hworked.job?_eq, hrows]
    exact hworked
  · rw [hrows]
    exact (hnext.worked_of_asked hasked hname (place + 1)).after_turn hsame

/-- What a worker leaves that goes on after a turn and is asked to stop, seen from before the
turn. -/
theorem Worked.after_turn_flagged
    {middle after : Session} {stored : Trace} {phase : Phase Job} {steps : List Step}
    {asked : Bool} {reading : Reading String}
    (hsame : session.SameButTrace middle trace { held with trace := stored })
    (hworked : Worked middle after id
      (future.carrying ((steps.foldl Run.report run).standing phase))
      (((steps.foldl Run.report run).standing phase).flagged asked) trace
      { held with trace := stored } reading) :
    Worked session after id future (run.flagged asked) trace held
      { reading with steps := steps ++ reading.steps } := by
  have hrun : ((steps.foldl Run.report run).standing phase).flagged asked =
      (steps.foldl Run.report (run.flagged asked)).standing phase := by
    rw [Run.foldl_report_flagged]
    rfl
  rw [hrun] at hworked
  exact Worked.after_turn hsame ⟨hworked.carried, hworked.traces⟩

/-- A worker that is not asked in time is one that was not asked. -/
theorem Worked.unflagged
    {after : Session} {reading : Reading String}
    (hworked : Worked session after id future run trace held reading)
    (hcalm : run.interrupted = false) :
    ∃ asked, Worked session after id future (run.flagged asked) trace held reading := by
  refine ⟨false, ?_⟩
  rwa [show run.flagged false = run by rw [Run.flagged, ← hcalm]]

/-- Asked at once, a worker is at its job with the flag raised. -/
theorem Busy.stopped_zero
    {reading : Reading String}
    (hbusy : session.Busy id future run job held)
    (hasked : ∀ asked : Session, asked.Busy id (future.carrying (run.flagged true))
        (run.flagged true) job held →
      Worked asked (asked.complete id) id (future.carrying (run.flagged true))
        (run.flagged true) job.trace held reading) :
    ∃ asked, Worked session (session.stopped id 0) id future (run.flagged asked) job.trace held
      reading := by
  obtain ⟨hstill, htraces⟩ := hbusy.interrupt
  exact ⟨true, .of_interrupt htraces (hasked _ hstill)⟩

/-- **A worker that is asked to stop while it reads tracks** leaves what reading them in turn
leaves that is stopped at a checkpoint.  Each track takes a turn to begin with it, which has
the checkpoint, and a turn to read it. -/
theorem worked_stopped_inTurn :
    ∀ {left : List Track} {session : Session} {future : Future Job} {run : Run Job}
      {held : HeldTrace} {totals : ChunkTotals} (moment place : Nat),
      session.Busy id future run (.inTurn source trace window share totals left false) held →
        run.interrupted = false → run.meter.source = name →
          ∃ asked, Worked session (session.stopped id moment) id future (run.flagged asked) trace
            held (told ((Course.raised name source (place + (moment + 1) / 2)).loadInTurn window
              share place left totals held.trace))
  | left, _, _, _, _, totals, 0, place, hbusy, _, hname =>
      hbusy.stopped_zero fun asked hstill => by
        have hturns : (Job.inTurn source trace window share totals left false).turns =
            2 * left.length + 1 := rfl
        rw [hstill.complete_eq, hturns]
        exact hstill.worked_of_asked rfl hname place
  | [], session, future, run, held, totals, moment + 1, place, hbusy, hcalm, _ => by
      have hworked : Worked session (session.turn id) id future run trace held
          (told (source.loadInTurn window share [] totals held.trace)) :=
        hbusy.turn_finished rfl rfl
      exact (hworked.stopped hbusy.carriedId moment).unflagged hcalm
  | track :: left, session, future, run, held, totals, moment + 1, place, hbusy, hcalm, hname => by
      obtain ⟨hbegun, hkept⟩ := hbusy.begin_track hcalm
      cases moment with
      | zero =>
          obtain ⟨asked, hworked⟩ := hbegun.stopped_zero fun asked hstill =>
            hstill.worked_of_asked_reading rfl hname place
          exact ⟨asked, hworked.after_turn_flagged hkept⟩
      | succ moment =>
          have hplace : place + (moment + 1 + 1 + 1) / 2 = place + 1 + (moment + 1) / 2 := by
            omega
          have hpassed : place < place + 1 + (moment + 1) / 2 := by omega
          rw [hplace]
          simp only [Course.loadInTurn, Course.rows_raised hpassed]
          rcases hbegun.reading_cases with
            ⟨failure, hrows, hworked⟩ | ⟨rows, hrows, hnext, hstored⟩
          · obtain ⟨asked, hended⟩ :=
              (hworked.stopped hbegun.carriedId moment).unflagged hcalm
            rw [hrows]
            exact ⟨asked, hended.after_turn_flagged hkept⟩
          · obtain ⟨asked, hrest⟩ := worked_stopped_inTurn moment (place + 1) hnext hcalm hname
            rw [hrows]
            exact ⟨asked, (hrest.after_turn_flagged hstored).after_turn_flagged hkept⟩

/-- **A worker that is asked to stop at a moment of a read** leaves what a read track by track
leaves that is stopped at a checkpoint. -/
theorem worked_stopped
    {request : Request}
    (hbusy : session.Busy id future run (.slice source trace request) held)
    (hcalm : run.interrupted = false)
    (hname : run.meter.source = name)
    (moment : Nat) :
    ∃ asked, Worked session (session.stopped id moment) id future (run.flagged asked) trace held
      (told ((Course.raised name source (moment / 2)).load .each request held.trace)) := by
  simp only [Course.load, Course.loadEach]
  cases moment with
  | zero =>
      refine hbusy.stopped_zero fun asked hstill => ?_
      have hturns : (Job.slice source trace request).turns =
          2 * request.tracks.length + 1 + 1 := rfl
      rw [hstill.complete_eq, hturns, hstill.advanceWithin_succ rfl]
      rcases hstill.slice_cases with ⟨failure, hresolve, hworked⟩ | ⟨found, hresolve, hnext, hsame⟩
      · rw [advanceWithin_of_job?_eq_none hworked.job?_eq, hresolve]
        exact hworked
      · rw [hresolve]
        exact (hnext.worked_of_asked rfl hname 0).after_turn hsame
  | succ moment =>
      rcases hbusy.slice_cases with ⟨failure, hresolve, hworked⟩ | ⟨found, hresolve, hnext, hsame⟩
      · rw [hresolve]
        exact (hworked.stopped hbusy.carriedId moment).unflagged hcalm
      · obtain ⟨asked, hrest⟩ := worked_stopped_inTurn moment 0 hnext hcalm hname
        rw [Nat.zero_add] at hrest
        rw [hresolve]
        exact ⟨asked, hrest.after_turn_flagged hsame⟩

/-- Reading tracks, the worker stands before the checkpoint of a place after two turns for each
track before it. -/
theorem exists_busy_turns :
    ∀ {count : Nat} {left : List Track} {session : Session} {future : Future Job}
      {run : Run Job} {held : HeldTrace} {totals : ChunkTotals},
      session.Busy id future run (.inTurn source trace window share totals left false) held →
        run.interrupted = false → source.Comes window left count →
          ∃ future run held totals, (session.turns id (2 * count)).Busy id future run
            (.inTurn source trace window share totals (left.drop count) false) held
  | 0, _, _, _, _, _, _, hbusy, _, _ => ⟨_, _, _, _, hbusy⟩
  | _ + 1, [], _, _, _, _, _, _, _, hcomes => absurd hcomes.1 (Nat.not_lt_zero _)
  | count + 1, track :: left, session, future, run, held, totals, hbusy, hcalm, hcomes => by
      obtain ⟨⟨rows, hrows⟩, hrest⟩ := Source.comes_cons_iff.1 hcomes
      obtain ⟨hbegun, -⟩ := hbusy.begin_track hcalm
      rcases hbegun.reading_cases with ⟨failure, hfailed, -⟩ | ⟨_, -, hnext, -⟩
      · rw [hrows] at hfailed
        cases hfailed
      · have hturns : session.turns id (2 * (count + 1)) =
            ((session.turn id).turn id).turns id (2 * count) := rfl
        rw [hturns]
        exact exists_busy_turns hnext hcalm hrest

end Asked

section Waits

variable
  {before after : Session} {id : FutureId} {future : Future Job} {run : Run Job}
  {trace : TraceId} {held : HeldTrace} {reading : Reading String}

/-- What a wait comes to after the worker of a read ended its job, and how it leaves the
future; whether the worker was asked to stop has no part in it. -/
theorem Worked.wait_eq
    {asked : Bool}
    (hworked : Worked before after id future (run.flagged asked) trace held reading)
    (hid : future.id = id)
    (seconds : Option Nat) :
    ∃ last, ((reading.steps.foldl Run.report run).resolve reading.result).phase =
        .resolved (reading.result.map fun _ => ()) last ∧
      (after.wait id seconds).result = reading.result.map (fun _ => ()) ∧
      (after.wait id seconds).events =
        future.heard ((reading.steps.foldl Run.report run).queue ++ [last]) ∧
      before.SameButTrace (after.wait id seconds).session trace
        { held with trace := reading.trace } ∧
      (after.wait id seconds).session.futures.get? id.index = some { future with
        state := if reading.result.toBool then .succeeded else .failed
        run := none } := by
  have hcarried := hworked.carried
  rw [Run.foldl_report_flagged] at hcarried
  obtain ⟨last, hphase⟩ := (reading.steps.foldl Run.report run).phase_resolve reading.result
  have hruns : (future.carrying (((reading.steps.foldl Run.report run).flagged asked).resolve
      reading.result)).run =
        some (((reading.steps.foldl Run.report run).flagged asked).resolve reading.result) := rfl
  have hresolved : (((reading.steps.foldl Run.report run).flagged asked).resolve
      reading.result).phase = .resolved (reading.result.map fun _ => ()) last := hphase
  obtain ⟨hresult, hevents⟩ := Future.wait_of_resolved hruns hresolved seconds
  have hfuture := Future.future_wait_of_resolved hruns hresolved seconds
  have hindex : ((future.carrying (((reading.steps.foldl Run.report run).flagged asked).resolve
      reading.result)).wait seconds).future.id.index = id.index := by
    rw [hfuture]
    exact congrArg FutureId.index hid
  refine ⟨last, hphase, ?_⟩
  simp only [wait, future_eq_ok_iff.2 hcarried]
  refine ⟨hresult, hevents, hworked.traces, ?_⟩
  rw [get?_putFuture, hindex, if_pos rfl, hcarried, hfuture]
  cases reading.result <;> rfl

/-- Two workers that end a job alike cannot be told apart by a wait. -/
theorem Worked.wait_congr
    {other : Session} {asked unasked : Bool}
    (hworked : Worked before after id future (run.flagged asked) trace held reading)
    (hother : Worked before other id future (run.flagged unasked) trace held reading)
    (hid : future.id = id)
    (seconds : Option Nat) :
    (after.wait id seconds).result = (other.wait id seconds).result ∧
      (after.wait id seconds).events = (other.wait id seconds).events ∧
      (∀ number, (after.wait id seconds).session.traces.get? number =
        (other.wait id seconds).session.traces.get? number) ∧
      (after.wait id seconds).session.futures.get? id.index =
        (other.wait id seconds).session.futures.get? id.index := by
  obtain ⟨last, hphase, hresult, hevents, htraces, hfuture⟩ := hworked.wait_eq hid seconds
  obtain ⟨last', hphase', hresult', hevents', htraces', hfuture'⟩ := hother.wait_eq hid seconds
  obtain ⟨-, rfl⟩ := Phase.resolved.inj (hphase.symm.trans hphase')
  refine ⟨hresult.trans hresult'.symm, hevents.trans hevents'.symm, fun number => ?_,
    hfuture.trans hfuture'.symm⟩
  rw [htraces number, htraces' number]

/-- Before it is collected, a job that has ended shows how. -/
theorem Worked.stateOf?_eq
    (hworked : Worked before after id future run trace held reading) :
    after.stateOf? id = some (if reading.result.toBool then .succeeded else .failed) := by
  rw [stateOf?, hworked.carried]
  cases reading.result <;> rfl

end Waits

/-- What a read of tracks comes to that sees at the checkpoint of a place that it was asked to
stop: the session in which it ended, and what was told of it in a wait. -/
structure CutShort
    (session : Session) (database : DatabaseId) (source : Source) (request : Request)
    (id : FutureId) (future : Future Job) (found : List Track) (place : Nat)
    (ended : Session) (waited : Told (Except Failure Unit)) : Prop where
  result : waited.result = .error (.interrupted source.name)
  code : Code.ofResult waited.result = .timeout
  failed : ended.stateOf? id = some .failed ∧ waited.session.stateOf? id = some .failed
  /-- One step was reported for each track before the place. -/
  events :
    let told := (Meter.start source.name).advanceAll
      ((found.take place).map (Source.trackStep (Source.trackShare found.length)))
    let last := told.1.finish false (Failure.interrupted source.name).message
    waited.events = future.heard (told.2.take (max 1 session.config.progressCapacity) ++ [last.2])
  /-- Nothing is stored before the first track. -/
  nothing : place = 0 → ∀ number, waited.session.traces.get? number = session.traces.get? number
  /-- Else the traces are those that a read of the tracks before the place leaves. -/
  first : ∀ some : 0 < place, ∃ totals,
    let read := session.read database (request.first place some) .each
    read.result = .ok totals ∧
      ∀ number, waited.session.traces.get? number = read.session.traces.get? number

section Reads

variable
  {session : Session} {database : DatabaseId} {attached : Attached} {trace : Trace}
  {id : FutureId} {future : Future Job} {found : List Track} {number place : Nat}
  {held : HeldTrace}

/-- The first tracks of a request whose rows can be read are answered. -/
theorem answered_first
    {source : Source} {request : Request} {sets : List (List Row)}
    (hresolve : trace.resolve request.tracks = .ok found)
    (hsets : (found.take place).mapM
      (fun track => source.readTrack track.descriptor request.window) = .ok sets)
    (some : 0 < place) :
    source.Answered .each (request.first place some) trace (found.take place) sets where
  resolves := Trace.resolve_take hresolve place
  answers := (source.oneByOne_descriptors request.window _).trans hsets
  length := (Outcome.mapM_eq_ok_iff.1 hsets).length_eq.symm

/-- **A read that was asked to stop in time is cut short** at a checkpoint. -/
theorem cutShort_of_comes
    {request : Request}
    (hdatabase : session.database database = .ok attached)
    (hserved : session.servedTrace database attached = .ok held.trace)
    (hnumbered : session.Numbered)
    (hheld : session.traces.get? number = some held)
    (hfuture : session.future id = .ok future)
    (hresolve : held.trace.resolve request.tracks = .ok found)
    (hcomes : attached.source.Comes request.window found place)
    {ended : Session} {asked : Bool}
    (hworked : Worked
      (session.putFuture (session.readFuture attached held.trace.id request future)) ended id
      (session.readFuture attached held.trace.id request future)
      ((session.readRun attached held.trace.id request).flagged asked) held.trace.id held
      (told ((Course.raised attached.source.name attached.source place).load .each request
        held.trace)))
    (seconds : Option Nat) :
    session.CutShort database attached.source request id future found place ended
      (ended.wait id seconds) := by
  have hid : future.id = id := hnumbered.futures id.index future (future_eq_ok_iff.1 hfuture)
  have htrace : held.trace.id = ⟨number⟩ := hnumbered.traces number held hheld
  obtain ⟨sets, hsets, htold⟩ : ∃ sets, (found.take place).mapM
        (fun track => attached.source.readTrack track.descriptor request.window) = .ok sets ∧
      told ((Course.raised attached.source.name attached.source place).load .each request
        held.trace) = ⟨(Source.storeSets request.window ((found.take place).zip sets) .zero
          held.trace).2, (found.take place).map (Source.trackStep (Source.trackShare found.length)),
          .error (.interrupted attached.source.name)⟩ := by
    obtain ⟨sets, hsets, hload⟩ := Course.loadInTurn_raised_of_comes 0 .zero held.trace hcomes
    rw [Nat.zero_add] at hload
    refine ⟨sets, hsets, ?_⟩
    simp only [Course.load, Course.loadEach, hresolve]
    rw [hload]
    rfl
  rw [htold] at hworked
  obtain ⟨last, hphase, hresult, hevents, htraces, hafter⟩ := hworked.wait_eq hid seconds
  have hstored (number : Nat) : (ended.wait id seconds).session.traces.get? number =
      (session.putTrace (Source.storeSets request.window ((found.take place).zip sets) .zero
        held.trace).2).traces.get? number := by
    have hkept : (Source.storeSets request.window ((found.take place).zip sets) .zero
        held.trace).2.id = held.trace.id := (Source.continues_storeSets _ _ _ _).id
    rw [htraces number, get?_putTrace, hkept]
    split
    · rename_i hnumber
      rw [hnumber, htrace, hheld]
      rfl
    · rfl
  refine ⟨hresult, by rw [hresult]; rfl, ⟨hworked.stateOf?_eq, ?_⟩, ?_, fun hnone number => ?_,
    fun some => ?_⟩
  · rw [stateOf?, hafter]
    rfl
  · -- the queue was empty at first, and takes as many events as it has room for
    have hroom : (session.readRun attached held.trace.id request).queue.length ≤
        (session.readRun attached held.trace.id request).capacity := Nat.zero_le _
    obtain ⟨hmeter, hqueue⟩ := Run.meter_queue_foldl_report hroom
      ((found.take place).map (Source.trackStep (Source.trackShare found.length)))
    obtain ⟨-, rfl⟩ := Phase.resolved.inj hphase
    rw [hevents, hqueue, hmeter]
    rfl
  · rw [hstored, hnone, List.take_zero, List.zip_nil_left, Source.storeSets, get?_putTrace, htrace]
    split
    · rename_i hnumber
      rw [hnumber, hheld]
      rfl
    · rfl
  · have hanswered := answered_first hresolve hsets some
    refine ⟨_, (congrArg Told.result (read_eq hdatabase hserved .each)).trans
      hanswered.result_load, fun number => ?_⟩
    rw [hstored, read_eq hdatabase hserved .each, hanswered.trace_load]
    rfl

/-- A read that does not come to the checkpoint is the read that nobody stops. -/
theorem told_raised_of_not_comes
    {name : String} {source : Source} {request : Request}
    (hnever : ∀ found, trace.resolve request.tracks = .ok found →
      ¬ source.Comes request.window found place) :
    told ((Course.raised name source place).load .each request trace) =
      told (source.loadEach request trace) := by
  simp only [Course.load, Course.loadEach, Source.loadEach]
  cases hresolve : trace.resolve request.tracks with
  | error failure => rfl
  | ok found =>
      have hload : (Course.raised name source (0 + place)).loadInTurn request.window
          (Source.trackShare found.length) 0 found .zero trace =
            source.loadInTurn request.window (Source.trackShare found.length) found .zero trace :=
        Course.loadInTurn_raised_of_not_comes 0 .zero trace (hnever found hresolve)
      rw [Nat.zero_add] at hload
      exact congrArg told hload

/-- **A worker that is asked to stop stops before a track.**  It is asked at any moment of a
read, counted in turns.  If the read comes to the checkpoint of the place `moment / 2`, which
it stands before after one turn to find the tracks and two turns for each track before that
place, then it is cut short there.  If it does not, because the last checkpoint has been
passed, because rows could not be read or because some track cannot be named, then it ends as
if nobody had asked. -/
theorem interrupted_read
    {config : Config}
    (request : Request) (moment : Nat) (seconds : Option Nat)
    (hreach : Reachable config session)
    (hdatabase : session.database database = .ok attached)
    (hserved : session.servedTrace database attached = .ok trace)
    (hfuture : session.future id = .ok future)
    (hidle : future.isInFlight = false) :
    ∃ scheduled : Session, session.scheduleRead database request id = .ok scheduled ∧
      let source := attached.source
      let place := moment / 2
      let ended := scheduled.stopped id moment
      let waited := ended.wait id seconds
      (∀ found, trace.resolve request.tracks = .ok found →
        source.Comes request.window found place →
          (∃ totals, (scheduled.turns id (2 * place + 1)).job? id = some (.inTurn source trace.id
            request.window (Source.trackShare found.length) totals (found.drop place) false)) ∧
          session.CutShort database source request id future found place ended waited) ∧
      ((∀ found, trace.resolve request.tracks = .ok found →
          ¬ source.Comes request.window found place) →
        let calm := (scheduled.complete id).wait id seconds
        waited.result = calm.result ∧ waited.events = calm.events ∧
          (∀ number,
            waited.session.traces.get? number = calm.session.traces.get? number) ∧
          waited.session.futures.get? id.index = calm.session.futures.get? id.index) := by
  obtain ⟨number, held, hheld, rfl⟩ := held_of_servedTrace hserved
  have hnumbered := numbered_of_reachable hreach
  have hid : future.id = id := hnumbered.futures id.index future (future_eq_ok_iff.1 hfuture)
  have hworking := working_scheduled request attached hnumbered hheld hfuture
  obtain ⟨asked, hworked⟩ := worked_stopped hworking.busy rfl rfl moment
  refine ⟨_, scheduleRead_eq request hdatabase hserved hfuture hidle,
    fun found hresolve hcomes => ⟨?_, ?_⟩, fun hnever => ?_⟩
  · rcases hworking.busy.slice_cases with ⟨failure, hfailed, -⟩ | ⟨_, hfound, hbegun, -⟩
    · rw [hresolve] at hfailed
      cases hfailed
    · obtain rfl := Except.ok.inj (hresolve.symm.trans hfound)
      obtain ⟨_, _, _, totals, hbusy⟩ := exists_busy_turns hbegun rfl hcomes
      exact ⟨totals, hbusy.job?_eq⟩
  · exact cutShort_of_comes hdatabase hserved hnumbered hheld hfuture hresolve hcomes hworked
      seconds
  · rw [told_raised_of_not_comes hnever] at hworked
    obtain ⟨unasked, hcalm⟩ := (worked_complete hworking).unflagged rfl
    exact hworked.wait_congr hcalm hid seconds

end Reads

section Example

/-- The read of the capture is asked to stop when its queue has been read, and when it is
already reading its thread, which is the last track. -/
theorem interrupted_read_capture :
    ∃ scheduled : Session, ready.scheduleRead ⟨0⟩ both ⟨0⟩ = .ok scheduled ∧
      ((scheduled.stopped ⟨0⟩ 3).wait ⟨0⟩ none).result = .error (.interrupted "capture") ∧
      (scheduled.stopped ⟨0⟩ 3).stateOf? ⟨0⟩ = some .failed ∧
      ((scheduled.stopped ⟨0⟩ 4).wait ⟨0⟩ none).result =
        ((scheduled.complete ⟨0⟩).wait ⟨0⟩ none).result := by
  have hserved : ready.servedTrace ⟨0⟩ ⟨capture.toSource, .empty, some ⟨0⟩⟩ = .ok loaded := rfl
  have hfuture : ready.future ⟨0⟩ = .ok (.fresh ⟨0⟩ true) := rfl
  have hresolve : loaded.resolve both.tracks = .ok loaded.tracks.reverse := rfl
  have hcomes : capture.toSource.Comes both.window loaded.tracks.reverse 1 := by
    refine ⟨by decide, fun track htrack => ?_⟩
    obtain rfl := List.mem_singleton.1 htrack
    exact ⟨_, rfl⟩
  obtain ⟨scheduled, hscheduled, hcut, -⟩ :=
    interrupted_read both 3 none reachable_ready rfl hserved hfuture rfl
  obtain ⟨other, hother, -, hlate⟩ :=
    interrupted_read both 4 none reachable_ready rfl hserved hfuture rfl
  obtain rfl := Except.ok.inj (hscheduled.symm.trans hother)
  obtain ⟨-, hshort⟩ := hcut _ hresolve hcomes
  refine ⟨scheduled, hscheduled, hshort.result, hshort.failed.1, ?_⟩
  obtain ⟨hsame, -⟩ := hlate fun found hfound hcomes => by
    obtain rfl := Except.ok.inj (hresolve.symm.trans hfound)
    exact absurd hcomes.1 (by decide)
  exact hsame

end Example

end Session

end TimelineStore
