import TimelineStore.Proofs.Reading.Failed
import TimelineStore.Proofs.Session.ReadPaths

/-!
# Jobs that read tracks

A worker goes through its job turn by turn, and between two turns it may be asked to stop.
Whenever that happens, what the worker does with a request is a read track by track with
some course: it sees before each track whether it was asked to stop.

**Results.**
* `Job.exists_course`: a worker does with a request what a read of some course does.
* `Course.failed_load_leaves`: what a read that fails leaves, in either mode.
-/

namespace TimelineStore

namespace Job

/-- The turns of a worker from a job to its end, and the reading that they come to.  The run
may stand otherwise at each turn, but it keeps its name. -/
inductive Ends (name : String) : Trace → Job → Reading String → Prop where
  | last {run : Run Job} {trace : Trace} {job : Job} {reading : Reading String} :
      run.meter.source = name → job.turn run trace = ofReading reading →
        Ends name trace job reading
  | next {run : Run Job} {trace middle : Trace} {job rest : Job} {steps : List Step}
      {reading : Reading String} :
      run.meter.source = name → job.turn run trace = (middle, ⟨steps, .work rest⟩) →
        Ends name middle rest reading →
          Ends name trace job { reading with steps := steps ++ reading.steps }

/-- A course of one source in which the read goes on until it was asked to stop. -/
structure AskedToStop (name : String) (source : Source) (course : Course) : Prop where
  source : ∀ place, course.source place = source
  checkpoint : ∀ place,
    course.checkpoint place = .ok () ∨ course.checkpoint place = .error (.interrupted name)

theorem AskedToStop.calm
    (name : String) (source : Source) :
    AskedToStop name source (.calm source) :=
  ⟨fun _ => rfl, fun _ => .inl rfl⟩

/-- The course with the checkpoint at a place passed. -/
def passing (course : Course) (place : Nat) : Course :=
  { course with checkpoint := Function.update course.checkpoint place (.ok ()) }

theorem AskedToStop.passing
    {name : String} {source : Source} {course : Course}
    (hasked : AskedToStop name source course) (place : Nat) :
    AskedToStop name source (passing course place) := by
  refine ⟨hasked.source, fun other => ?_⟩
  by_cases hother : other = place
  · subst hother
    exact .inl (Function.update_self other _ _)
  · have hkept : (Job.passing course place).checkpoint other = course.checkpoint other :=
      Function.update_of_ne hother _ _
    rw [hkept]
    exact hasked.checkpoint other

section InTurn

variable
  {name : String} {source : Source} {id : TraceId} {window : Window} {share : Float}

/-- Reading on from a place does not look at the checkpoints before it. -/
theorem loadInTurn_passing
    (course : Course) {passed : Nat} :
    ∀ {place : Nat} (left : List Track) (totals : ChunkTotals) (trace : Trace),
      passed < place →
        (passing course passed).loadInTurn window share place left totals trace =
          course.loadInTurn window share place left totals trace
  | _, [], _, _, _ => rfl
  | place, track :: left, totals, trace, hpassed => by
      have hcheckpoint : (passing course passed).checkpoint place = course.checkpoint place :=
        Function.update_of_ne (Nat.ne_of_gt hpassed) _ _
      have hrows : (passing course passed).rows window place track =
          course.rows window place track := by
        rw [Course.rows, Course.rows, hcheckpoint]
        rfl
      simp only [Course.loadInTurn, hrows]
      cases course.rows window place track with
      | error failure => rfl
      | ok rows =>
          have hrest := loadInTurn_passing course left
            (totals.add (trace.materialize track window rows).1)
            (trace.materialize track window rows).2 (Nat.lt_succ_of_lt hpassed)
          simp only [hrest]

/-- The worker comes to a track: it was asked to stop, or it begins with the track. -/
theorem Ends.begin_cases
    {track : Track} {left : List Track} {totals : ChunkTotals} {trace : Trace}
    {reading : Reading String}
    (hends : Ends name trace (.inTurn source id window share totals (track :: left) false)
      reading) :
    reading = .failed trace (.interrupted name) ∨
      Ends name trace (.inTurn source id window share totals (track :: left) true) reading := by
  cases hends with
  | @last run _ _ _ hname hturn =>
      left
      cases hasked : run.interrupted with
      | false => simp [turn, hasked, ofReading] at hturn
      | true =>
          simp only [turn, hasked, if_true, ofReading, Run.interruption, hname] at hturn
          cases reading
          simp_all [Reading.failed]
  | @next run _ _ _ _ _ rest hname hturn hrest =>
      right
      cases hasked : run.interrupted with
      | true => simp [turn, hasked] at hturn
      | false =>
          simp only [turn, hasked, Bool.false_eq_true, if_false, Prod.mk.injEq, Turn.mk.injEq,
            Next.work.injEq] at hturn
          obtain ⟨rfl, rfl, rfl⟩ := hturn
          exact hrest

/-- The worker reads a track that it has begun with: that fails, or it goes on with the
others. -/
theorem Ends.reading_cases
    {track : Track} {left : List Track} {totals : ChunkTotals} {trace : Trace}
    {reading : Reading String}
    (hends : Ends name trace (.inTurn source id window share totals (track :: left) true)
      reading) :
    (∃ failure, source.readTrack track.descriptor window = .error failure ∧
        reading = .failed trace failure) ∨
      ∃ rows rest, source.readTrack track.descriptor window = .ok rows ∧
        Ends name (trace.materialize track window rows).2
          (.inTurn source id window share
            (totals.add (trace.materialize track window rows).1) left false) rest ∧
        reading = rest.after (Source.trackStep share track) := by
  cases hrows : source.readTrack track.descriptor window with
  | error failure =>
      refine .inl ⟨failure, rfl, ?_⟩
      cases hends with
      | last hname hturn =>
          simp only [turn, Source.loadTrack_eq, hrows, Except.map, ofReading] at hturn
          cases reading
          simp_all [Reading.failed]
      | next hname hturn hrest => simp [turn, Source.loadTrack_eq, hrows, Except.map] at hturn
  | ok rows =>
      refine .inr ⟨rows, ?_⟩
      cases hends with
      | last hname hturn => simp [turn, Source.loadTrack_eq, hrows, Except.map, ofReading] at hturn
      | @next _ _ _ _ _ _ rest hname hturn hrest =>
          simp only [turn, Source.loadTrack_eq, hrows, Except.map, Prod.mk.injEq, Turn.mk.injEq,
            Next.work.injEq] at hturn
          obtain ⟨rfl, rfl, rfl⟩ := hturn
          exact ⟨rest, rfl, hrest, rfl⟩

/-- What a worker does with tracks is what reading them in turn does with some course. -/
theorem exists_course_inTurn
    {left : List Track} {totals : ChunkTotals} {trace : Trace} {reading : Reading String}
    (place : Nat)
    (hends : Ends name trace (.inTurn source id window share totals left false) reading) :
    ∃ course, AskedToStop name source course ∧
      reading = Session.told (course.loadInTurn window share place left totals trace) := by
  induction left generalizing totals trace reading place with
  | nil =>
      refine ⟨.calm source, .calm name source, ?_⟩
      cases hends with
      | last hname hturn =>
          simp only [turn, ofReading] at hturn
          cases reading
          simp_all [Session.told, Course.loadInTurn, Except.map]
      | next hname hturn hrest => cases hturn
  | cons track left ih =>
      rcases hends.begin_cases with rfl | hbegun
      · exact ⟨⟨fun _ => .error (.interrupted name), fun _ => source⟩,
          ⟨fun _ => rfl, fun _ => .inr rfl⟩, rfl⟩
      · rcases hbegun.reading_cases with ⟨failure, hrows, rfl⟩ | ⟨rows, rest, hrows, hrest, rfl⟩
        · have hcalm : (Course.calm source).rows window place track = .error failure := hrows
          refine ⟨.calm source, .calm name source, ?_⟩
          simp only [Course.loadInTurn, hcalm]
          rfl
        · obtain ⟨later, hlater, rfl⟩ := ih (place + 1) hrest
          have hpassed : (passing later place).rows window place track = .ok rows := by
            have hcheckpoint : (passing later place).checkpoint place = .ok () :=
              Function.update_self place _ _
            have hsource : (passing later place).source place = source := hlater.source place
            rw [Course.rows, hcheckpoint, hsource]
            exact hrows
          refine ⟨passing later place, hlater.passing place, ?_⟩
          simp only [Course.loadInTurn, hpassed,
            loadInTurn_passing later left _ _ (Nat.lt_succ_self place)]
          rfl

/-- **What a worker does with a request** is what a read track by track of some course
does. -/
theorem exists_course
    {request : Request} {trace : Trace} {reading : Reading String}
    (hends : Ends name trace (.slice source id request) reading) :
    ∃ course, AskedToStop name source course ∧
      reading = Session.told (course.load .each request trace) := by
  cases hresolve : trace.resolve request.tracks with
  | error failure =>
      refine ⟨.calm source, .calm name source, ?_⟩
      cases hends with
      | last hname hturn =>
          simp only [turn, hresolve, ofReading] at hturn
          cases reading
          simp_all [Session.told, Course.load, Course.loadEach, Reading.failed, Except.map]
      | next hname hturn hrest => simp [turn, hresolve] at hturn
  | ok found =>
      cases hends with
      | last hname hturn => simp [turn, hresolve, ofReading] at hturn
      | next hname hturn hrest =>
          simp only [turn, hresolve, Prod.mk.injEq, Turn.mk.injEq, Next.work.injEq] at hturn
          obtain ⟨rfl, rfl, rfl⟩ := hturn
          obtain ⟨course, hcourse, rfl⟩ := exists_course_inTurn 0 hrest
          refine ⟨course, hcourse, ?_⟩
          simp only [Course.load, Course.loadEach, hresolve]
          rfl

end InTurn

end Job

/-- **What a read that fails leaves.**  As one batch it leaves the trace as it was.  Track by
track it leaves what the read of the tracks before the failed one leaves, which succeeds;
these are none if some track cannot be named, wherever that one stands in the request.  A
read that nobody stops and the work on a future are reads of some course. -/
theorem Course.failed_load_leaves
    (request : Request) (trace : Trace) :
    (∀ (course : Course) (failure : Failure),
      (course.load .batch request trace).result = .error failure →
        (course.load .batch request trace).trace = trace) ∧
    (∀ (course : Course) (failure : Failure),
      (course.load .each request trace).result = .error failure →
        ∃ count, course.FailsAt request trace count failure ∧
          course.LeavesFirst request trace count (course.load .each request trace).trace) ∧
    (∀ (course : Course) (mode : ReadMode), trace.Lacks request.tracks →
      ∃ failure, course.load mode request trace = .failed trace failure) ∧
    (∀ (source : Source) (mode : ReadMode),
      source.load mode request trace = (Course.calm source).load mode request trace) ∧
    (∀ (name : String) (source : Source) (id : TraceId) (reading : Reading String),
      Job.Ends name trace (.slice source id request) reading →
        ∃ course, Job.AskedToStop name source course ∧
          reading = Session.told (course.load .each request trace)) := by
  refine ⟨?_, ?_, ?_, ?_, ?_⟩
  · intro course failure hfailed
    exact course.trace_loadBatch_of_error hfailed
  · intro course failure hfailed
    exact course.leavesFirst_of_error hfailed
  · intro course mode hlacks
    exact course.load_of_lacks mode hlacks
  · intro source mode
    exact (Course.load_calm source mode request trace).symm
  · intro name source id reading hends
    exact Job.exists_course hends

section Example

open Session (capture loaded both)

/-- The read of the capture is asked to stop before its second track. -/
def Course.cutShort : Course :=
  ⟨fun place => if place = 0 then .ok () else .error (.interrupted "capture"),
    fun _ => capture.toSource⟩

/-- The capture, with no row set for any batch. -/
def Course.short : Course :=
  .calm { capture.toSource with readTracks := fun _ _ => .ok [] }

/-- The queue of the capture, and its thread. -/
def Course.queue : Track :=
  .fresh ⟨1⟩ ⟨0, .kernel, "main", "queue 1", []⟩

def Course.thread : Track :=
  .fresh ⟨0⟩ ⟨0, .region, "main", "thread 1", []⟩

/-- The queue is read before the read is cut short. -/
theorem Course.load_cutShort :
    ∃ steps : List Step,
      cutShort.load .each both loaded =
        ⟨(loaded.materialize queue both.window [.event ⟨3, .dispatch, 12, 9, "kernel", "f"⟩]).2,
          steps, .error (.interrupted "capture")⟩ := by
  have hresolve : loaded.resolve both.tracks = .ok [queue, thread] := rfl
  have hqueue : cutShort.rows both.window 0 queue =
      .ok [.event ⟨3, .dispatch, 12, 9, "kernel", "f"⟩] := rfl
  have hthread : cutShort.rows both.window 1 thread = .error (.interrupted "capture") := rfl
  refine ⟨[Source.trackStep (Source.trackShare 2) queue], ?_⟩
  simp only [load, loadEach, hresolve, loadInTurn, hqueue, hthread]
  rfl

theorem Course.failed_load_leaves_capture :
    (Course.short.load .batch both loaded).result =
        .error (.internal "source returned 0 row sets for 2 tracks") ∧
      (Course.short.load .batch both loaded).trace = loaded ∧
      (cutShort.load .each both loaded).result = .error (.interrupted "capture") ∧
      (cutShort.load .each both loaded).trace.tracks.map Track.chunkCount = [0, 1] ∧
      ∃ count, cutShort.FailsAt both loaded count (.interrupted "capture") ∧
        cutShort.LeavesFirst both loaded count (cutShort.load .each both loaded).trace := by
  have hbatch : (Course.short.load .batch both loaded).result =
      .error (.internal "source returned 0 row sets for 2 tracks") := rfl
  obtain ⟨steps, heach⟩ := load_cutShort
  have hresult : (cutShort.load .each both loaded).result = .error (.interrupted "capture") := by
    rw [heach]
  have hcounts : ((loaded.materialize queue both.window
      [.event ⟨3, .dispatch, 12, 9, "kernel", "f"⟩]).2.tracks.map Track.chunkCount) = [0, 1] := by
    cbv
  obtain ⟨hkept, hfirst, -⟩ := failed_load_leaves both loaded
  refine ⟨hbatch, hkept _ _ hbatch, hresult, ?_, hfirst _ _ hresult⟩
  rw [heach]
  exact hcounts

end Example

end TimelineStore
