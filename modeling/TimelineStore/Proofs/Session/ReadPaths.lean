import Mathlib
import TimelineStore.Proofs.Reading.Modes
import TimelineStore.Proofs.Session.Serves
import TimelineStore.Proofs.Session.Work
import TimelineStore.Source.Memory

/-!
# Three ways to read a request

A request is read as one batch, track by track, or by the worker of a future.  For a
source that reads a batch one by one the three come to the same: they end with the same
totals or with the same failure, and if they succeed they leave the same traces.

**Results.**
* `Session.read_paths_agree`: the three ways agree in every reachable session.
-/

namespace TimelineStore

namespace Session

section Paths

variable
  {session : Session} {database : DatabaseId} {attached : Attached} {trace : Trace}
  {id : FutureId} {future : Future Job} {request : Request}

/-- The run of a read of a request that has just been scheduled. -/
def readRun (session : Session) (attached : Attached) (trace : TraceId) (request : Request) :
    Run Job :=
  .start "read slice" attached.source.name session.config.progressCapacity
    (.slice attached.source trace request)

/-- The future of a read of a request that has just been scheduled. -/
def readFuture
    (session : Session) (attached : Attached) (trace : TraceId) (request : Request)
    (future : Future Job) : Future Job :=
  { future with state := .scheduled }.carrying (session.readRun attached trace request)

/-- A read is scheduled on a future that nothing is in flight on. -/
theorem scheduleRead_eq
    (request : Request)
    (hdatabase : session.database database = .ok attached)
    (hserved : session.servedTrace database attached = .ok trace)
    (hfuture : session.future id = .ok future)
    (hidle : future.isInFlight = false) :
    session.scheduleRead database request id =
      .ok (session.putFuture (session.readFuture attached trace.id request future)) := by
  refine Outcome.bind_eq_ok_iff.2 ⟨attached, hdatabase, ?_⟩
  refine Outcome.bind_eq_ok_iff.2 ⟨future, hfuture, ?_⟩
  refine Outcome.bind_eq_ok_iff.2 ⟨trace, hserved, ?_⟩
  refine Outcome.bind_eq_ok_iff.2 ⟨_, Future.schedule_of_idle hidle _ _ _ _, ?_⟩
  rfl

/-- What a wait ends with after the worker of a read ended its job. -/
theorem wait_of_worked
    {before after : Session} {run : Run Job} {target : TraceId} {held : HeldTrace}
    {reading : Reading String}
    (hworked : Worked before after id future run target held reading)
    (seconds : Option Nat) :
    (after.wait id seconds).result = reading.result.map (fun _ => ()) ∧
      before.SameButTrace (after.wait id seconds).session target
        { held with trace := reading.trace } ∧
      ∀ text : String, reading.result = .ok text → future.listens = true →
        (after.wait id seconds).events.getLast? =
          some (Meter.completed run.meter.source text) := by
  have hfuture := future_eq_ok_iff.2 hworked.carried
  obtain ⟨last, hphase⟩ :=
    (reading.steps.foldl Run.report run).phase_resolve reading.result
  have hruns : (future.carrying ((reading.steps.foldl Run.report run).resolve
      reading.result)).run = some ((reading.steps.foldl Run.report run).resolve
        reading.result) := rfl
  obtain ⟨hresult, hevents⟩ := Future.wait_of_resolved hruns hphase seconds
  refine ⟨?_, ?_, ?_⟩
  · simp only [wait, hfuture]
    exact hresult
  · simp only [wait, hfuture]
    exact hworked.traces
  · intro text htext hlistens
    have hlast : last = Meter.completed run.meter.source text := by
      rw [htext, Run.phase_resolve_ok, Run.source_foldl_report] at hphase
      cases hphase
      rfl
    simp only [wait, hfuture]
    rw [hevents, hlast]
    simp [Future.heard, Future.carrying, hlistens]

/-- A scheduled read has its worker at the job. -/
theorem working_scheduled
    {held : HeldTrace} {number : Nat}
    (request : Request) (attached : Attached)
    (hnumbered : session.Numbered)
    (hheld : session.traces.get? number = some held)
    (hfuture : session.future id = .ok future) :
    (session.putFuture (session.readFuture attached held.trace.id request future)).Working id
      (session.readFuture attached held.trace.id request future)
      (session.readRun attached held.trace.id request)
      (.slice attached.source held.trace.id request) held := by
  have hslot := future_eq_ok_iff.1 hfuture
  have hid : future.id = id := hnumbered.futures id.index future hslot
  have htrace : held.trace.id = ⟨number⟩ := hnumbered.traces number held hheld
  constructor
  · have hindex : (session.readFuture attached held.trace.id request future).id.index = id.index :=
      congrArg FutureId.index hid
    rw [get?_putFuture, hindex, if_pos rfl, hslot]
    rfl
  · exact hid
  · rfl
  · rfl
  · rfl
  · have hindex : (Job.slice attached.source held.trace.id request).trace.index = number :=
      congrArg TraceId.index htrace
    rw [hindex]
    exact hheld
  · rfl

/-- **The three ways to read a request agree.**  They end with the same totals or with the
same failure.  If they succeed, they leave the same traces, with the same chunks, levels and
texts, and their closing events say the same. -/
theorem read_paths_agree
    {config : Config}
    (request : Request) (seconds : Option Nat)
    (hreach : Reachable config session)
    (hdatabase : session.database database = .ok attached)
    (hdefault : attached.source.readTracks = Source.oneByOne attached.source.readTrack)
    (hserved : session.servedTrace database attached = .ok trace)
    (hfuture : session.future id = .ok future)
    (hidle : future.isInFlight = false) :
    ∃ scheduled : Session,
      session.scheduleRead database request id = .ok scheduled ∧
      let batch := session.read database request .batch
      let each := session.read database request .each
      let waited := (scheduled.complete id).wait id seconds
      each.result = batch.result ∧
      waited.result = batch.result.map (fun _ => ()) ∧
      ∀ totals : ChunkTotals, batch.result = .ok totals →
        let last := Meter.completed attached.source.name totals.completion
        (∀ number : Nat,
          each.session.traces.get? number = batch.session.traces.get? number ∧
          waited.session.traces.get? number = batch.session.traces.get? number) ∧
        batch.events.getLast? = some last ∧
        each.events.getLast? = some last ∧
        (future.listens = true → waited.events.getLast? = some last) := by
  obtain ⟨number, held, hheld, rfl⟩ := held_of_servedTrace hserved
  have hnumbered := numbered_of_reachable hreach
  have htrace : held.trace.id = ⟨number⟩ := hnumbered.traces number held hheld
  have hscheduled := scheduleRead_eq request hdatabase hserved hfuture hidle
  have hworked := worked_complete (working_scheduled request attached hnumbered hheld hfuture)
  obtain ⟨hresult, htraces, hevents⟩ := wait_of_worked hworked seconds
  have hmodes : (attached.source.loadEach request held.trace).result =
      (attached.source.loadBatch request held.trace).result := Source.result_loadEach hdefault
  refine ⟨_, hscheduled, ?_⟩
  simp only [read_eq hdatabase hserved, Source.load]
  refine ⟨hmodes, ?_, ?_⟩
  · rw [hresult, ← hmodes]
    simp only [told]
    cases (attached.source.loadEach request held.trace).result <;> rfl
  · intro totals hbatch
    have heach := hmodes.trans hbatch
    have hsame := Source.trace_loadEach hdefault hbatch
    have hid := (Source.continues_load_of_ok .batch hdefault hbatch).id
    refine ⟨fun number => ⟨by rw [hsame], ?_⟩, Reading.getLast?_events hbatch _ _,
      Reading.getLast?_events heach _ _, ?_⟩
    · rw [htraces, get?_putTrace]
      simp only [Source.load] at hid
      rw [hid]
      split
      · rename_i hnumber
        rw [hnumber, htrace, hheld]
        simp only [told, hsame, Option.map_some]
      · rfl
    · intro hlistens
      have htold : (told (attached.source.loadEach request held.trace)).result =
          .ok totals.completion := by
        simp only [told, heach, Except.map]
      exact hevents totals.completion htold hlistens

end Paths

section Example

/-- A thread with two calls and a queue with one kernel; both name the function `f`. -/
def capture : MemorySource where
  name := "capture"
  window := some ⟨10, 40⟩
  tracks :=
    [(⟨0, .region, "main", "thread 1", []⟩,
      [.event ⟨1, .launch, 10, 20, "call", "f"⟩, .event ⟨2, .launch, 15, 5, "call", "g"⟩]),
    (⟨0, .kernel, "main", "queue 1", []⟩, [.event ⟨3, .dispatch, 12, 9, "kernel", "f"⟩])]
  details := .empty

/-- The capture is attached to a session with one trace. -/
def opened : Session :=
  ((empty .standard).attach capture.toSource).2.createTrace.2

/-- The capture is bound to the trace. -/
def bound : Session :=
  ((opened.bind ⟨0⟩ ⟨0⟩).toOption).getD opened

/-- The trace is loaded, and there is a future that is heard. -/
def ready : Session :=
  ((bound.readMetadata ⟨0⟩).session.allocate true).2

theorem reachable_ready : Reachable .standard ready := by
  have hopened : Reachable .standard opened :=
    (Reachable.empty.step (.attach _ capture.toSource)).step (.createTrace _)
  have hbound : opened.bind ⟨0⟩ ⟨0⟩ = .ok bound := rfl
  exact ((hopened.step (.bind hbound)).step (.readMetadata _ _)).step (.allocate _ _)

/-- Both tracks over part of their time. -/
def both : Request :=
  ⟨⟨12, 20⟩, [⟨1⟩, ⟨0⟩], by decide, by decide, by decide⟩

/-- The trace that the capture is read into. -/
def loaded : Trace :=
  { Trace.fresh ⟨0⟩ with boundTo := some ⟨0⟩ }.loadMetadata capture.metadata

theorem result_read_ready :
    (ready.read ⟨0⟩ both .batch).result = .ok ⟨2, 3, 256⟩ := by
  have hserved : ready.servedTrace ⟨0⟩ ⟨capture.toSource, .empty, some ⟨0⟩⟩ = .ok loaded := rfl
  have hresolve : loaded.resolve both.tracks = .ok loaded.tracks.reverse := rfl
  have hsets : Source.oneByOne capture.toSource.readTrack
      (loaded.tracks.reverse.map (·.descriptor)) both.window =
        .ok (capture.tracks.reverse.map Prod.snd) := rfl
  have htotals : (Source.storeSets both.window
      (loaded.tracks.reverse.zip (capture.tracks.reverse.map Prod.snd)) .zero loaded).1 =
        ⟨2, 3, 256⟩ := by cbv
  rw [read_eq rfl hserved .batch, ← htotals]
  exact (Source.load_of_readTracks .batch rfl hresolve hsets).1

theorem read_paths_agree_capture :
    ∃ scheduled : Session,
      ready.scheduleRead ⟨0⟩ both ⟨0⟩ = .ok scheduled ∧
      (ready.read ⟨0⟩ both .batch).result = .ok ⟨2, 3, 256⟩ ∧
      (ready.read ⟨0⟩ both .each).result = .ok ⟨2, 3, 256⟩ ∧
      ((scheduled.complete ⟨0⟩).wait ⟨0⟩ none).result = .ok () ∧
      ((scheduled.complete ⟨0⟩).wait ⟨0⟩ none).events.getLast?.map (·.message) =
        some "2 chunks loaded, 3 records" := by
  have hserved : ready.servedTrace ⟨0⟩ ⟨capture.toSource, .empty, some ⟨0⟩⟩ = .ok loaded := rfl
  have hfuture : ready.future ⟨0⟩ = .ok (.fresh ⟨0⟩ true) := rfl
  obtain ⟨scheduled, hscheduled, heach, hwaited, hok⟩ :=
    read_paths_agree both none reachable_ready rfl rfl hserved hfuture rfl
  have hbatch := result_read_ready
  obtain ⟨-, -, -, hlast⟩ := hok _ hbatch
  refine ⟨scheduled, hscheduled, hbatch, heach.trans hbatch, ?_, ?_⟩
  · rw [hwaited, hbatch]
    rfl
  · rw [hlast rfl]
    rfl

end Example

end Session

end TimelineStore
