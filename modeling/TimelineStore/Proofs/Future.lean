import TimelineStore.Future

/-!
# Runs and waits

What a worker reports moves the meter and the queue of its run, and nothing of that
looks at where the run stands.  A wait hands over the queue, and with the result of a
resolved run its closing event.

**Results.**
* `Run.meter_queue_foldl_report`: what reports leave in the meter and in the queue.
* `Future.schedule_of_idle`: a future that nothing is in flight on takes a new run.
* `Future.wait_of_resolved`: what a wait on a resolved run ends with.
-/

namespace TimelineStore

/-- The closing event of an operation that succeeded. -/
def Meter.completed (source text : String) : ProgressEvent :=
  ((Meter.start source).finish true text).2

@[simp] theorem Meter.message_completed
    (source text : String) :
    (Meter.completed source text).message = text :=
  rfl

/-- A success is told alike, whatever was reported before. -/
theorem Meter.finish_succeeded
    (meter : Meter) (text : String) :
    (meter.finish true text).2 = Meter.completed meter.source text :=
  rfl

@[simp] theorem Meter.source_advance
    (meter : Meter) (step : Step) :
    (meter.advance step).1.source = meter.source :=
  rfl

@[simp] theorem Meter.source_advanceAll
    (meter : Meter) (steps : List Step) :
    (meter.advanceAll steps).1.source = meter.source := by
  induction steps generalizing meter with
  | nil => rfl
  | cons step steps ih =>
      simp only [Meter.advanceAll]
      rw [ih, Meter.source_advance]

namespace Run

variable {ω : Type} (run : Run ω) (phase : Phase ω)

/-- The run standing elsewhere. -/
def standing (run : Run ω) (phase : Phase ω) : Run ω :=
  { run with phase }

theorem foldl_report_standing
    (steps : List Step) :
    steps.foldl report (run.standing phase) = (steps.foldl report run).standing phase := by
  induction steps generalizing run with
  | nil => rfl
  | cons step steps ih =>
      rw [List.foldl_cons, List.foldl_cons, ← ih]
      rfl

theorem resolve_standing
    (result : Except Failure String) :
    (run.standing phase).resolve result = run.resolve result :=
  rfl

@[simp] theorem source_foldl_report
    (steps : List Step) :
    (steps.foldl report run).meter.source = run.meter.source := by
  induction steps generalizing run with
  | nil => rfl
  | cons step steps ih =>
      rw [List.foldl_cons, ih]
      rfl

@[simp] theorem interrupted_foldl_report
    (steps : List Step) :
    (steps.foldl report run).interrupted = run.interrupted := by
  induction steps generalizing run with
  | nil => rfl
  | cons step steps ih =>
      rw [List.foldl_cons, ih]
      rfl

/-- What is reported goes to the meter, and to the queue as long as it has room. -/
theorem meter_queue_foldl_report
    {run : Run ω}
    (hroom : run.queue.length ≤ run.capacity)
    (steps : List Step) :
    (steps.foldl report run).meter = (run.meter.advanceAll steps).1 ∧
      (steps.foldl report run).queue =
        (run.queue ++ (run.meter.advanceAll steps).2).take run.capacity := by
  induction steps generalizing run with
  | nil => simp [Meter.advanceAll, List.take_of_length_le hroom]
  | cons step steps ih =>
      by_cases hfull : run.queue.length < run.capacity
      · have hnext : (run.report step).queue.length ≤ (run.report step).capacity := by
          simp [report, hfull, Nat.succ_le_of_lt hfull]
        obtain ⟨hmeter, hqueue⟩ := ih hnext
        refine ⟨hmeter, hqueue.trans ?_⟩
        simp [report, hfull, Meter.advanceAll]
      · have hnext : (run.report step).queue.length ≤ (run.report step).capacity := by
          simpa [report, hfull] using hroom
        obtain ⟨hmeter, hqueue⟩ := ih hnext
        have hlength : run.capacity - run.queue.length = 0 := by omega
        refine ⟨hmeter, hqueue.trans ?_⟩
        simp [report, hfull, List.take_append, hlength]

/-- The run, asked to stop or not. -/
def flagged (run : Run ω) (asked : Bool) : Run ω :=
  { run with interrupted := asked }

theorem foldl_report_flagged
    (asked : Bool) (steps : List Step) :
    steps.foldl report (run.flagged asked) = (steps.foldl report run).flagged asked := by
  induction steps generalizing run with
  | nil => rfl
  | cons step steps ih =>
      rw [List.foldl_cons, List.foldl_cons, ← ih]
      rfl

/-- A run that was resolved with a text stands at its closing event. -/
theorem phase_resolve_ok
    (text : String) :
    (run.resolve (.ok text)).phase =
      .resolved (.ok ()) (Meter.completed run.meter.source text) :=
  rfl

/-- A resolved run stands at its result. -/
theorem phase_resolve
    (result : Except Failure String) :
    ∃ last, (run.resolve result).phase = .resolved (result.map fun _ => ()) last := by
  cases result with
  | ok text => exact ⟨_, rfl⟩
  | error failure => exact ⟨_, rfl⟩

end Run

namespace Future

variable {ω : Type} {future : Future ω}

/-- The future with another run. -/
def carrying (future : Future ω) (run : Run ω) : Future ω :=
  { future with run := some run }

/-- A future that nothing is in flight on takes a new run in place of what it had. -/
theorem schedule_of_idle
    (hidle : future.isInFlight = false)
    (label source : String) (capacity : Nat) (work : ω) :
    future.schedule label source capacity work =
      .ok ({ future with state := .scheduled }.carrying
        (.start label source capacity work)) := by
  unfold schedule
  cases hrun : future.run with
  | none => rfl
  | some run =>
      have hresolved : run.isPending = false := by
        simpa [isInFlight, hrun] using hidle
      simp [hresolved, carrying]

/-- A wait on a resolved run ends with its result, and hears the queue and the closing
event. -/
theorem wait_of_resolved
    {run : Run ω} {result : Except Failure Unit} {last : ProgressEvent}
    (hrun : future.run = some run)
    (hphase : run.phase = .resolved result last)
    (seconds : Option Nat) :
    (future.wait seconds).result = result ∧
      (future.wait seconds).events = future.heard (run.queue ++ [last]) := by
  simp [wait, drain, outcome?, phase?, hrun, hphase]

/-- A wait that collects a result leaves nothing but the state that it came to. -/
theorem future_wait_of_resolved
    {run : Run ω} {result : Except Failure Unit} {last : ProgressEvent}
    (hrun : future.run = some run)
    (hphase : run.phase = .resolved result last)
    (seconds : Option Nat) :
    (future.wait seconds).future =
      { future with state := if result.toBool then .succeeded else .failed, run := none } := by
  simp [wait, drain, outcome?, phase?, hrun, hphase]

end Future

end TimelineStore
