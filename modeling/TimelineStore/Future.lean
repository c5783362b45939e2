import TimelineStore.Failure
import TimelineStore.Identifier
import TimelineStore.Progress

/-!
# Futures

A future holds at most one run of an operation.  A worker carries the run on,
turn by turn; what it reports goes into a bounded queue, and a report that finds
the queue full is dropped.  Whoever waits on the future is handed the queue, and
with the result always the closing event.

A wait that is over before the operation resolves changes nothing about the
operation: it stays in flight, and a later wait collects it.  `ω` is the work
that a worker has before it.
-/

namespace TimelineStore

/-- What a future says about itself. -/
inductive FutureState where
  | idle
  | scheduled
  | succeeded
  | failed
  | timedOut
deriving DecidableEq

instance : ToString FutureState where
  toString
    | .idle => "Idle"
    | .scheduled => "Scheduled"
    | .succeeded => "Succeeded"
    | .failed => "Failed"
    | .timedOut => "TimedOut"

/-- Where a run stands.  A worker that is lost will never resolve its run. -/
inductive Phase (ω : Type) where
  | running (work : ω)
  | resolved (result : Except Failure Unit) (last : ProgressEvent)
  | lost

/-- What a worker has after a turn. -/
inductive Next (ω : Type) where
  | work (rest : ω)
  | finished (result : Except Failure String)
  | gone

/-- A turn of a worker: what it reports, and what it has then. -/
structure Turn (ω : Type) where
  reports : List Step
  next : Next ω

/-- One run of an operation. -/
structure Run (ω : Type) where
  label : String
  meter : Meter
  capacity : Nat
  queue : List ProgressEvent
  interrupted : Bool
  phase : Phase ω

namespace Run

variable {ω : Type}

/-- A run that has just been scheduled; its queue has room for at least one event. -/
def start (label source : String) (capacity : Nat) (work : ω) : Run ω where
  label := label
  meter := .start source
  capacity := max 1 capacity
  queue := []
  interrupted := false
  phase := .running work

/-- The worker has not resolved the run. -/
def isPending (run : Run ω) : Bool :=
  match run.phase with
  | .resolved _ _ => false
  | _ => true

/-- The failure of a run that sees that it was interrupted. -/
def interruption (run : Run ω) : Failure :=
  .interrupted run.meter.source

/-- The run after a report. -/
def report (run : Run ω) (step : Step) : Run ω :=
  let (meter, event) := run.meter.advance step
  let queue := if run.queue.length < run.capacity then run.queue ++ [event] else run.queue
  { run with meter, queue }

/-- The run after its worker resolved it, with the text of the closing event or a failure. -/
def resolve (run : Run ω) (result : Except Failure String) : Run ω :=
  let (closing, text) : Except Failure Unit × String :=
    match result with
    | .ok message => (.ok (), message)
    | .error failure => (.error failure, failure.message)
  let (meter, last) := run.meter.finish closing.toBool text
  { run with meter, phase := .resolved closing last }

/-- The run after a turn of its worker. -/
def take (run : Run ω) (turn : Turn ω) : Run ω :=
  let told := turn.reports.foldl report run
  match turn.next with
  | .work rest => { told with phase := .running rest }
  | .finished result => told.resolve result
  | .gone => { told with phase := .lost }

end Run

/-- A handle on at most one run.  `listens` says whether anyone hears its events. -/
structure Future (ω : Type) where
  id : FutureId
  listens : Bool
  state : FutureState
  run : Option (Run ω)

namespace Future

variable {ω : Type}

/-- A future on which nothing has been scheduled. -/
def fresh (id : FutureId) (listens : Bool) : Future ω :=
  ⟨id, listens, .idle, none⟩

/-- Where the run stands, if there is one. -/
def phase? (future : Future ω) : Option (Phase ω) :=
  future.run.map Run.phase

/-- What the future says about itself; a resolved run shows before it is collected. -/
def currentState (future : Future ω) : FutureState :=
  match future.phase? with
  | some (.resolved (.ok _) _) => .succeeded
  | some (.resolved (.error _) _) => .failed
  | _ => future.state

/-- There is a run that its worker has not resolved. -/
def isInFlight (future : Future ω) : Bool :=
  future.run.any Run.isPending

/-- The future can be given up. -/
def ensureIdle (future : Future ω) : Except Failure Unit :=
  if future.isInFlight then
    .error (.alreadyInUse s!"{future.id} has an operation in flight")
  else
    .ok ()

/-- The future with a new run, unless one is in flight.  What a resolved run left
uncollected is gone. -/
def schedule
    (future : Future ω) (label source : String) (capacity : Nat) (work : ω) :
    Except Failure (Future ω) :=
  let next := { future with
    state := .scheduled
    run := some (.start label source capacity work) }
  match future.run with
  | none => .ok next
  | some run =>
    if run.isPending then .error (.alreadyInUse s!"{future.id} is busy with {run.label}")
    else .ok next

/-- The future after a turn of its worker. -/
def take (future : Future ω) (turn : Turn ω) : Future ω :=
  { future with run := future.run.map (·.take turn) }

/-- Asks a run in flight to stop, and says whether there is one. -/
def interrupt (future : Future ω) : Bool × Future ω :=
  match future.run with
  | none => (false, future)
  | some run =>
    if run.isPending then (true, { future with run := some { run with interrupted := true } })
    else (false, future)

/-- What is heard of some events. -/
def heard (future : Future ω) (events : List ProgressEvent) : List ProgressEvent :=
  if future.listens then events else []

/-- The queue, and the future without it. -/
def drain (future : Future ω) : List ProgressEvent × Future ω :=
  match future.run with
  | none => ([], future)
  | some run => (run.queue, { future with run := some { run with queue := [] } })

/-- What a lost worker leaves in place of a result. -/
def lossText : String := "worker exited without a result"

/-- The result of the run and its closing event, if there is anything to collect. -/
def outcome? (future : Future ω) : Option (Except Failure Unit × ProgressEvent) :=
  match future.phase? with
  | some (.resolved result last) => some (result, last)
  | some .lost =>
    let last := ((Meter.start (toString future.id)).finish false lossText).2
    some (.error (.internal lossText), last)
  | _ => none

/-- What a wait ends with: the events that were heard, and how it ended. -/
structure Waited (ω : Type) where
  events : List ProgressEvent
  result : Except Failure Unit
  future : Future ω

/-- How many seconds a wait without bound lasts. -/
def unbounded : Nat := UInt64.size - 1

/-- A wait of so many seconds that no worker makes a turn in. -/
def wait (future : Future ω) (seconds : Option Nat) : Waited ω :=
  match future.run with
  | none => ⟨[], .error (.nothingScheduled (toString future.id)), future⟩
  | some _ =>
    let (queued, drained) := future.drain
    match future.outcome? with
    | some (result, last) =>
      let state := if result.toBool then .succeeded else .failed
      ⟨future.heard (queued ++ [last]), result, { drained with state, run := none }⟩
    | none =>
      let failure := .timedOut (seconds.getD unbounded)
      ⟨future.heard queued, .error failure, { drained with state := .timedOut }⟩

end Future

end TimelineStore
