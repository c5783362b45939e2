import TimelineStore.Session.Read

/-!
# Workers of a session

A future carries one job of a worker at a time.  Between calls of the session
its workers make turns; each turn may change the trace that its job is on.
-/

namespace TimelineStore.Session

section Futures

/-- Allocates a future, heard or not. -/
def allocate (session : Session) (listens : Bool) : FutureId × Session :=
  (⟨session.futures.next⟩,
    { session with futures := session.futures.add fun number => .fresh ⟨number⟩ listens })

/-- Gives a future up, unless its worker is still on its job. -/
def free (session : Session) (id : FutureId) : Except Failure Session := do
  let future ← session.future id
  future.ensureIdle
  return { session with futures := session.futures.erase id.index }

/-- What a future says about itself. -/
def stateOf? (session : Session) (id : FutureId) : Option FutureState :=
  (session.futures.get? id.index).map Future.currentState

/-- Asks the job of a future to stop, and says whether there is one. -/
def interrupt (session : Session) (id : FutureId) : Bool × Session :=
  match session.future id with
  | .error _ => (false, session)
  | .ok future =>
    let (asked, future) := future.interrupt
    (asked, session.putFuture future)

/-- Waits for a future while no worker makes a turn. -/
def wait (session : Session) (id : FutureId) (seconds : Option Nat) :
    Told (Except Failure Unit) :=
  match session.future id with
  | .error failure => session.refused failure
  | .ok future =>
    let waited := future.wait seconds
    ⟨waited.events, waited.result, session.putFuture waited.future⟩

end Futures

section Scheduling

/-- Gives a worker a job on the trace that a database serves. -/
def schedule (session : Session) (database : DatabaseId) (id : FutureId)
    (job : Source → TraceId → Job) : Except Failure Session := do
  let attached ← session.database database
  let future ← session.future id
  let trace ← session.servedTrace database attached
  let job := job attached.source trace.id
  let next ← future.schedule job.label attached.source.name session.config.progressCapacity job
  return session.putFuture next

/-- Schedules a read of metadata. -/
def scheduleMetadata (session : Session) (database : DatabaseId) (future : FutureId) :
    Except Failure Session :=
  session.schedule database future .metadata

/-- Schedules a read of a request, track by track. -/
def scheduleRead (session : Session) (database : DatabaseId) (request : Request)
    (future : FutureId) : Except Failure Session :=
  session.schedule database future fun source trace => .slice source trace request

/-- Schedules a read of detail. -/
def scheduleDetail (session : Session) (database : DatabaseId) (kind : DetailKind)
    (event : EventId) (future : FutureId) : Except Failure Session :=
  session.schedule database future fun source trace => .detail source trace kind event

end Scheduling

section Turns

/-- The session after a turn of the worker of a future. -/
def turn (session : Session) (id : FutureId) : Session :=
  match session.futures.get? id.index with
  | none => session
  | some future =>
    match future.run with
    | none => session
    | some run =>
      match run.phase with
      | .running job =>
        match session.traces.get? job.trace.index with
        | none => session
        | some held =>
          let (trace, turn) := job.turn run held.trace
          (session.putTrace trace).putFuture (future.take turn)
      | _ => session

/-- The session after turns of the workers of some futures, one after the other. -/
def turnAll (session : Session) (ids : List FutureId) : Session :=
  ids.foldl turn session

/-- The job that the worker of a future is on. -/
def job? (session : Session) (id : FutureId) : Option Job :=
  (session.futures.get? id.index).bind jobOf?

/-- At most so many turns of a worker, of which at most `queries` read a track.
Gives the queries that are left. -/
def advanceWithin (id : FutureId) : (turns queries : Nat) → Session → Nat × Session
  | 0, queries, session => (queries, session)
  | turns + 1, queries, session =>
    match session.job? id with
    | none => (queries, session)
    | some job =>
      if job.isReadingTrack then
        match queries with
        | 0 => (0, session)
        | queries + 1 => advanceWithin id turns queries (session.turn id)
      else
        advanceWithin id turns queries (session.turn id)

/-- The worker of a future goes on until it has ended its job or would read a track
beyond the given number.  Gives what is left of that number. -/
def advance (session : Session) (id : FutureId) (queries : Nat) : Nat × Session :=
  match session.job? id with
  | none => (queries, session)
  | some job => advanceWithin id job.turns queries session

/-- The worker of a future goes on until it has ended its job. -/
def complete (session : Session) (id : FutureId) : Session :=
  match session.job? id with
  | none => session
  | some job => (session.advance id job.turns).2

end Turns

end TimelineStore.Session
