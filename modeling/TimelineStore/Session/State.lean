import TimelineStore.Config
import TimelineStore.Handle
import TimelineStore.Job
import TimelineStore.Session.Arena

/-!
# Session state

A session owns traces, databases and futures.  A trace that was deleted lives on
while a worker is still on it, but no call reaches it by its identifier any more;
a database that is bound to it serves it until the worker has ended.
-/

namespace TimelineStore

/-- A trace, and whether it is listed in the session. -/
structure HeldTrace where
  trace : Trace
  listed : Bool

/-- A source that is attached to a session, the request that is being drafted for it,
and the trace that it was last bound to. -/
structure Attached where
  source : Source
  draft : Request.Draft
  bound : Option TraceId

/-- The traces, databases and futures of a session. -/
structure Session where
  config : Config
  traces : Arena HeldTrace
  databases : Arena Attached
  futures : Arena (Future Job)

/-- What a call of a session came to: what was heard meanwhile, the result and the
session afterwards. -/
structure Told (α : Type) where
  events : List ProgressEvent
  result : α
  session : Session

namespace Session

/-- A session that owns nothing. -/
def empty (config : Config) : Session :=
  ⟨config, .empty, .empty, .empty⟩

/-- A call that failed before anything was heard. -/
def refused {α : Type} (session : Session) (failure : Failure) : Told (Except Failure α) :=
  ⟨[], .error failure, session⟩

section Lookup

/-- Nothing has this identifier. -/
def unknown {κ : Type} [ToString κ] (id : κ) : Failure :=
  .notFound (toString id)

/-- The listed trace with an identifier. -/
def trace (session : Session) (id : TraceId) : Except Failure Trace :=
  match session.traces.get? id.index with
  | some held => if held.listed then .ok held.trace else .error (unknown id)
  | none => .error (unknown id)

/-- The database with an identifier. -/
def database (session : Session) (id : DatabaseId) : Except Failure Attached :=
  match session.databases.get? id.index with
  | some attached => .ok attached
  | none => .error (unknown id)

/-- The future with an identifier. -/
def future (session : Session) (id : FutureId) : Except Failure (Future Job) :=
  match session.futures.get? id.index with
  | some future => .ok future
  | none => .error (unknown id)

/-- The track that a handle names, and its trace. -/
def track (session : Session) (handle : TrackHandle) : Except Failure (Trace × Track) := do
  let trace ← session.trace handle.trace
  match trace.track? handle.track with
  | some track => return (trace, track)
  | none => throw (.notFound s!"{handle.track} in {handle.trace}")

/-- The chunk that a handle names, and its trace. -/
def slice (session : Session) (handle : SliceHandle) : Except Failure (Trace × Chunk) := do
  let (trace, track) ← session.track handle.trackHandle
  match (track.shelf.covering? handle.start).filter (·.start = handle.start) with
  | some chunk => return (trace, chunk)
  | none =>
    throw (.notFound
      s!"no chunk at {handle.start.toNat} on {handle.track} of {handle.trace}")

/-- The detail that a handle names. -/
def detail (session : Session) (handle : DetailHandle) : Except Failure Detail := do
  let trace ← session.trace handle.trace
  match trace.detail? handle.kind handle.event with
  | some detail => return detail
  | none => throw (.notFound s!"no {handle.kind} of {handle.event} in {handle.trace}")

end Lookup

section Liveness

/-- The job of a future whose worker is on it. -/
def jobOf? (future : Future Job) : Option Job :=
  match future.phase? with
  | some (.running job) => some job
  | _ => none

/-- A worker is on the trace. -/
def isWorkedOn (session : Session) (id : TraceId) : Bool :=
  session.futures.slots.values.any fun future => (jobOf? future).any (·.trace = id)

/-- The trace with an identifier, if it is listed or a worker is on it. -/
def liveTrace? (session : Session) (id : TraceId) : Option Trace :=
  match session.traces.get? id.index with
  | some held => if held.listed || session.isWorkedOn id then some held.trace else none
  | none => none

/-- The trace that a database serves. -/
def boundTrace? (session : Session) (attached : Attached) : Option Trace :=
  attached.bound.bind session.liveTrace?

/-- The trace that a database must serve for a read. -/
def servedTrace (session : Session) (id : DatabaseId) (attached : Attached) :
    Except Failure Trace :=
  match session.boundTrace? attached with
  | some trace => .ok trace
  | none => .error (.notFound s!"{id} has no bound trace")

end Liveness

section Update

/-- The session with a trace in place of the one with its identifier. -/
def putTrace (session : Session) (trace : Trace) : Session :=
  { session with traces := session.traces.modify trace.id.index ({ · with trace }) }

/-- The session with a future in place of the one with its identifier. -/
def putFuture (session : Session) (future : Future Job) : Session :=
  { session with futures := session.futures.modify future.id.index fun _ => future }

/-- The session with a database changed. -/
def changeDatabase (session : Session) (id : DatabaseId) (change : Attached → Attached) :
    Session :=
  { session with databases := session.databases.modify id.index change }

end Update

end Session

end TimelineStore
