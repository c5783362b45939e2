import TimelineStore.Session.Work

/-!
# Evictions of a session

Chunks and detail can be given up at any time.  Each call says how much it gave
up; giving up nothing is no failure.
-/

namespace TimelineStore.Session

/-- Changes a listed trace and tells the count that goes with the change. -/
def evicting {α : Type} (session : Session) (id : TraceId) (count : Trace → α)
    (change : Trace → Trace) : Except Failure (α × Session) := do
  let trace ← session.trace id
  return (count trace, session.putTrace (change trace))

/-- Gives up the chunks that start at `start`. -/
def evictAt (session : Session) (id : TraceId) (start : Timestamp) :
    Except Failure (Nat × Session) :=
  session.evicting id (·.countAt start) (·.evictAt start)

/-- Gives up the chunks of exactly this window. -/
def evictWindow (session : Session) (id : TraceId) (window : Window) :
    Except Failure (Nat × Session) :=
  session.evicting id (·.countWindow window) (·.evictWindow window)

/-- Gives up all chunks. -/
def evictAll (session : Session) (id : TraceId) : Except Failure (Nat × Session) :=
  session.evicting id Trace.chunkCount Trace.evictAll

/-- Gives up one kind of detail of one event, and says whether there was any. -/
def evictDetail (session : Session) (id : TraceId) (kind : DetailKind) (event : EventId) :
    Except Failure (Bool × Session) :=
  session.evicting id (fun trace => (trace.detail? kind event).isSome) (·.evictDetail kind event)

/-- Gives up detail of one kind. -/
def evictDetails (session : Session) (id : TraceId) (kind : DetailKind) :
    Except Failure (Nat × Session) :=
  session.evicting id (·.countDetails kind) (·.evictDetails kind)

end TimelineStore.Session
