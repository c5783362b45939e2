import TimelineStore.Session.State

/-!
# Databases and traces of a session

Sources are attached as databases, traces are created empty, and a database is
bound to the trace that its reads go into.  A database serves one live trace at
a time; a trace stays bound to the first database that it was bound to.
-/

namespace TimelineStore.Session

/-- Attaches a source as a database. -/
def attach (session : Session) (source : Source) : DatabaseId × Session :=
  (⟨session.databases.next⟩,
    { session with databases := session.databases.add fun _ => ⟨source, .empty, none⟩ })

/-- Closes a database.  Workers that read its source go on. -/
def close (session : Session) (id : DatabaseId) : Except Failure Session := do
  let _ ← session.database id
  return { session with databases := session.databases.erase id.index }

/-- Creates an empty trace. -/
def createTrace (session : Session) : TraceId × Session :=
  (⟨session.traces.next⟩,
    { session with traces := session.traces.add fun number => ⟨.fresh ⟨number⟩, true⟩ })

/-- Deletes a trace with its chunks. -/
def deleteTrace (session : Session) (id : TraceId) : Except Failure Session := do
  let trace ← session.trace id
  return { session with
    traces := session.traces.modify id.index fun _ => ⟨trace.evictAll, false⟩ }

/-- A database that serves another trace cannot be bound. -/
def checkServes (session : Session) (id : DatabaseId) (attached : Attached) (trace : TraceId) :
    Except Failure Unit :=
  match session.boundTrace? attached with
  | none => .ok ()
  | some current =>
    if current.id = trace then .ok ()
    else .error (.alreadyBound s!"{id} already serves {current.id}")

/-- A database is to be bound to a trace: how that ends, and the session that it leaves.  The
trace is bound before the database, and what was written remains when a later step fails. -/
def binding (session : Session) (database : DatabaseId) (id : TraceId) :
    Told (Except Failure Unit) :=
  match session.database database with
  | .error failure => session.refused failure
  | .ok attached =>
    match session.trace id with
    | .error failure => session.refused failure
    | .ok trace =>
      match session.checkServes database attached id with
      | .error failure => session.refused failure
      | .ok () =>
        let (result, bound) := trace.binding database
        let session := session.putTrace bound
        match result with
        | .error failure => session.refused failure
        | .ok () => ⟨[], .ok (), session.changeDatabase database ({ · with bound := some id })⟩

/-- Binds a database to a trace. -/
def bind (session : Session) (database : DatabaseId) (id : TraceId) : Except Failure Session :=
  let told := session.binding database id
  told.result.map fun _ => told.session

/-- The bytes of the trace that a database serves, zero if there is none. -/
def footprint (session : Session) (id : DatabaseId) : Nat :=
  match session.database id with
  | .ok attached => ((session.boundTrace? attached).map Trace.footprint).getD 0
  | .error _ => 0

end TimelineStore.Session
