import TimelineStore.Session.Work

/-!
# Workshops

A workshop fixes the order in which the workers of a session make their turns.  A
worker begins as soon as it has a job and goes on to the end of it, unless the
database that it reads stands behind a gate: then it stops before each read of a
track until the gate lets one more read pass.  What is heard of a future is kept
until it is asked for.
-/

namespace TimelineStore

/-- A session, the gates of its databases, the databases that futures read, in the order
in which the futures were given their jobs, and the events that were not asked for yet. -/
structure Workshop where
  session : Session
  /-- How many reads a gate still lets pass; without a number, it lets all of them pass. -/
  gates : Keyed DatabaseId (Option Nat)
  readers : List (FutureId × DatabaseId)
  heard : List (FutureId × ProgressEvent)

namespace Workshop

/-- A workshop in which nobody works. -/
def ofSession (session : Session) : Workshop :=
  ⟨session, .empty, [], []⟩

section Gates

/-- The workshop with a source attached, behind a closed gate or in the open. -/
def attach (shop : Workshop) (source : Source) (gated : Bool) : DatabaseId × Workshop :=
  let (id, session) := shop.session.attach source
  let gates := if gated then shop.gates.insert id (some 0) else shop.gates
  (id, { shop with session, gates })

/-- The worker of a future goes on as far as the gate of a database lets it. -/
def advance (shop : Workshop) (future : FutureId) (database : DatabaseId) : Workshop :=
  match shop.gates.get? database with
  | some (some permits) =>
    let (left, session) := shop.session.advance future permits
    { shop with session, gates := shop.gates.insert database (some left) }
  | _ => { shop with session := shop.session.complete future }

/-- A future was given a job on a database, and its worker begins. -/
def began (shop : Workshop) (session : Session) (future : FutureId) (database : DatabaseId) :
    Workshop :=
  let readers := shop.readers.filter (·.1 ≠ future) ++ [(future, database)]
  { shop with session, readers }.advance future database

/-- The gate before a future lets so many more reads pass, or all reads from now on. -/
def release (shop : Workshop) (future : FutureId) (count : Option Nat) : Workshop :=
  match shop.readers.lookup future with
  | none => shop
  | some database =>
    let gates := shop.gates.modify database fun permits => do return (← permits) + (← count)
    (shop.readers.filter (·.2 = database)).foldl
      (fun shop reader => shop.advance reader.1 database) { shop with gates }

end Gates

section Listening

/-- Waits for a future while no worker makes a turn, and keeps what is heard of it. -/
def wait (shop : Workshop) (future : FutureId) (seconds : Option Nat) :
    Except Failure Unit × Workshop :=
  let told := shop.session.wait future seconds
  let heard := shop.heard ++ told.events.map fun event => (future, event)
  (told.result, { shop with session := told.session, heard })

/-- What was heard of a future since it was last asked for. -/
def report (shop : Workshop) (future : FutureId) : List ProgressEvent × Workshop :=
  ((shop.heard.filter (·.1 = future)).map Prod.snd,
    { shop with heard := shop.heard.filter (·.1 ≠ future) })

end Listening

end Workshop

end TimelineStore
