import TimelineStore.Session.Binding

/-!
# Reads of a session

A read goes from the source of a database into the trace that the database
serves.  It is either asked for with a whole request, or with a request that was
drafted step by step; drafting starts anew with every such read, whether it
succeeds or fails.
-/

namespace TimelineStore.Session

/-- Lets the source of a database read into the trace that it serves. -/
def reading {α : Type} (session : Session) (id : DatabaseId) (text : α → String)
    (read : Source → Trace → Reading α) : Told (Except Failure α) :=
  match session.database id with
  | .error failure => session.refused failure
  | .ok attached =>
    match session.servedTrace id attached with
    | .error failure => session.refused failure
    | .ok trace =>
      let outcome := read attached.source trace
      ⟨outcome.events attached.source.name text, outcome.result,
        session.putTrace outcome.trace⟩

/-- Reads metadata. -/
def readMetadata (session : Session) (id : DatabaseId) : Told (Except Failure Unit) :=
  let told := session.reading id (fun message : String => message) Source.loadMetadata
  ⟨told.events, told.result.map fun _ => (), told.session⟩

/-- Reads a request. -/
def read (session : Session) (id : DatabaseId) (request : Request) (mode : ReadMode) :
    Told (Except Failure ChunkTotals) :=
  session.reading id ChunkTotals.completion fun source => source.load mode request

/-- Sets the window of the drafted request. -/
def draftWindow (session : Session) (id : DatabaseId) (window : Window) :
    Except Failure Session := do
  let _ ← session.database id
  return session.changeDatabase id fun attached =>
    { attached with draft := attached.draft.«over» window }

/-- Adds a track to the drafted request. -/
def draftTrack (session : Session) (id : DatabaseId) (track : TrackId) :
    Except Failure Session := do
  let _ ← session.database id
  return session.changeDatabase id fun attached =>
    { attached with draft := attached.draft.add track }

/-- Reads the drafted request and clears the draft. -/
def readDraft (session : Session) (id : DatabaseId) (mode : ReadMode) :
    Told (Except Failure ChunkTotals) :=
  match session.database id with
  | .error failure => session.refused failure
  | .ok attached =>
    let cleared := session.changeDatabase id ({ · with draft := .empty })
    match attached.draft.finish with
    | .error flaw => cleared.refused flaw.failure
    | .ok request => cleared.read id request mode

end TimelineStore.Session
