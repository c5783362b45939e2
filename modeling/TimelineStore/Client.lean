import TimelineStore.Database.Failure
import TimelineStore.Rocpd.File
import TimelineStore.Session.Raw

/-!
# The checked surface

Calls of the checked surface fail with a `StoreFailure` that names the call and
the code that it came to.  Two of them do more than one call of a session: a grid
is read cell by cell, and detail is read through a future of its own.
-/

namespace TimelineStore

/-- Why a call of the checked surface failed. -/
inductive StoreFailure where
  | call (name : String) (code : Code)
  | core (failure : Failure)
  | database (failure : DatabaseFailure)
  | config (failure : ConfigFailure)
deriving DecidableEq

namespace StoreFailure

/-- The name of the layer that failed. -/
def layer : StoreFailure → String
  | .call _ _ => "Call"
  | .core _ => "Core"
  | .database _ => "Database"
  | .config _ => "Config"

/-- The text of the failure. -/
def message : StoreFailure → String
  | .call name code => s!"{name} failed: {code}"
  | .core failure => failure.message
  | .database failure => s!"database error: {failure.message}"
  | .config failure => s!"configuration error: {failure.message}"

/-- The code of the failure. -/
def code : StoreFailure → Code
  | .call _ code => code
  | .core failure => failure.code
  | .database (.unsupported _) => .notSupported
  | .database _ => .databaseAccessFailed
  | .config _ => .invalidParameter

/-- The call that failed. -/
def call? : StoreFailure → Option String
  | .call name _ => some name
  | _ => none

/-- The same call may succeed once the running operation has resolved. -/
def isRetryable : StoreFailure → Bool
  | .core failure => failure.isRetryable
  | failure => failure.code = .resourceBusy || failure.code = .timeout

/-- Time ran out. -/
def isTimeout (failure : StoreFailure) : Bool :=
  failure.code = .timeout

end StoreFailure

namespace Client

/-- The outcome of a call, a failure by the name of the call and its code. -/
def checked {α : Type} (call : String) : Except Failure α → Except StoreFailure α
  | .ok value => .ok value
  | .error failure => .error (.call call failure.code)

/-- What was told of a call, a failure by the name of the call and its code. -/
def checkedTold {α : Type} (call : String) (told : Told (Except Failure α)) :
    Told (Except StoreFailure α) :=
  ⟨told.events, checked call told.result, told.session⟩

/-- What must be there, by the name of the call and the code of its absence. -/
def present {α : Type} (call : String) (code : Code) : Option α → Except StoreFailure α
  | some value => .ok value
  | none => .error (.call call code)

section Creation

/-- A session with a configuration whose values are in range. -/
def create (config : Config) : Except StoreFailure Session :=
  match config.validate with
  | .ok _ => .ok (.empty config)
  | .error failure => .error (.config failure)

/-- A session with the configuration in the file at a path. -/
def createFrom (path : String) (contents : Option String) : Except StoreFailure Session :=
  match Config.load path contents with
  | .ok config => create config
  | .error failure => .error (.config failure)

/-- Opens a file as a database. -/
def openFile (session : Session) (file : Rocpd.File) (kind : Rocpd.FileKind) :
    Except Failure (DatabaseId × Session) := do
  let source ← reportFailure (file.openAs kind)
  return session.attach source

end Creation

section Names

/-- The name of a read in a mode. -/
def readName : ReadMode → String
  | .batch => "read_chunk_all_tracks"
  | .each => "read_chunk_track_by_track"

end Names

section Reads

/-- Binds a database to a trace and reads metadata into it. -/
def load (session : Session) (database : DatabaseId) (trace : TraceId) :
    Told (Except StoreFailure Unit) :=
  match session.bind database trace with
  | .error failure => ⟨[], checked "bind_trace" (.error failure), session⟩
  | .ok bound => checkedTold "read_properties" (bound.readMetadata database)

/-- Reads a request. -/
def read (session : Session) (database : DatabaseId) (request : Request) (mode : ReadMode) :
    Told (Except StoreFailure ChunkTotals) :=
  checkedTold (readName mode) (session.read database request mode)

/-- Reads cells one after the other, up to the first that fails. -/
def readCells (database : DatabaseId) (mode : ReadMode) :
    List Cell → Session → Told (Except StoreFailure (List ChunkTotals))
  | [], session => ⟨[], .ok [], session⟩
  | cell :: cells, session =>
    match cell.request with
    | .error flaw => ⟨[], checked "plan" (.error flaw.failure), session⟩
    | .ok request =>
      let told := read session database request mode
      match told.result with
      | .error failure => ⟨told.events, .error failure, told.session⟩
      | .ok totals =>
        let rest := readCells database mode cells told.session
        ⟨told.events ++ rest.events, rest.result.map (totals :: ·), rest.session⟩

/-- Reads every cell of a grid over a trace. -/
def readGrid (session : Session) (database : DatabaseId) (trace : TraceId) (shape : Shape)
    (mode : ReadMode) : Told (Except StoreFailure (List ChunkTotals)) :=
  match checked "planner" (session.grid trace) with
  | .error failure => ⟨[], .error failure, session⟩
  | .ok grid => readCells database mode (grid.plan shape) session

end Reads

section Details

/-- Schedules a read of detail on a future and waits for it within the default time.
Workers make the turns `meanwhile` before the wait ends. -/
def awaitDetail (session : Session) (database : DatabaseId) (kind : DetailKind)
    (event : EventId) (future : FutureId) (meanwhile : List FutureId) :
    Except StoreFailure Unit × Session :=
  match session.scheduleDetail database kind event future with
  | .error failure => (checked "read_event_property_async" (.error failure), session)
  | .ok scheduled =>
    let told := (scheduled.turnAll meanwhile).wait future (some session.config.waitSeconds)
    (checked "future_wait" told.result, told.session)

/-- Reads detail of an event through a future of its own, which is given up
afterwards; that it cannot be given up counts before any failure of the read.
Workers make the turns `meanwhile` before the wait for the read ends, and `later`
between then and the giving up. -/
def readDetailAmid (session : Session) (database : DatabaseId) (trace : TraceId)
    (kind : DetailKind) (event : EventId) (meanwhile later : List FutureId) :
    Except StoreFailure DetailHandle × Session :=
  let (future, allocated) := session.allocate false
  let (outcome, waited) := awaitDetail allocated database kind event future meanwhile
  let worked := waited.turnAll later
  match worked.free future with
  | .error failure => (checked "future_free" (.error failure), worked)
  | .ok freed => (outcome.map fun _ => ⟨trace, kind, event⟩, freed)

/-- Reads detail of an event while no other worker makes a turn.  `inTime` says whether the
worker ends its job before the default time is over; it does not if that is no time at all. -/
def readDetail (session : Session) (database : DatabaseId) (trace : TraceId) (kind : DetailKind)
    (event : EventId) (inTime : Bool) : Except StoreFailure DetailHandle × Session :=
  let own := if inTime && session.config.waitSeconds ≠ 0 then [⟨session.futures.next⟩] else []
  readDetailAmid session database trace kind event own []

end Details

section Properties

/-- The track of a trace at a position. -/
def trackAt (session : Session) (trace : TraceId) (index : Nat) :
    Except StoreFailure TrackHandle :=
  present "get_track_at" .invalidParameter (session.trackAt? trace index)

/-- The chunk that a track acquired last. -/
def lastChunk (session : Session) (track : TrackHandle) : Except StoreFailure SliceHandle :=
  present "get_chunk" .notLoaded (session.lastChunk? track)

/-- A property. -/
def property (session : Session) (handle : Handle) (key : PropertyKey) (index : UInt64) :
    Except StoreFailure PropertyValue :=
  present "get_property" .invalidProperty (session.property? handle key index)

/-- An unsigned property. -/
def naturalProperty (session : Session) (handle : Handle) (key : PropertyKey) (index : UInt64) :
    Except StoreFailure Nat := do
  let value ← property session handle key index
  present "get_property_as_uint64" .invalidProperty value.natural?

/-- A property that is a text. -/
def textProperty (session : Session) (handle : Handle) (key : PropertyKey) (index : UInt64) :
    Except StoreFailure String := do
  let value ← property session handle key index
  present "get_property_as_charptr" .invalidProperty value.text?

end Properties

end Client

end TimelineStore
