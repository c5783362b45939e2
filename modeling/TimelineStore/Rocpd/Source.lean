import TimelineStore.Rocpd.Query
import TimelineStore.Source

/-!
# Sources over rocpd tables

A batch reads each table at most once.  Descriptors that name one key share the
rows found for it: they go to the first descriptor with that key, and to further
ones that are equal to the first descriptor like them.
-/

namespace TimelineStore.Rocpd

section Batch

/-- The key is one of threads, of queues or of monitors. -/
inductive TableName where
  | calls
  | dispatches
  | samples
deriving DecidableEq

/-- The table whose rows have the key. -/
def TrackKey.table : TrackKey → TableName
  | .thread _ _ => .calls
  | .queue _ _ => .dispatches
  | .monitor _ _ => .samples

/-- The wanted rows of a table, each with its key. -/
def Tables.scan (tables : Tables) (window : Window) (wanted : List TrackKey) :
    TableName → Except DatabaseFailure (List (TrackKey × Row))
  | .calls => do
    tables.prepare callEvents.statement
    callEvents.scan window wanted tables.callSelections
  | .dispatches => do
    tables.prepare dispatchEvents.statement
    dispatchEvents.scan window wanted tables.dispatchSelections
  | .samples => do
    tables.prepare sampleStatement
    scanSamples window wanted (tables.samples.getD [])

/-- The wanted rows of a table, which is not read unless some are wanted. -/
def Tables.scanFor (tables : Tables) (window : Window) (keys : List TrackKey) (table : TableName) :
    Except DatabaseFailure (List (TrackKey × Row)) :=
  match keys.filter (·.table = table) with
  | [] => .ok []
  | wanted => tables.scan window wanted table

/-- The rows with a key. -/
def rowsWith (key : TrackKey) (found : List (TrackKey × Row)) : List Row :=
  (found.filter (·.1 = key)).map Prod.snd

/-- The rows at a position of a batch, if its key first occurs there. -/
def ownRows (keys : List TrackKey) (found : List (TrackKey × Row)) (index : Nat) : List Row :=
  match keys[index]? with
  | none => []
  | some key => if keys.idxOf key = index then rowsWith key found else []

/-- The row sets of a batch. -/
def Tables.read (tables : Tables) (tracks : List Descriptor) (window : Window) :
    Except DatabaseFailure (List (List Row)) := do
  let keys ← tracks.mapM TrackKey.ofDescriptor
  let calls ← tables.scanFor window keys .calls
  let dispatches ← tables.scanFor window keys .dispatches
  let samples ← tables.scanFor window keys .samples
  let found := calls ++ dispatches ++ samples
  return tracks.map fun track => ownRows keys found (tracks.idxOf track)

/-- The rows of one track. -/
def Tables.readOne (tables : Tables) (track : Descriptor) (window : Window) :
    Except DatabaseFailure (List Row) := do
  return (← tables.read [track] window).flatten

end Batch

section Metadata

/-- The share of each stage of reading metadata. -/
def stageShare : Float := 25.0

/-- Descriptors found stage by stage, each stage reported when it is done. -/
def describeStages :
    List (String × Except DatabaseFailure (List Descriptor)) →
      List Step × Except DatabaseFailure (List Descriptor)
  | [] => ([], .ok [])
  | (_, .error failure) :: _ => ([], .error failure)
  | (message, .ok found) :: stages =>
    let (steps, rest) := describeStages stages
    (⟨stageShare, message⟩ :: steps, rest.map (found ++ ·))

/-- The stages after the bounds: threads, queues and monitors. -/
def Tables.stages (tables : Tables) :
    List (String × Except DatabaseFailure (List Descriptor)) := [
  ("CPU thread tracks loaded", tables.threads),
  ("GPU queue tracks loaded", tables.queues),
  ("Counter tracks loaded", tables.monitors)]

/-- The metadata of the tables. -/
def Tables.metadata (tables : Tables) : MetadataReading :=
  match tables.bounds with
  | .error failure => ⟨[], .error failure.toFailure⟩
  | .ok window =>
    let (steps, tracks) := describeStages tables.stages
    ⟨⟨stageShare, "Trace bounds loaded"⟩ :: steps,
      reportFailure (tracks.map fun tracks => ⟨window, tracks⟩)⟩

end Metadata

/-- Detail of an event. -/
def Tables.detail (tables : Tables) (kind : DetailKind) (event : EventId) :
    Except Failure RawDetail :=
  if kind.appliesTo event.operation then
    match kind with
    | .flow => reportFailure (RawDetail.flow <$> tables.flow event)
    | .stack => reportFailure (RawDetail.stack <$> tables.stack event)
    | .attributes => reportFailure (RawDetail.attributes <$> tables.attributes event)
  else
    .error (Source.inapplicable kind event)

/-- The source of the tables, under the name of their file. -/
def Tables.toSource (tables : Tables) (name : String) : Source where
  name := name
  metadata := tables.metadata
  readTrack := fun track window => reportFailure (tables.readOne track window)
  readTracks := fun tracks window => reportFailure (tables.read tracks window)
  readDetail := tables.detail

end TimelineStore.Rocpd
