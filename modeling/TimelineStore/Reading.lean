import TimelineStore.Request
import TimelineStore.Source
import TimelineStore.Trace

/-!
# Reading into a trace

Reading asks a source and puts its answers into a trace.  A `Reading` is the
outcome: the trace afterwards, the steps that were reported on the way, and the
result.  A batched read asks for all tracks at once and stores nothing unless it
succeeds; a read track by track keeps what it stored before it failed.
-/

namespace TimelineStore

/-- How the tracks of a request are read. -/
inductive ReadMode where
  | batch
  | each
deriving DecidableEq

/-- The outcome of reading into a trace. -/
structure Reading (α : Type) where
  trace : Trace
  steps : List Step
  result : Except Failure α

namespace Reading

/-- Nothing was stored or reported. -/
def failed {α : Type} (trace : Trace) (failure : Failure) : Reading α :=
  ⟨trace, [], .error failure⟩

/-- The reading with a step reported before all others. -/
def after {α : Type} (step : Step) (reading : Reading α) : Reading α :=
  { reading with steps := step :: reading.steps }

/-- What a listener hears of a reading, told with a text for its result. -/
def events {α : Type} (source : String) (text : α → String) (reading : Reading α) :
    List ProgressEvent :=
  let (meter, busy) := (Meter.start source).advanceAll reading.steps
  let last := match reading.result with
    | .ok value => meter.finish true (text value)
    | .error failure => meter.finish false failure.message
  busy ++ [last.2]

end Reading

/-- What is said of a finished read. -/
def ChunkTotals.completion (totals : ChunkTotals) : String :=
  s!"{totals.chunks} chunks loaded, {totals.records} records"

namespace Source

section Metadata

/-- Reads metadata into a trace; a trace that is loaded keeps what it has. -/
def loadMetadata (source : Source) (trace : Trace) : Reading String :=
  match source.metadata.answer with
  | .error failure => ⟨trace, source.metadata.steps, .error failure⟩
  | .ok metadata =>
    ⟨trace.loadMetadata metadata, source.metadata.steps,
      .ok "Trace metadata successfully loaded"⟩

end Metadata

section Details

/-- The trace has no tracks yet to resolve detail against. -/
def detailNotLoaded (trace : Trace) (kind : DetailKind) (event : EventId) : Failure :=
  .notLoaded s!"{trace.id} has no metadata, cannot read {kind} of {event}"

/-- Reads detail of an event into a loaded trace.  Detail that is resident is not
read again, and an answer of another kind is refused. -/
def loadDetail (source : Source) (kind : DetailKind) (event : EventId) (trace : Trace) :
    Reading String :=
  if !trace.isLoaded then
    .failed trace (detailNotLoaded trace kind event)
  else if !kind.appliesTo event.operation then
    .failed trace (inapplicable kind event)
  else if (trace.detail? kind event).isSome then
    ⟨trace, [], .ok s!"{kind} already loaded"⟩
  else
    match source.readDetail kind event with
    | .error failure => .failed trace failure
    | .ok raw =>
      if raw.kind ≠ kind then
        .failed trace (.internal s!"source answered {kind} with {raw.kind}")
      else
        let detail := Detail.resolve trace.trackOf? raw
        ⟨trace.putDetail event detail, [⟨100.0, s!"{detail.size} entries"⟩],
          .ok s!"{kind} successfully loaded"⟩

end Details

section Tracks

/-- The share of one of `count` tracks in the whole. -/
def trackShare (count : Nat) : Float :=
  100.0 / count.toFloat

/-- What is reported when a track has been read. -/
def trackStep (share : Float) (track : Track) : Step :=
  ⟨share, s!"{track.id} loaded"⟩

/-- Reads one track: the chunk that was made, and the trace that holds it. -/
def loadTrack (source : Source) (window : Window) (track : Track) (trace : Trace) :
    Except Failure (Chunk × Trace) := do
  let rows ← source.readTrack track.descriptor window
  return trace.materialize track window rows

/-- Reads tracks one after the other onto the totals of those before. -/
def loadInTurn (source : Source) (window : Window) (share : Float) :
    List Track → ChunkTotals → Trace → Reading ChunkTotals
  | [], totals, trace => ⟨trace, [], .ok totals⟩
  | track :: tracks, totals, trace =>
    match source.loadTrack window track trace with
    | .error failure => .failed trace failure
    | .ok (chunk, next) =>
      (loadInTurn source window share tracks (totals.add chunk) next).after
        (trackStep share track)

/-- Reads a request track by track. -/
def loadEach (source : Source) (request : Request) (trace : Trace) : Reading ChunkTotals :=
  match trace.resolve request.tracks with
  | .error failure => .failed trace failure
  | .ok tracks =>
    source.loadInTurn request.window (trackShare tracks.length) tracks .zero trace

/-- Stores row sets that have been read. -/
def storeSets (window : Window) :
    List (Track × List Row) → ChunkTotals → Trace → ChunkTotals × Trace
  | [], totals, trace => (totals, trace)
  | (track, rows) :: rest, totals, trace =>
    let (chunk, next) := trace.materialize track window rows
    storeSets window rest (totals.add chunk) next

/-- Reads a request as one batch. -/
def loadBatch (source : Source) (request : Request) (trace : Trace) : Reading ChunkTotals :=
  match trace.resolve request.tracks with
  | .error failure => .failed trace failure
  | .ok tracks =>
    match source.readTracks (tracks.map (·.descriptor)) request.window with
    | .error failure => .failed trace failure
    | .ok sets =>
      if sets.length ≠ tracks.length then
        .failed trace (.internal
          s!"source returned {sets.length} row sets for {tracks.length} tracks")
      else
        let (totals, trace) := storeSets request.window (tracks.zip sets) .zero trace
        ⟨trace, [⟨100.0, s!"{tracks.length} tracks loaded"⟩], .ok totals⟩

/-- Reads a request in a mode. -/
def load (source : Source) : ReadMode → Request → Trace → Reading ChunkTotals
  | .batch => source.loadBatch
  | .each => source.loadEach

end Tracks

end Source

end TimelineStore
