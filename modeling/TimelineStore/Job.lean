import TimelineStore.Future
import TimelineStore.Reading

/-!
# Jobs

A job is what a worker of a session has before it: a read of metadata, of detail
or of tracks into one trace.  The worker carries it on turn by turn.  It looks
whether it was interrupted before it starts on metadata or detail and before
each track, but not any more once a track is being read.
-/

namespace TimelineStore

/-- Work on one trace. -/
inductive Job where
  | metadata (source : Source) (trace : TraceId)
  | detail (source : Source) (trace : TraceId) (kind : DetailKind) (event : EventId)
  | slice (source : Source) (trace : TraceId) (request : Request)
  /-- Some tracks are left to read, and `started` says whether the first of them is being read. -/
  | inTurn (source : Source) (trace : TraceId) (window : Window) (share : Float)
      (totals : ChunkTotals) (left : List Track) (started : Bool)

namespace Job

/-- The trace that the job works on. -/
def trace : Job → TraceId
  | .metadata _ trace => trace
  | .detail _ trace _ _ => trace
  | .slice _ trace _ => trace
  | .inTurn _ trace _ _ _ _ _ => trace

/-- The label of the operation that the job is part of. -/
def label : Job → String
  | .metadata _ _ => "read metadata"
  | .detail _ _ _ _ => "read event property"
  | _ => "read slice"

/-- The source that the job reads. -/
def source : Job → Source
  | .metadata source _ => source
  | .detail source _ _ _ => source
  | .slice source _ _ => source
  | .inTurn source _ _ _ _ _ _ => source

/-- The next turn reads the rows of a track. -/
def isReadingTrack : Job → Bool
  | .inTurn _ _ _ _ _ (_ :: _) started => started
  | _ => false

/-- No job takes more turns than this. -/
def turns : Job → Nat
  | .slice _ _ request => 2 * request.tracks.length + 2
  | .inTurn _ _ _ _ _ left _ => 2 * left.length + 1
  | _ => 1

/-- A turn that ends the job as a reading ended. -/
def ofReading (reading : Reading String) : Trace × Turn Job :=
  (reading.trace, ⟨reading.steps, .finished reading.result⟩)

/-- A turn of the job: the trace after it, and what the worker reports and has then. -/
def turn (run : Run Job) (trace : Trace) : Job → Trace × Turn Job
  | .metadata source _ =>
    if run.interrupted then (trace, ⟨[], .finished (.error run.interruption)⟩)
    else ofReading (source.loadMetadata trace)
  | .detail source _ kind event =>
    if run.interrupted then (trace, ⟨[], .finished (.error run.interruption)⟩)
    else ofReading (source.loadDetail kind event trace)
  | .slice source id request =>
    match trace.resolve request.tracks with
    | .error failure => (trace, ⟨[], .finished (.error failure)⟩)
    | .ok tracks =>
      let share := Source.trackShare tracks.length
      (trace, ⟨[], .work (.inTurn source id request.window share .zero tracks false)⟩)
  | .inTurn _ _ _ _ totals [] _ => (trace, ⟨[], .finished (.ok totals.completion)⟩)
  | .inTurn source id window share totals (track :: left) false =>
    if run.interrupted then (trace, ⟨[], .finished (.error run.interruption)⟩)
    else (trace, ⟨[], .work (.inTurn source id window share totals (track :: left) true)⟩)
  | .inTurn source id window share totals (track :: left) true =>
    match source.loadTrack window track trace with
    | .error failure => (trace, ⟨[], .finished (.error failure)⟩)
    | .ok (chunk, next) =>
      (next, ⟨[Source.trackStep share track],
        .work (.inTurn source id window share (totals.add chunk) left false)⟩)

end Job

end TimelineStore
