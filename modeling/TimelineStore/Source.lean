import TimelineStore.Descriptor
import TimelineStore.Detail.Raw
import TimelineStore.Failure
import TimelineStore.Progress
import TimelineStore.Record

/-!
# Sources

A source answers three questions: what the session looks like, which rows of a
track belong to a window, and what detail an event has.  A source is a value of
functions; the same question always has the same answer.
-/

namespace TimelineStore

/-- A reading of metadata: the steps it reported, and what it ended with. -/
structure MetadataReading where
  steps : List Step
  answer : Except Failure Metadata

/-- The answers of a profiling database. -/
structure Source where
  name : String
  metadata : MetadataReading
  readTrack : Descriptor → Window → Except Failure (List Row)
  readTracks : List Descriptor → Window → Except Failure (List (List Row))
  readDetail : DetailKind → EventId → Except Failure RawDetail

namespace Source

/-- Row sets asked for one track after the other; the first failure stands for all. -/
def oneByOne
    (readTrack : Descriptor → Window → Except Failure (List Row))
    (tracks : List Descriptor) (window : Window) :
    Except Failure (List (List Row)) :=
  tracks.mapM fun track => readTrack track window

/-- The answer of a source called `name` that has no detail of any kind. -/
def noDetail (name : String) (kind : DetailKind) (event : EventId) :
    Except Failure RawDetail :=
  .error (.unsupported s!"{name} does not provide {kind} for {event}")

/-- What every source answers to a kind that does not apply to the event. -/
def inapplicable (kind : DetailKind) (event : EventId) : Failure :=
  .invalidParameter s!"{kind} is not available for {event}"

end Source

end TimelineStore
