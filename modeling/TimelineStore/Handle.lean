import TimelineStore.Event
import TimelineStore.Identifier
import TimelineStore.Time

/-!
# Handles

A handle is a value that names an entity of a session.  Handles stay plain
values when the entity goes away; looking one up then finds nothing.
-/

namespace TimelineStore

/-- Names one track of one trace. -/
structure TrackHandle where
  trace : TraceId
  track : TrackId
deriving DecidableEq

/-- Names the chunk of a track whose window starts at `start`. -/
structure SliceHandle where
  trace : TraceId
  track : TrackId
  start : Timestamp
deriving DecidableEq

/-- The track that holds the chunk. -/
def SliceHandle.trackHandle (slice : SliceHandle) : TrackHandle :=
  ⟨slice.trace, slice.track⟩

/-- Names the resident detail of one kind of one event. -/
structure DetailHandle where
  trace : TraceId
  kind : DetailKind
  event : EventId
deriving DecidableEq

/-- A handle of any kind. -/
inductive Handle where
  | trace (id : TraceId)
  | track (handle : TrackHandle)
  | slice (handle : SliceHandle)
  | database (id : DatabaseId)
  | future (id : FutureId)
  | detail (handle : DetailHandle)
deriving DecidableEq

instance : ToString Handle where
  toString
    | .trace id => toString id
    | .track handle => s!"{handle.trace} {handle.track}"
    | .slice handle => s!"{handle.trace} {handle.track} {handle.start.toNat}"
    | .database id => toString id
    | .future id => toString id
    | .detail handle => s!"{handle.trace} {handle.kind} {handle.event}"

end TimelineStore
