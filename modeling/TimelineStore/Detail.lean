import TimelineStore.Detail.Raw
import TimelineStore.Identifier

/-!
# Resident detail

The stored form of the detail of an event.  A flow endpoint names its track by
identifier; an endpoint on a timeline that the trace does not have is dropped.
-/

namespace TimelineStore

/-- The far end of a flow link, on a track of the trace. -/
structure Endpoint where
  track : TrackId
  event : EventId
  time : Timestamp
deriving DecidableEq

/-- The stored detail of one event. -/
inductive Detail where
  | flow (endpoints : List Endpoint)
  | stack (frames : List Frame)
  | attributes (records : List Attribute)
deriving DecidableEq

namespace Detail

/-- An endpoint on the track that `find` names for it. -/
def resolveEndpoint
    (find : RawEndpoint → Option TrackId) (endpoint : RawEndpoint) : Option Endpoint :=
  (find endpoint).map fun track => ⟨track, endpoint.event, endpoint.time⟩

/-- The stored form of detail, its endpoints on the tracks that `find` names. -/
def resolve (find : RawEndpoint → Option TrackId) : RawDetail → Detail
  | .flow endpoints => .flow (endpoints.filterMap (resolveEndpoint find))
  | .stack frames => .stack frames
  | .attributes records => .attributes records

/-- The kind of detail that this is. -/
def kind : Detail → DetailKind
  | .flow _ => .flow
  | .stack _ => .stack
  | .attributes _ => .attributes

/-- The number of endpoints, frames or attributes. -/
def size : Detail → Nat
  | .flow endpoints => endpoints.length
  | .stack frames => frames.length
  | .attributes records => records.length

/-- The event has no detail of the kind. -/
def isEmpty (detail : Detail) : Bool :=
  detail.size = 0

/-- The flow endpoint at a position. -/
def endpoint? : Detail → Nat → Option Endpoint
  | .flow endpoints, index => endpoints[index]?
  | _, _ => none

/-- The frame at a position. -/
def frame? : Detail → Nat → Option Frame
  | .stack frames, index => frames[index]?
  | _, _ => none

/-- The attribute at a position. -/
def attribute? : Detail → Nat → Option Attribute
  | .attributes records, index => records[index]?
  | _, _ => none

/-- The bytes of an endpoint. -/
def endpointBytes : Nat := 32

/-- The bytes of a frame beside its texts. -/
def frameBytes : Nat := 80

/-- The bytes of an attribute beside its texts. -/
def attributeBytes : Nat := 72

/-- The bytes of a frame. -/
def frameFootprint (frame : Frame) : Nat :=
  frameBytes + frame.symbol.utf8ByteSize + frame.arguments.utf8ByteSize +
    frame.codeLine.utf8ByteSize

/-- The bytes of an attribute. -/
def attributeFootprint (entry : Attribute) : Nat :=
  attributeBytes + entry.category.utf8ByteSize + entry.name.utf8ByteSize +
    entry.value.utf8ByteSize

/-- The bytes that the detail takes. -/
def footprint : Detail → Nat
  | .flow endpoints => endpoints.length * endpointBytes
  | .stack frames => (frames.map frameFootprint).foldl (· + ·) 0
  | .attributes records => (records.map attributeFootprint).foldl (· + ·) 0

end Detail

end TimelineStore
