import TimelineStore.Descriptor
import TimelineStore.Event

/-!
# Detail as a source answers it

Flow endpoints name their track by category and texts, because a source knows
nothing of the tracks of a trace.
-/

namespace TimelineStore

/-- The far end of a flow link. -/
structure RawEndpoint where
  category : Category
  process : String
  subprocess : String
  event : EventId
  time : Timestamp
deriving DecidableEq

/-- One frame of a call stack; depth 0 is the innermost frame. -/
structure Frame where
  depth : Nat
  symbol : String
  arguments : String
  codeLine : String
deriving DecidableEq

/-- The detail of one event. -/
inductive RawDetail where
  | flow (endpoints : List RawEndpoint)
  | stack (frames : List Frame)
  | attributes (records : List Attribute)
deriving DecidableEq

namespace RawDetail

/-- The kind of detail that this is. -/
def kind : RawDetail → DetailKind
  | .flow _ => .flow
  | .stack _ => .stack
  | .attributes _ => .attributes

/-- Detail of a kind that has no entries. -/
def empty : DetailKind → RawDetail
  | .flow => .flow []
  | .stack => .stack []
  | .attributes => .attributes []

end RawDetail

end TimelineStore
