import TimelineStore.Event

/-!
# Property keys

Each kind of entity has a closed list of keys.  On the raw surface a key is a
number, the position of the key in the list of its kind.  Keys whose name says
`At`, `Covering` or `Of` use the index that comes with them; the others ignore
it.
-/

namespace TimelineStore

/-- Keys of a trace. -/
inductive TraceKey where
  | startTime
  | endTime
  | trackCount
  | footprint
  | trackAt
  | flowOf
  | stackOf
  | attributesOf
  | database
deriving DecidableEq

/-- Every key of a trace, at the position of its number. -/
def TraceKey.all : List TraceKey :=
  [.startTime, .endTime, .trackCount, .footprint, .trackAt, .flowOf, .stackOf, .attributesOf,
    .database]

/-- Keys of a track. -/
inductive TrackKey where
  | recordCount
  | firstTime
  | lastTime
  | categoryNumber
  | categoryName
  | id
  | node
  | process
  | subprocess
  | sliceCount
  | footprint
  | sliceAt
  | sliceCovering
  | trace
  | lowestValue
  | highestValue
  | attributeCount
  | attributeCategoryAt
  | attributeNameAt
  | attributeValueAt
  | attributeDocument
  | database
deriving DecidableEq

/-- Every key of a track, at the position of its number. -/
def TrackKey.all : List TrackKey :=
  [.recordCount, .firstTime, .lastTime, .categoryNumber, .categoryName, .id, .node, .process,
    .subprocess, .sliceCount, .footprint, .sliceAt, .sliceCovering, .trace, .lowestValue,
    .highestValue, .attributeCount, .attributeCategoryAt, .attributeNameAt, .attributeValueAt,
    .attributeDocument, .database]

/-- Keys of a slice. -/
inductive SliceKey where
  | recordCovering
  | footprint
  | recordCount
  | timeAt
  | sampleAt
  | eventIdAt
  | operationNumberAt
  | operationNameAt
  | durationAt
  | typeNameAt
  | symbolAt
  | levelAt
deriving DecidableEq

/-- Every key of a slice, at the position of its number. -/
def SliceKey.all : List SliceKey :=
  [.recordCovering, .footprint, .recordCount, .timeAt, .sampleAt, .eventIdAt, .operationNumberAt,
    .operationNameAt, .durationAt, .typeNameAt, .symbolAt, .levelAt]

/-- Keys of a flow trace. -/
inductive FlowKey where
  | endpointCount
  | trackAt
  | eventAt
  | timeAt
deriving DecidableEq

/-- Every key of a flow trace, at the position of its number. -/
def FlowKey.all : List FlowKey :=
  [.endpointCount, .trackAt, .eventAt, .timeAt]

/-- Keys of a stack trace. -/
inductive StackKey where
  | frameCount
  | depthAt
  | symbolAt
  | argumentsAt
  | codeLineAt
deriving DecidableEq

/-- Every key of a stack trace, at the position of its number. -/
def StackKey.all : List StackKey :=
  [.frameCount, .depthAt, .symbolAt, .argumentsAt, .codeLineAt]

/-- Keys of the attributes of an event. -/
inductive AttributeKey where
  | recordCount
  | categoryAt
  | nameAt
  | valueAt
  | document
deriving DecidableEq

/-- Every key of the attributes of an event, at the position of its number. -/
def AttributeKey.all : List AttributeKey :=
  [.recordCount, .categoryAt, .nameAt, .valueAt, .document]

/-- The kinds of entity that have properties. -/
inductive EntityKind where
  | trace
  | track
  | slice
  | flow
  | stack
  | attributes
deriving DecidableEq

/-- The entity that detail of a kind is. -/
def EntityKind.ofDetail : DetailKind → EntityKind
  | .flow => .flow
  | .stack => .stack
  | .attributes => .attributes

/-- A key of some kind of entity. -/
inductive PropertyKey where
  | trace (key : TraceKey)
  | track (key : TrackKey)
  | slice (key : SliceKey)
  | flow (key : FlowKey)
  | stack (key : StackKey)
  | attributes (key : AttributeKey)
deriving DecidableEq

namespace PropertyKey

/-- The kind of entity that the key belongs to. -/
def kind : PropertyKey → EntityKind
  | .trace _ => .trace
  | .track _ => .track
  | .slice _ => .slice
  | .flow _ => .flow
  | .stack _ => .stack
  | .attributes _ => .attributes

/-- The key with a number among the keys of a kind of entity. -/
def ofNumber? : EntityKind → Nat → Option PropertyKey
  | .trace, number => TraceKey.all[number]?.map .trace
  | .track, number => TrackKey.all[number]?.map .track
  | .slice, number => SliceKey.all[number]?.map .slice
  | .flow, number => FlowKey.all[number]?.map .flow
  | .stack, number => StackKey.all[number]?.map .stack
  | .attributes, number => AttributeKey.all[number]?.map .attributes

end PropertyKey

end TimelineStore
