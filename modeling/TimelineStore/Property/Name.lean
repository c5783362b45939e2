import TimelineStore.Property.Key

/-!
# Names of keys

Every key is listed under a name that is its own among the keys of its kind.  The
full name puts it in brackets after the name of the kind.
-/

namespace TimelineStore

/-- The name of a key of a trace. -/
def TraceKey.name : TraceKey → String
  | .startTime => "StartTime"
  | .endTime => "EndTime"
  | .trackCount => "NumberOfTracks"
  | .footprint => "MemoryFootprint"
  | .trackAt => "TrackHandleIndexed"
  | .flowOf => "FlowTraceHandleByEventId"
  | .stackOf => "StackTraceHandleByEventId"
  | .attributesOf => "ExtDataHandleByEventId"
  | .database => "DatabaseHandle"

/-- The name of a key of a track. -/
def TrackKey.name : TrackKey → String
  | .recordCount => "NumRecords"
  | .firstTime => "MinimumTimestamp"
  | .lastTime => "MaximumTimestamp"
  | .categoryNumber => "CategoryEnum"
  | .categoryName => "CategoryString"
  | .id => "Id"
  | .node => "NodeId"
  | .process => "MainProcessName"
  | .subprocess => "SubProcessName"
  | .sliceCount => "NumberOfSlices"
  | .footprint => "MemoryFootprint"
  | .sliceAt => "SliceHandleIndexed"
  | .sliceCovering => "SliceHandleTimed"
  | .trace => "TraceHandle"
  | .lowestValue => "MinimumValue"
  | .highestValue => "MaximumValue"
  | .attributeCount => "NumberOfExtDataRecords"
  | .attributeCategoryAt => "ExtDataCategoryIndexed"
  | .attributeNameAt => "ExtDataNameIndexed"
  | .attributeValueAt => "ExtDataValueIndexed"
  | .attributeDocument => "InfoJson"
  | .database => "DatabaseHandle"

/-- The name of a key of a slice. -/
def SliceKey.name : SliceKey → String
  | .recordCovering => "RecordIndexByTimestamp"
  | .footprint => "MemoryFootprint"
  | .recordCount => "NumberOfRecords"
  | .timeAt => "TimestampIndexed"
  | .sampleAt => "PmcValueIndexed"
  | .eventIdAt => "EventIdIndexed"
  | .operationNumberAt => "EventOperationEnumIndexed"
  | .operationNameAt => "EventOperationStringIndexed"
  | .durationAt => "EventDurationIndexed"
  | .typeNameAt => "EventTypeStringIndexed"
  | .symbolAt => "EventSymbolStringIndexed"
  | .levelAt => "EventLevelIndexed"

/-- The name of a key of a flow trace. -/
def FlowKey.name : FlowKey → String
  | .endpointCount => "NumberOfEndpoints"
  | .trackAt => "EndpointTrackIdIndexed"
  | .eventAt => "EndpointIdIndexed"
  | .timeAt => "EndpointTimestampIndexed"

/-- The name of a key of a stack trace. -/
def StackKey.name : StackKey → String
  | .frameCount => "NumberOfFrames"
  | .depthAt => "FrameDepthIndexed"
  | .symbolAt => "FrameSymbolIndexed"
  | .argumentsAt => "FrameArgsIndexed"
  | .codeLineAt => "FrameCodeLineIndexed"

/-- The name of a key of the attributes of an event. -/
def AttributeKey.name : AttributeKey → String
  | .recordCount => "NumberOfRecords"
  | .categoryAt => "CategoryIndexed"
  | .nameAt => "NameIndexed"
  | .valueAt => "ValueIndexed"
  | .document => "JsonBlob"

/-- The name of a kind of entity. -/
def EntityKind.name : EntityKind → String
  | .trace => "Trace"
  | .track => "Track"
  | .slice => "Slice"
  | .flow => "FlowTrace"
  | .stack => "StackTrace"
  | .attributes => "ExtData"

/-- Every kind of entity that has properties. -/
def EntityKind.all : List EntityKind :=
  [.trace, .track, .slice, .flow, .stack, .attributes]

/-- The kind of entity with a name. -/
def EntityKind.ofName? (name : String) : Option EntityKind :=
  EntityKind.all.find? (·.name = name)

/-- The name of a key among the keys of its kind. -/
def PropertyKey.name : PropertyKey → String
  | .trace key => key.name
  | .track key => key.name
  | .slice key => key.name
  | .flow key => key.name
  | .stack key => key.name
  | .attributes key => key.name

instance : ToString PropertyKey where
  toString key := s!"{key.kind.name}({key.name})"

end TimelineStore
