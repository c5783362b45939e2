import TimelineStore.Attributes
import TimelineStore.Property.Key
import TimelineStore.Property.Value
import TimelineStore.Trace

/-!
# Looking up properties

A property is looked up on an entity by key and index.  There is none when the
index is out of range, when the key does not fit the layout of the entity, or
when the data that it needs is not resident.
-/

namespace TimelineStore

/-- The handle of resident detail of the event packed in a word. -/
def Trace.detailHandle? (trace : Trace) (kind : DetailKind) (word : UInt64) :
    Option PropertyValue :=
  (EventId.unpack? word).bind fun event =>
    (trace.detail? kind event).map fun _ => .handle (.detail ⟨trace.id, kind, event⟩)

/-- A property of a trace. -/
def Trace.property? (trace : Trace) (key : TraceKey) (index : UInt64) : Option PropertyValue :=
  match key with
  | .startTime => trace.window?.map fun window => .natural window.start.toNat
  | .endTime => trace.window?.map fun window => .natural window.stop.toNat
  | .trackCount => some (.natural trace.trackCount)
  | .footprint => some (.natural trace.footprint)
  | .trackAt => (trace.track? ⟨index.toNat⟩).map fun track => .handle (.track ⟨trace.id, track.id⟩)
  | .flowOf => trace.detailHandle? .flow index
  | .stackOf => trace.detailHandle? .stack index
  | .attributesOf => trace.detailHandle? .attributes index
  | .database => trace.boundTo.map fun database => .handle (.database database)

/-- The handle of a chunk of a track. -/
def Track.sliceHandle (track : Track) (trace : TraceId) (chunk : Chunk) : PropertyValue :=
  .handle (.slice ⟨trace, track.id, chunk.start⟩)

/-- A property of a track. -/
def Track.property? (track : Track) (trace : Trace) (key : TrackKey) (index : UInt64) :
    Option PropertyValue :=
  let record? := track.descriptor.attributes[index.toNat]?
  match key with
  | .recordCount => some (.natural track.recordCount)
  | .firstTime => track.firstTime?.map fun time => .natural time.toNat
  | .lastTime => track.lastTime?.map fun time => .natural time.toNat
  | .categoryNumber => some (.natural track.descriptor.category.number)
  | .categoryName => some (.text (toString track.descriptor.category))
  | .id => some (.natural track.id.index)
  | .node => some (.natural track.descriptor.node)
  | .process => some (.text track.descriptor.process)
  | .subprocess => some (.text track.descriptor.subprocess)
  | .sliceCount => some (.natural track.chunkCount)
  | .footprint => some (.natural track.footprint)
  | .sliceAt => (track.shelf.get? index.toNat).map (track.sliceHandle trace.id)
  | .sliceCovering => (track.shelf.covering? index).map (track.sliceHandle trace.id)
  | .trace => some (.handle (.trace trace.id))
  | .lowestValue => track.valueRange?.map fun range => .real range.low
  | .highestValue => track.valueRange?.map fun range => .real range.high
  | .attributeCount => some (.natural track.descriptor.attributes.length)
  | .attributeCategoryAt => record?.map fun record => .text record.category
  | .attributeNameAt => record?.map fun record => .text record.name
  | .attributeValueAt => record?.map fun record => .text record.value
  | .attributeDocument => some (.text (Attribute.document track.descriptor.attributes))
  | .database => trace.boundTo.map fun database => .handle (.database database)

/-- A property of a chunk. -/
def Chunk.property? (chunk : Chunk) (strings : StringTable) (key : SliceKey) (index : UInt64) :
    Option PropertyValue :=
  let event? := chunk.records.event? index.toNat
  match key with
  | .recordCovering => (chunk.indexAt? index).map .natural
  | .footprint => some (.natural chunk.footprint)
  | .recordCount => some (.natural chunk.size)
  | .timeAt => (chunk.timeAt? index.toNat).map fun time => .natural time.toNat
  | .sampleAt => (chunk.records.sample? index.toNat).map fun sample => .real sample.value
  | .eventIdAt => event?.map fun event => .natural event.id.toNat
  | .operationNumberAt => event?.map fun event => .natural event.operation.number
  | .operationNameAt => event?.map fun event => .text (toString event.operation)
  | .durationAt => event?.map fun event => .integer event.duration.toInt
  | .typeNameAt => event?.bind fun event => (strings.get? event.typeIndex).map .text
  | .symbolAt => event?.bind fun event => (strings.get? event.symbolIndex).map .text
  | .levelAt => event?.map fun event => .natural event.level

/-- A property of a flow trace. -/
def Detail.flowProperty? (detail : Detail) (key : FlowKey) (index : UInt64) :
    Option PropertyValue :=
  match detail with
  | .flow endpoints =>
    let endpoint? := endpoints[index.toNat]?
    match key with
    | .endpointCount => some (.natural endpoints.length)
    | .trackAt => endpoint?.map fun endpoint => .natural endpoint.track.index
    | .eventAt => endpoint?.map fun endpoint => .natural endpoint.event.pack.toNat
    | .timeAt => endpoint?.map fun endpoint => .natural endpoint.time.toNat
  | _ => none

/-- A property of a stack trace. -/
def Detail.stackProperty? (detail : Detail) (key : StackKey) (index : UInt64) :
    Option PropertyValue :=
  match detail with
  | .stack frames =>
    let frame? := frames[index.toNat]?
    match key with
    | .frameCount => some (.natural frames.length)
    | .depthAt => frame?.map fun frame => .natural frame.depth
    | .symbolAt => frame?.map fun frame => .text frame.symbol
    | .argumentsAt => frame?.map fun frame => .text frame.arguments
    | .codeLineAt => frame?.map fun frame => .text frame.codeLine
  | _ => none

/-- A property of the attributes of an event. -/
def Detail.attributeProperty? (detail : Detail) (key : AttributeKey) (index : UInt64) :
    Option PropertyValue :=
  match detail with
  | .attributes records =>
    let record? := records[index.toNat]?
    match key with
    | .recordCount => some (.natural records.length)
    | .categoryAt => record?.map fun record => .text record.category
    | .nameAt => record?.map fun record => .text record.name
    | .valueAt => record?.map fun record => .text record.value
    | .document => some (.text (Attribute.document records))
  | _ => none

end TimelineStore
