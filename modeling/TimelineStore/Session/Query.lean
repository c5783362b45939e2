import TimelineStore.Grid
import TimelineStore.Property.Lookup
import TimelineStore.Session.State

/-!
# Queries of a session

Handles and properties of what is resident, totals of chunks, and grids over
loaded traces.  A handle of something that is gone finds nothing.
-/

namespace TimelineStore.Session

section Handles

/-- The track of a trace at a position. -/
def trackAt? (session : Session) (id : TraceId) (index : Nat) : Option TrackHandle := do
  let trace ← (session.trace id).toOption
  let track ← trace.track? ⟨index⟩
  return ⟨id, track.id⟩

/-- The two texts that name a track. -/
def namesOf? (session : Session) (handle : TrackHandle) : Option (String × String) := do
  let (_, track) ← (session.track handle).toOption
  return (track.descriptor.process, track.descriptor.subprocess)

/-- The chunk that a track acquired last, if it is still resident. -/
def lastChunk? (session : Session) (handle : TrackHandle) : Option SliceHandle := do
  let (_, track) ← (session.track handle).toOption
  let chunk ← track.lastChunk?
  return ⟨handle.trace, handle.track, chunk.start⟩

/-- The chunk that a handle names. -/
def chunk? (session : Session) (handle : SliceHandle) : Option Chunk :=
  (session.slice handle).toOption.map Prod.snd

/-- The totals of the chunks that some tracks acquired last. -/
def aggregate? (session : Session) (id : TraceId) (tracks : List TrackId) :
    Option ChunkTotals :=
  (session.trace id).toOption.map (·.aggregate tracks)

end Handles

section Grids

/-- The box of a loaded trace, with the least span that the session allows. -/
def grid (session : Session) (id : TraceId) : Except Failure Grid := do
  let trace ← session.trace id
  Grid.ofTrace trace session.config.minimumSpan

/-- The cells of a shape over a trace; none if there is no grid. -/
def plan (session : Session) (id : TraceId) (shape : Shape) : List Cell :=
  match session.grid id with
  | .ok grid => grid.plan shape
  | .error _ => []

end Grids

section Properties

/-- The property of what a handle names; a key of another kind of entity finds nothing. -/
def property? (session : Session) (handle : Handle) (key : PropertyKey) (index : UInt64) :
    Option PropertyValue :=
  match handle, key with
  | .trace id, .trace key => do
    let trace ← (session.trace id).toOption
    trace.property? key index
  | .track handle, .track key => do
    let (trace, track) ← (session.track handle).toOption
    track.property? trace key index
  | .slice handle, .slice key => do
    let (trace, chunk) ← (session.slice handle).toOption
    chunk.property? trace.strings key index
  | .detail handle, .flow key => do
    let detail ← (session.detail handle).toOption
    detail.flowProperty? key index
  | .detail handle, .stack key => do
    let detail ← (session.detail handle).toOption
    detail.stackProperty? key index
  | .detail handle, .attributes key => do
    let detail ← (session.detail handle).toOption
    detail.attributeProperty? key index
  | _, _ => none

end Properties

end TimelineStore.Session
