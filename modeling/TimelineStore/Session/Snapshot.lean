import TimelineStore.Session.Query

/-!
# Snapshots

A snapshot of a trace is everything that its properties show: those of the trace,
of each track, and of each record of each resident chunk, in the order of their
keys.  It reads through the same queries as anyone else, so what a session holds
beyond its properties does not appear in it.
-/

namespace TimelineStore

/-- What the properties of a chunk show, with a row for each record. -/
structure SliceSnapshot where
  handle : Handle
  footprint : Option PropertyValue
  size : Nat
  rows : List (List (Option PropertyValue))

/-- What the properties of a track show. -/
structure TrackSnapshot where
  properties : List (Option PropertyValue)
  slices : List SliceSnapshot

/-- What the properties of a trace show. -/
structure TraceSnapshot where
  properties : List (Option PropertyValue)
  tracks : List TrackSnapshot

namespace Session

/-- A property that counts, zero where there is none. -/
def countOf (session : Session) (handle : Handle) (key : PropertyKey) : Nat :=
  ((session.property? handle key 0).bind PropertyValue.natural?).getD 0

/-- The handles that an indexed property has below a count. -/
def handlesOf (session : Session) (handle : Handle) (key : PropertyKey) (count : Nat) :
    List Handle :=
  (List.range count).filterMap fun index =>
    (session.property? handle key (UInt64.ofNat index)).bind PropertyValue.handle?

/-- The keys of a slice that describe one record. -/
def recordKeys : List SliceKey :=
  SliceKey.all.drop 3

/-- What the properties of a chunk show. -/
def sliceSnapshot (session : Session) (handle : Handle) : SliceSnapshot :=
  let size := session.countOf handle (.slice .recordCount)
  let row (index : Nat) : List (Option PropertyValue) :=
    recordKeys.map fun key => session.property? handle (.slice key) (UInt64.ofNat index)
  ⟨handle, session.property? handle (.slice .footprint) 0, size, (List.range size).map row⟩

/-- What the properties of a track show. -/
def trackSnapshot (session : Session) (handle : Handle) : TrackSnapshot :=
  let slices := session.handlesOf handle (.track .sliceAt)
    (session.countOf handle (.track .sliceCount))
  ⟨TrackKey.all.map fun key => session.property? handle (.track key) 0,
    slices.map session.sliceSnapshot⟩

/-- What the properties of a trace show. -/
def snapshot (session : Session) (id : TraceId) : TraceSnapshot :=
  let tracks := session.handlesOf (.trace id) (.trace .trackAt)
    (session.countOf (.trace id) (.trace .trackCount))
  ⟨TraceKey.all.map fun key => session.property? (.trace id) (.trace key) 0,
    tracks.map session.trackSnapshot⟩

end Session

end TimelineStore
