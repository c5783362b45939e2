/-!
# Identifiers

Each kind of entity has identifiers of its own type, so that a track can never
stand where a trace is expected.  Identifiers are handed out in order from
zero and are shown as a label and a number.
-/

namespace TimelineStore

/-- Names a trace of a session. -/
structure TraceId where
  index : Nat
deriving DecidableEq

/-- Names a database that a session has attached. -/
structure DatabaseId where
  index : Nat
deriving DecidableEq

/-- Names a future that a session has allocated. -/
structure FutureId where
  index : Nat
deriving DecidableEq

/-- Names a track of a trace by its position among the trace's tracks. -/
structure TrackId where
  index : Nat
deriving DecidableEq

instance : ToString TraceId where
  toString id := s!"trace#{id.index}"

instance : ToString DatabaseId where
  toString id := s!"database#{id.index}"

instance : ToString FutureId where
  toString id := s!"future#{id.index}"

instance : ToString TrackId where
  toString id := s!"track#{id.index}"

end TimelineStore
