/-!
# Trace time

Times are unsigned 64-bit counts of the units of the profiling database.  A
`Window` is the half-open range from its start up to, but not including, its
stop; a window whose stop is not after its start covers no time at all.
-/

namespace TimelineStore

/-- A point in trace time. -/
abbrev Timestamp := UInt64

namespace Timestamp

/-- The last time that can be represented. -/
def latest : Timestamp := 18446744073709551615

/-- The time `amount` units later, held at the last representable time. -/
def later (time : Timestamp) (amount : Nat) : Timestamp :=
  UInt64.ofNatClamp (time.toNat + amount)

/-- The end of something that starts at `time`; a negative duration counts as none. -/
def after (time : Timestamp) (duration : Int64) : Timestamp :=
  later time duration.toInt.toNat

end Timestamp

/-- A half-open range of trace time. -/
structure Window where
  start : Timestamp
  stop : Timestamp
deriving DecidableEq

namespace Window

/-- The width of the window, zero when it is inverted. -/
def span (window : Window) : Nat :=
  window.stop.toNat - window.start.toNat

/-- The window covers no time. -/
def isEmpty (window : Window) : Bool :=
  window.stop ≤ window.start

/-- The window covers `time`. -/
def contains (window : Window) (time : Timestamp) : Bool :=
  window.start ≤ time && time < window.stop

/-- Something that starts at `start` and ends at `stop` shares time with the
window.  What has no length shares time with the window that holds its start. -/
def meets (window : Window) (start stop : Timestamp) : Bool :=
  start < window.stop && (window.start < stop || window.start ≤ start)

instance : ToString Window where
  toString window := s!"[{window.start.toNat}, {window.stop.toNat})"

end Window

end TimelineStore
