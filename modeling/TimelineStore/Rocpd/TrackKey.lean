import TimelineStore.Database.Failure
import TimelineStore.Descriptor
import TimelineStore.Text.Digits
import TimelineStore.Text.Quoted

/-!
# Keys of tracks

The rows of a track are those whose key columns hold the key that the track's
descriptor names in its texts.
-/

namespace TimelineStore.Rocpd

/-- The key columns of the rows of a track. -/
inductive TrackKey where
  | thread (process thread : Int)
  | queue (device queue : Int)
  | monitor (device : Int) (name : String)
deriving DecidableEq

namespace TrackKey

/-- A text that must be the number of a key. -/
def number (text : String) : Except DatabaseFailure Int :=
  match Text.integer? text with
  | some value => .ok value
  | none => .error (.schema s!"{Text.quoted text} is not a numeric track key")

/-- The key that a descriptor names. -/
def ofDescriptor (track : Descriptor) : Except DatabaseFailure TrackKey :=
  match track.category with
  | .region => do
    let process ← number track.process
    let thread ← number track.subprocess
    return .thread process thread
  | .kernel => do
    let device ← number track.process
    let queue ← number track.subprocess
    return .queue device queue
  | .counter => do
    let device ← number track.process
    return .monitor device track.subprocess
  | other => .error (.unsupported s!"rocpd has no {other} tracks")

end TrackKey

end TimelineStore.Rocpd
