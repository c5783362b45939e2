/-!
# Progress

An operation reports steps, each a share of the whole in percent and a text.  A
`Meter` adds the shares up and makes the events that a listener hears: busy
events while the operation runs, and one closing event.
-/

namespace TimelineStore

/-- A step that an operation reports: its share in percent and what was done. -/
structure Step where
  share : Float
  message : String
deriving DecidableEq

/-- Where the operation stands. -/
inductive ProgressStatus where
  | success
  | error
  | busy
deriving DecidableEq

/-- The number of the status. -/
def ProgressStatus.number : ProgressStatus → Nat
  | .success => 0
  | .error => 1
  | .busy => 2

/-- What a listener hears. -/
structure ProgressEvent where
  source : String
  percent : Nat
  status : ProgressStatus
  message : String
deriving DecidableEq

/-- The running total of one operation. -/
structure Meter where
  source : String
  total : Float
deriving DecidableEq

namespace Meter

/-- The value held between 0 and 100; what is not a number stays so. -/
def clamp (value : Float) : Float :=
  if value < 0.0 then 0.0 else if 100.0 < value then 100.0 else value

/-- Nothing is done yet. -/
def start (source : String) : Meter :=
  ⟨source, 0.0⟩

/-- The total in whole percent, rounded down; what is not a number counts as 0. -/
def percent (meter : Meter) : Nat :=
  (clamp meter.total).toUInt8.toNat

/-- The event for the present total. -/
def event (meter : Meter) (status : ProgressStatus) (message : String) : ProgressEvent :=
  ⟨meter.source, meter.percent, status, message⟩

/-- The meter and the busy event after one more step. -/
def advance (meter : Meter) (step : Step) : Meter × ProgressEvent :=
  let next := { meter with total := clamp (meter.total + step.share) }
  (next, next.event .busy step.message)

/-- The meter and the closing event: success is at 100, failure leaves the total. -/
def finish (meter : Meter) (succeeded : Bool) (message : String) : Meter × ProgressEvent :=
  if succeeded then
    let next := { meter with total := 100.0 }
    (next, next.event .success message)
  else
    (meter, meter.event .error message)

/-- The events of a run of steps, and the meter after it. -/
def advanceAll (meter : Meter) : List Step → Meter × List ProgressEvent
  | [] => (meter, [])
  | step :: steps =>
    let (next, event) := meter.advance step
    let (last, events) := next.advanceAll steps
    (last, event :: events)

end Meter

end TimelineStore
