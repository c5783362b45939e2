import TimelineStore.Text.Digits

/-!
# Failures

`Code` is the closed set of outcomes that the raw surface reports by value, and
`Failure` is the set of causes that operations fail with.  Every failure has
one text and one code.
-/

namespace TimelineStore

/-- The outcome of a call of the raw surface. -/
inductive Code where
  | success
  | unknownError
  | timeout
  | notLoaded
  | allocFailure
  | invalidParameter
  | databaseAccessFailed
  | invalidProperty
  | notSupported
  | resourceBusy
  | nothingScheduled
deriving DecidableEq

namespace Code

/-- Every code, at the position of its number. -/
def all : List Code :=
  [.success, .unknownError, .timeout, .notLoaded, .allocFailure, .invalidParameter,
    .databaseAccessFailed, .invalidProperty, .notSupported, .resourceBusy, .nothingScheduled]

/-- The number of the code. -/
def number : Code → Nat
  | .success => 0
  | .unknownError => 1
  | .timeout => 2
  | .notLoaded => 3
  | .allocFailure => 4
  | .invalidParameter => 5
  | .databaseAccessFailed => 6
  | .invalidProperty => 7
  | .notSupported => 8
  | .resourceBusy => 9
  | .nothingScheduled => 10

/-- The call succeeded. -/
def isSuccess (code : Code) : Bool :=
  code = .success

instance : ToString Code where
  toString
    | .success => "Success"
    | .unknownError => "UnknownError"
    | .timeout => "Timeout"
    | .notLoaded => "NotLoaded"
    | .allocFailure => "AllocFailure"
    | .invalidParameter => "InvalidParameter"
    | .databaseAccessFailed => "DbAccessFailed"
    | .invalidProperty => "InvalidProperty"
    | .notSupported => "NotSupported"
    | .resourceBusy => "ResourceBusy"
    | .nothingScheduled => "NothingScheduled"

end Code

/-- Why an operation failed. -/
inductive Failure where
  | invalidParameter (what : String)
  | notLoaded (what : String)
  | notFound (what : String)
  | alreadyInUse (what : String)
  | alreadyBound (what : String)
  | timedOut (seconds : Nat)
  | nothingScheduled (on : String)
  | interrupted (source : String)
  | databaseAccess (what : String)
  | unsupported (what : String)
  | inputOutput (what : String)
  | internal (what : String)
deriving DecidableEq

namespace Failure

/-- The text of the failure. -/
def message : Failure → String
  | .invalidParameter what => s!"invalid parameter: {what}"
  | .notLoaded what => s!"not loaded: {what}"
  | .notFound what => s!"not found: {what}"
  | .alreadyInUse what => s!"already in use: {what}"
  | .alreadyBound what => s!"already bound: {what}"
  | .timedOut seconds => s!"timed out after {seconds}s"
  | .nothingScheduled future => s!"nothing scheduled on {future}"
  | .interrupted source => s!"interrupted: {source}"
  | .databaseAccess what => s!"database access failed: {what}"
  | .unsupported what => s!"unsupported: {what}"
  | .inputOutput what => s!"I/O error: {what}"
  | .internal what => s!"internal error: {what}"

/-- The name of the cause. -/
def cause : Failure → String
  | .invalidParameter _ => "InvalidParameter"
  | .notLoaded _ => "NotLoaded"
  | .notFound _ => "NotFound"
  | .alreadyInUse _ => "AlreadyInUse"
  | .alreadyBound _ => "AlreadyBound"
  | .timedOut _ => "Timeout"
  | .nothingScheduled _ => "NothingScheduled"
  | .interrupted _ => "Interrupted"
  | .databaseAccess _ => "DatabaseAccess"
  | .unsupported _ => "Unsupported"
  | .inputOutput _ => "Io"
  | .internal _ => "Internal"

/-- The failure of each cause with a text; of a wait, the text says the seconds. -/
def each (text : String) : List Failure :=
  [.invalidParameter text, .notLoaded text, .notFound text, .alreadyInUse text,
    .alreadyBound text, .timedOut ((Text.natural? text).getD 0), .nothingScheduled text,
    .interrupted text, .databaseAccess text, .unsupported text, .inputOutput text,
    .internal text]

/-- The failure with the name of a cause and a text. -/
def ofCause? (cause text : String) : Option Failure :=
  (each text).find? (·.cause = cause)

/-- The code that stands for the failure. -/
def code : Failure → Code
  | .invalidParameter _ => .invalidParameter
  | .notFound _ => .invalidParameter
  | .notLoaded _ => .notLoaded
  | .alreadyInUse _ => .resourceBusy
  | .alreadyBound _ => .resourceBusy
  | .timedOut _ => .timeout
  | .interrupted _ => .timeout
  | .databaseAccess _ => .databaseAccessFailed
  | .inputOutput _ => .databaseAccessFailed
  | .unsupported _ => .notSupported
  | .nothingScheduled _ => .nothingScheduled
  | .internal _ => .unknownError

/-- The same call may succeed once the running operation has resolved. -/
def isRetryable : Failure → Bool
  | .alreadyInUse _ => true
  | .timedOut _ => true
  | _ => false

end Failure

/-- The code of an outcome. -/
def Code.ofResult {α : Type} : Except Failure α → Code
  | .ok _ => .success
  | .error failure => failure.code

end TimelineStore
