import TimelineStore.Toml.Document

/-!
# Configuration

Four settings, each with a default, so that the empty document is a valid
configuration.  Settings that are not known are ignored.
-/

namespace TimelineStore

/-- The settings of a session. -/
structure Config where
  /-- Cells of a grid narrower than this are rejected. -/
  minimumSpan : Nat
  /-- How many progress events a future holds before it drops further ones. -/
  progressCapacity : Nat
  /-- How many seconds a wait lasts that is given no other bound. -/
  waitSeconds : Nat
  /-- The name of the workers. -/
  workerName : String
deriving DecidableEq

/-- Why there is no configuration. -/
inductive ConfigFailure where
  | unreadable (path reason : String)
  | malformed (reason : String)
  | outOfRange (field reason : String)
deriving DecidableEq

/-- The name of the cause. -/
def ConfigFailure.cause : ConfigFailure → String
  | .unreadable _ _ => "Read"
  | .malformed _ => "Parse"
  | .outOfRange _ _ => "InvalidValue"

/-- The text of the failure. -/
def ConfigFailure.message : ConfigFailure → String
  | .unreadable path reason => s!"cannot read config {path}: {reason}"
  | .malformed reason => s!"invalid config: {reason}"
  | .outOfRange field reason => s!"invalid value for {field}: {reason}"

namespace Config

/-- The default of every setting. -/
def standard : Config :=
  ⟨1000000, 64, 10, "tracestore-worker"⟩

/-- The values are in range. -/
def validate (config : Config) : Except ConfigFailure Unit :=
  if config.progressCapacity = 0 then
    .error (.outOfRange "progress_capacity" "must be at least 1")
  else if config.workerName = "" then
    .error (.outOfRange "worker_name" "must not be empty")
  else
    .ok ()

/-- A setting that is a count. -/
def count (document : Toml.Document) (key : String) (standard : Nat) :
    Except ConfigFailure Nat :=
  match document.get? key with
  | none => .ok standard
  | some (.whole value) =>
    if 0 ≤ value then .ok value.toNat else .error (.malformed s!"{key} is negative")
  | _ => .error (.malformed s!"{key} is not a whole number")

/-- A setting that is a text. -/
def text (document : Toml.Document) (key : String) (standard : String) :
    Except ConfigFailure String :=
  match document.get? key with
  | none => .ok standard
  | some (.text value) => .ok value
  | _ => .error (.malformed s!"{key} is not a text")

/-- The settings of a document, in range or not. -/
def ofDocument (document : Toml.Document) : Except ConfigFailure Config := do
  let minimumSpan ← count document "min_partition_span" standard.minimumSpan
  let progressCapacity ← count document "progress_capacity" standard.progressCapacity
  let waitSeconds ← count document "default_wait_timeout_secs" standard.waitSeconds
  let workerName ← text document "worker_name" standard.workerName
  return ⟨minimumSpan, progressCapacity, waitSeconds, workerName⟩

/-- The configuration that a text describes. -/
def ofText (source : String) : Except ConfigFailure Config :=
  match Toml.Document.ofText? source with
  | none => .error (.malformed "not a settings document")
  | some document => do
    let config ← ofDocument document
    config.validate
    return config

/-- The configuration in the file at a path, given what the file holds, if it is there. -/
def load (path : String) : Option String → Except ConfigFailure Config
  | none => .error (.unreadable path "No such file or directory (os error 2)")
  | some contents => ofText contents

end Config

end TimelineStore
