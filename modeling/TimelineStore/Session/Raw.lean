import TimelineStore.Session.Evict
import TimelineStore.Session.Query

/-!
# The raw surface

Calls of the raw surface report a code in place of a failure, name kinds, events
and keys by numbers, and return zero or nothing where there is no property.
-/

namespace TimelineStore.Session

section Codes

/-- A call that changes the session or leaves it as it was. -/
def coded (session : Session) (outcome : Except Failure Session) : Code × Session :=
  match outcome with
  | .ok next => (.success, next)
  | .error failure => (failure.code, session)

/-- A call whose count is not told. -/
def codedCount {α : Type} (session : Session) (outcome : Except Failure (α × Session)) :
    Code × Session :=
  session.coded (outcome.map Prod.snd)

end Codes

section Numbers

/-- The kind of detail with a number. -/
def kindOfNumber (number : Nat) : Except Failure DetailKind :=
  match DetailKind.ofNumber? number with
  | some kind => .ok kind
  | none => .error (.invalidParameter s!"unknown event property {number}")

/-- The event packed in a word. -/
def eventOfWord (word : UInt64) : Except Failure EventId :=
  match EventId.unpack? word with
  | some event => .ok event
  | none =>
    let digits := String.ofList (Nat.toDigits 16 word.toNat)
    .error (.invalidParameter s!"malformed event id 0x{digits}")

/-- Schedules a read of a window over tracks. -/
def scheduleReadRaw (session : Session) (database : DatabaseId) (window : Window)
    (tracks : List TrackId) (future : FutureId) : Code × Session :=
  session.coded <| match Request.make window tracks with
    | .error flaw => .error flaw.failure
    | .ok request => session.scheduleRead database request future

/-- Schedules a read of detail. -/
def scheduleDetailRaw (session : Session) (database : DatabaseId) (kind : Nat) (word : UInt64)
    (future : FutureId) : Code × Session :=
  session.coded do
    let kind ← kindOfNumber kind
    let event ← eventOfWord word
    session.scheduleDetail database kind event future

/-- Gives up one kind of detail of one event. -/
def evictDetailRaw (session : Session) (id : TraceId) (kind : Nat) (word : UInt64) :
    Code × Session :=
  session.codedCount do
    let kind ← kindOfNumber kind
    let event ← eventOfWord word
    session.evictDetail id kind event

/-- Gives up detail of one kind. -/
def evictDetailsRaw (session : Session) (id : TraceId) (kind : Nat) : Code × Session :=
  session.codedCount do
    let kind ← kindOfNumber kind
    session.evictDetails id kind

/-- How many seconds a raw wait lasts; the greatest number means that it has no bound. -/
def waitBound (seconds : UInt64) : Option Nat :=
  if seconds.toNat = Future.unbounded then none else some seconds.toNat

/-- Waits for a future. -/
def waitRaw (session : Session) (id : FutureId) (seconds : UInt64) : Told Code :=
  let told := session.wait id (waitBound seconds)
  ⟨told.events, Code.ofResult told.result, told.session⟩

end Numbers

section Properties

/-- The kind of entity that a handle names, if it has properties. -/
def entityOf? : Handle → Option EntityKind
  | .trace _ => some .trace
  | .track _ => some .track
  | .slice _ => some .slice
  | .detail handle => some (.ofDetail handle.kind)
  | .database _ => none
  | .future _ => none

/-- The property with a numbered key. -/
def rawProperty? (session : Session) (handle : Handle) (key : Nat) (index : UInt64) :
    Option PropertyValue := do
  let kind ← entityOf? handle
  let key ← PropertyKey.ofNumber? kind key
  session.property? handle key index

/-- An unsigned property, zero where there is none. -/
def naturalProperty (session : Session) (handle : Handle) (key : Nat) (index : UInt64) : Nat :=
  ((session.rawProperty? handle key index).bind PropertyValue.natural?).getD 0

/-- A signed property, zero where there is none. -/
def integerProperty (session : Session) (handle : Handle) (key : Nat) (index : UInt64) : Int :=
  ((session.rawProperty? handle key index).bind PropertyValue.integer?).getD 0

/-- A floating-point property, zero where there is none. -/
def realProperty (session : Session) (handle : Handle) (key : Nat) (index : UInt64) : Float :=
  ((session.rawProperty? handle key index).bind PropertyValue.real?).getD 0.0

/-- A property that is a text. -/
def textProperty? (session : Session) (handle : Handle) (key : Nat) (index : UInt64) :
    Option String :=
  (session.rawProperty? handle key index).bind PropertyValue.text?

/-- A property that is a handle. -/
def handleProperty? (session : Session) (handle : Handle) (key : Nat) (index : UInt64) :
    Option Handle :=
  (session.rawProperty? handle key index).bind PropertyValue.handle?

end Properties

end TimelineStore.Session
