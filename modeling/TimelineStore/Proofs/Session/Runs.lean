import TimelineStore.Proofs.Session.Databases
import TimelineStore.Session.Raw

/-!
# Runs of a session

A call says what is asked of a session, or which of its workers makes a turn, and every call
leaves some session, also if it fails.  A run is a list of calls, made one after the other.

**Results.**
* `Session.after_cases`: a call that does something is a step of the session.
* `Session.reachable_afterAll`: runs lead to reachable sessions.
-/

namespace TimelineStore

namespace Session

/-- What is asked of a session, or a turn of one of its workers. -/
inductive Call where
  | attach (source : Source)
  | close (id : DatabaseId)
  | createTrace
  | deleteTrace (id : TraceId)
  | bind (database : DatabaseId) (id : TraceId)
  | readMetadata (id : DatabaseId)
  | read (id : DatabaseId) (request : Request) (mode : ReadMode)
  | draftWindow (id : DatabaseId) (window : Window)
  | draftTrack (id : DatabaseId) (track : TrackId)
  | readDraft (id : DatabaseId) (mode : ReadMode)
  | allocate (listens : Bool)
  | free (id : FutureId)
  | interrupt (id : FutureId)
  | wait (id : FutureId) (seconds : Option Nat)
  | scheduleMetadata (database : DatabaseId) (future : FutureId)
  | scheduleRead (database : DatabaseId) (request : Request) (future : FutureId)
  | scheduleDetail (database : DatabaseId) (kind : DetailKind) (event : EventId)
      (future : FutureId)
  | turn (id : FutureId)
  | evictAt (id : TraceId) (start : Timestamp)
  | evictWindow (id : TraceId) (window : Window)
  | evictAll (id : TraceId)
  | evictDetail (id : TraceId) (kind : DetailKind) (event : EventId)
  | evictDetails (id : TraceId) (kind : DetailKind)

/-- The session after a call, whether the call succeeds or fails. -/
def after (session : Session) : Call → Session
  | .attach source => (session.attach source).2
  | .close id => (session.coded (session.close id)).2
  | .createTrace => session.createTrace.2
  | .deleteTrace id => (session.coded (session.deleteTrace id)).2
  | .bind database id => (session.coded (session.bind database id)).2
  | .readMetadata id => (session.readMetadata id).session
  | .read id request mode => (session.read id request mode).session
  | .draftWindow id window => (session.coded (session.draftWindow id window)).2
  | .draftTrack id track => (session.coded (session.draftTrack id track)).2
  | .readDraft id mode => (session.readDraft id mode).session
  | .allocate listens => (session.allocate listens).2
  | .free id => (session.coded (session.free id)).2
  | .interrupt id => (session.interrupt id).2
  | .wait id seconds => (session.wait id seconds).session
  | .scheduleMetadata database future =>
    (session.coded (session.scheduleMetadata database future)).2
  | .scheduleRead database request future =>
    (session.coded (session.scheduleRead database request future)).2
  | .scheduleDetail database kind event future =>
    (session.coded (session.scheduleDetail database kind event future)).2
  | .turn id => session.turn id
  | .evictAt id start => (session.codedCount (session.evictAt id start)).2
  | .evictWindow id window => (session.codedCount (session.evictWindow id window)).2
  | .evictAll id => (session.codedCount (session.evictAll id)).2
  | .evictDetail id kind event => (session.codedCount (session.evictDetail id kind event)).2
  | .evictDetails id kind => (session.codedCount (session.evictDetails id kind)).2

/-- The session after a run of calls. -/
def afterAll (session : Session) (calls : List Call) : Session :=
  calls.foldl after session

section Steps

variable {session : Session}

@[simp] theorem afterAll_concat
    (session : Session) (calls : List Call) (call : Call) :
    session.afterAll (calls ++ [call]) = (session.afterAll calls).after call := by
  simp [afterAll]

theorem coded_cases
    {outcome : Except Failure Session}
    (hleads : ∀ next, outcome = .ok next → Leads session next) :
    (session.coded outcome).2 = session ∨ Leads session (session.coded outcome).2 := by
  cases outcome with
  | error failure => exact .inl rfl
  | ok next => exact .inr (hleads next rfl)

theorem codedCount_cases
    {α : Type} {outcome : Except Failure (α × Session)}
    (hleads : ∀ told next, outcome = .ok (told, next) → Leads session next) :
    (session.codedCount outcome).2 = session ∨ Leads session (session.codedCount outcome).2 := by
  cases outcome with
  | error failure => exact .inl rfl
  | ok told => exact .inr (hleads told.1 told.2 rfl)

/-- **A call is a step of the session, or does nothing.** -/
theorem after_cases
    (session : Session) (call : Call) :
    session.after call = session ∨ Leads session (session.after call) := by
  cases call with
  | attach source => exact .inr (.attach session source)
  | close id => exact coded_cases fun _ => .close
  | createTrace => exact .inr (.createTrace session)
  | deleteTrace id => exact coded_cases fun _ => .deleteTrace
  | bind database id => exact coded_cases fun _ => .bind
  | readMetadata id => exact .inr (.readMetadata session id)
  | read id request mode => exact .inr (.read session id request mode)
  | draftWindow id window => exact coded_cases fun _ => .draftWindow
  | draftTrack id track => exact coded_cases fun _ => .draftTrack
  | readDraft id mode => exact .inr (.readDraft session id mode)
  | allocate listens => exact .inr (.allocate session listens)
  | free id => exact coded_cases fun _ => .free
  | interrupt id => exact .inr (.interrupt session id)
  | wait id seconds => exact .inr (.wait session id seconds)
  | scheduleMetadata database future => exact coded_cases fun _ => .scheduleMetadata
  | scheduleRead database request future => exact coded_cases fun _ => .scheduleRead
  | scheduleDetail database kind event future => exact coded_cases fun _ => .scheduleDetail
  | turn id => exact .inr (.turn session id)
  | evictAt id start => exact codedCount_cases fun _ _ => .evictAt
  | evictWindow id window => exact codedCount_cases fun _ _ => .evictWindow
  | evictAll id => exact codedCount_cases fun _ _ => .evictAll
  | evictDetail id kind event => exact codedCount_cases fun _ _ => .evictDetail
  | evictDetails id kind => exact codedCount_cases fun _ _ => .evictDetails

theorem reachable_afterAll
    {config : Config}
    (hreach : Reachable config session) (calls : List Call) :
    Reachable config (session.afterAll calls) := by
  induction calls generalizing session with
  | nil => exact hreach
  | cons call calls ih =>
      rcases session.after_cases call with hsame | hleads
      · exact ih (hsame.symm ▸ hreach)
      · exact ih (hreach.step hleads)

end Steps

end Session

end TimelineStore
