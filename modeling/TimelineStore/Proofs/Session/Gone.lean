import TimelineStore.Proofs.Session.Isolation
import TimelineStore.Proofs.Session.Occurrences

/-!
# What is gone

A trace that was deleted, a database that was closed and a future that was given up are gone,
and remain so whatever happens in the session.  Every use of the surface looks up what it names
before it does anything, so that a use that names something gone is denied: it fails with an
invalid parameter or finds nothing, and the session remains what it was.  To name a track, a
slice or detail is to name the trace that it is on.

**Results.**
* `Session.Gone.uponAll`: what is gone remains so.
* `Session.denies_of_gone`, `Session.denied_of_gone`: what names something gone is denied.
-/

namespace TimelineStore

/-- What a handle cannot outlive: the trace that it is on, or else what it names. -/
def Handle.root (handle : Handle) : Handle :=
  match handle.trace? with
  | some id => .trace id
  | none => handle

namespace Session

section Gone

variable {session : Session} {handle : Handle}

/-- What the identifier named was given up.  A deleted trace may be held for a worker, but is
not listed. -/
def Gone (session : Session) : Handle → Prop
  | .trace id => ∃ held, session.traces.get? id.index = some held ∧ held.listed = false
  | .database id => session.databases.Vacant id.index
  | .future id => session.futures.Vacant id.index
  | _ => False

/-- A call that succeeds gives up what an identifier names. -/
inductive GivesUp (session : Session) : Call → Handle → Prop
  | deleteTrace {id : TraceId} {next : Session} (hdelete : session.deleteTrace id = .ok next) :
      GivesUp session (.deleteTrace id) (.trace id)
  | close {id : DatabaseId} {next : Session} (hclose : session.close id = .ok next) :
      GivesUp session (.close id) (.database id)
  | free {id : FutureId} {next : Session} (hfree : session.free id = .ok next) :
      GivesUp session (.free id) (.future id)

theorem GivesUp.gone
    {call : Call}
    (hgives : session.GivesUp call handle) :
    (session.after call).Gone handle := by
  cases hgives with
  | @deleteTrace id next hdelete =>
      rw [after, hdelete]
      obtain ⟨trace, htrace, rfl⟩ := exists_of_deleteTrace hdelete
      refine ⟨⟨trace.evictAll, false⟩, ?_, rfl⟩
      have hslot := session.traces.get?_modify id.index id.index fun _ => ⟨trace.evictAll, false⟩
      rw [if_pos rfl, trace_eq_ok_iff.1 htrace] at hslot
      exact hslot
  | @close id next hclose =>
      rw [after, hclose]
      obtain ⟨attached, hattached, -⟩ := Outcome.bind_eq_ok_iff.1 hclose
      rw [eq_of_close hclose]
      exact Arena.vacant_erase (database_eq_ok_iff.1 hattached)
  | @free id next hfree =>
      rw [after, hfree]
      obtain ⟨future, hfuture, -⟩ := Outcome.bind_eq_ok_iff.1 hfree
      rw [eq_of_free hfree]
      exact Arena.vacant_erase (future_eq_ok_iff.1 hfuture)

theorem Gone.upon
    (horderly : session.Orderly)
    (hgone : session.Gone handle)
    (occurrence : Occurrence) :
    (session.upon occurrence).Gone handle := by
  cases handle with
  | trace id =>
      obtain ⟨held, hheld, hunlisted⟩ := hgone
      obtain ⟨after, hkeeps⟩ := exists_keeps horderly hheld occurrence
      exact ⟨after, hkeeps.holds, hkeeps.unlisted hunlisted⟩
  | database id => exact databases_vacant_upon hgone occurrence
  | future id => exact futures_vacant_upon hgone occurrence
  | _ => exact hgone.elim

/-- **What is gone remains gone**, whatever happens. -/
theorem Gone.uponAll
    (horderly : session.Orderly)
    (hgone : session.Gone handle)
    (run : List Occurrence) :
    (session.uponAll run).Gone handle := by
  induction run generalizing session with
  | nil => exact hgone
  | cons occurrence run ih => exact ih (horderly.upon occurrence) (hgone.upon horderly occurrence)

theorem trace_of_gone
    {id : TraceId}
    (hgone : session.Gone (.trace id)) :
    session.trace id = .error (unknown id) := by
  obtain ⟨held, hheld, hunlisted⟩ := hgone
  simp [Session.trace, hheld, hunlisted]

theorem database_of_gone
    {id : DatabaseId}
    (hgone : session.Gone (.database id)) :
    session.database id = .error (unknown id) := by
  rw [database, hgone.2]

theorem future_of_gone
    {id : FutureId}
    (hgone : session.Gone (.future id)) :
    session.future id = .error (unknown id) := by
  rw [future, hgone.2]

end Gone

section Uses

/-- The identifiers that a call names. -/
def Call.named : Call → List Handle
  | .attach _ => []
  | .close id => [.database id]
  | .createTrace => []
  | .deleteTrace id => [.trace id]
  | .bind database id => [.database database, .trace id]
  | .readMetadata id => [.database id]
  | .read id _ _ => [.database id]
  | .draftWindow id _ => [.database id]
  | .draftTrack id _ => [.database id]
  | .readDraft id _ => [.database id]
  | .allocate _ => []
  | .free id => [.future id]
  | .interrupt id => [.future id]
  | .wait id _ => [.future id]
  | .scheduleMetadata database future => [.database database, .future future]
  | .scheduleRead database _ future => [.database database, .future future]
  | .scheduleDetail database _ _ future => [.database database, .future future]
  | .turn _ => []
  | .evictAt id _ => [.trace id]
  | .evictWindow id _ => [.trace id]
  | .evictAll id => [.trace id]
  | .evictDetail id _ _ => [.trace id]
  | .evictDetails id _ => [.trace id]

/-- A use of the surface of a session: a call, a call of the raw surface that is not one of
these, or a question. -/
inductive Use where
  | call (call : Call)
  | scheduleReadRaw (database : DatabaseId) (window : Window) (tracks : List TrackId)
      (future : FutureId)
  | scheduleDetailRaw (database : DatabaseId) (kind : Nat) (word : UInt64) (future : FutureId)
  | evictDetailRaw (id : TraceId) (kind : Nat) (word : UInt64)
  | evictDetailsRaw (id : TraceId) (kind : Nat)
  | waitRaw (id : FutureId) (seconds : UInt64)
  | footprint (id : DatabaseId)
  | stateOf (id : FutureId)
  | trackAt (id : TraceId) (index : Nat)
  | namesOf (handle : TrackHandle)
  | lastChunk (handle : TrackHandle)
  | chunk (handle : SliceHandle)
  | aggregate (id : TraceId) (tracks : List TrackId)
  | grid (id : TraceId)
  | plan (id : TraceId) (shape : Shape)
  | property (handle : Handle) (key : PropertyKey) (index : UInt64)
  | rawProperty (handle : Handle) (key : Nat) (index : UInt64)

/-- The identifiers that a use names, itself or by a handle of what is on a trace. -/
def Use.named : Use → List Handle
  | .call asked => asked.named
  | .scheduleReadRaw database _ _ future => [.database database, .future future]
  | .scheduleDetailRaw database _ _ future => [.database database, .future future]
  | .evictDetailRaw id _ _ => [.trace id]
  | .evictDetailsRaw id _ => [.trace id]
  | .waitRaw id _ => [.future id]
  | .footprint id => [.database id]
  | .stateOf id => [.future id]
  | .trackAt id _ => [.trace id]
  | .namesOf handle => [.trace handle.trace]
  | .lastChunk handle => [.trace handle.trace]
  | .chunk handle => [.trace handle.trace]
  | .aggregate id _ => [.trace id]
  | .grid id => [.trace id]
  | .plan id _ => [.trace id]
  | .property handle _ _ => [handle.root]
  | .rawProperty handle _ _ => [handle.root]

/-- The call failed with an invalid parameter before anything was heard or changed. -/
def Refused {α : Type} (session : Session) (told : Told (Except Failure α)) : Prop :=
  ∃ failure : Failure, told = session.refused failure ∧ failure.code = .invalidParameter

/-- A call is denied: it fails with an invalid parameter, or interrupts nothing, and the
session remains what it was. -/
def Denies (session : Session) : Call → Prop
  | .attach _ => False
  | .close id => session.coded (session.close id) = (.invalidParameter, session)
  | .createTrace => False
  | .deleteTrace id => session.coded (session.deleteTrace id) = (.invalidParameter, session)
  | .bind database id => session.coded (session.bind database id) = (.invalidParameter, session)
  | .readMetadata id => session.Refused (session.readMetadata id)
  | .read id request mode => session.Refused (session.read id request mode)
  | .draftWindow id window =>
    session.coded (session.draftWindow id window) = (.invalidParameter, session)
  | .draftTrack id track =>
    session.coded (session.draftTrack id track) = (.invalidParameter, session)
  | .readDraft id mode => session.Refused (session.readDraft id mode)
  | .allocate _ => False
  | .free id => session.coded (session.free id) = (.invalidParameter, session)
  | .interrupt id => session.interrupt id = (false, session)
  | .wait id seconds => session.Refused (session.wait id seconds)
  | .scheduleMetadata database future =>
    session.coded (session.scheduleMetadata database future) = (.invalidParameter, session)
  | .scheduleRead database request future =>
    session.coded (session.scheduleRead database request future) = (.invalidParameter, session)
  | .scheduleDetail database kind event future =>
    session.coded (session.scheduleDetail database kind event future) =
      (.invalidParameter, session)
  | .turn _ => False
  | .evictAt id start =>
    session.codedCount (session.evictAt id start) = (.invalidParameter, session)
  | .evictWindow id window =>
    session.codedCount (session.evictWindow id window) = (.invalidParameter, session)
  | .evictAll id => session.codedCount (session.evictAll id) = (.invalidParameter, session)
  | .evictDetail id kind event =>
    session.codedCount (session.evictDetail id kind event) = (.invalidParameter, session)
  | .evictDetails id kind =>
    session.codedCount (session.evictDetails id kind) = (.invalidParameter, session)

/-- A use is denied: it fails with an invalid parameter and leaves the session as it was, or
it finds nothing. -/
def Denied (session : Session) : Use → Prop
  | .call call => session.Denies call
  | .scheduleReadRaw database window tracks future =>
    session.scheduleReadRaw database window tracks future = (.invalidParameter, session)
  | .scheduleDetailRaw database kind word future =>
    session.scheduleDetailRaw database kind word future = (.invalidParameter, session)
  | .evictDetailRaw id kind word =>
    session.evictDetailRaw id kind word = (.invalidParameter, session)
  | .evictDetailsRaw id kind => session.evictDetailsRaw id kind = (.invalidParameter, session)
  | .waitRaw id seconds => session.waitRaw id seconds = ⟨[], .invalidParameter, session⟩
  | .footprint id => session.footprint id = 0
  | .stateOf id => session.stateOf? id = none
  | .trackAt id index => session.trackAt? id index = none
  | .namesOf handle => session.namesOf? handle = none
  | .lastChunk handle => session.lastChunk? handle = none
  | .chunk handle => session.chunk? handle = none
  | .aggregate id tracks => session.aggregate? id tracks = none
  | .grid id => Code.ofResult (session.grid id) = .invalidParameter
  | .plan id shape => session.plan id shape = []
  | .property handle key index => session.property? handle key index = none
  | .rawProperty handle key index =>
    session.naturalProperty handle key index = 0 ∧
      session.integerProperty handle key index = 0 ∧
      session.realProperty handle key index = 0.0 ∧
      session.textProperty? handle key index = none ∧
      session.handleProperty? handle key index = none

end Uses

section Rejected

variable {session : Session} {α β : Type} {outcome : Except Failure α}

/-- The outcome is an invalid parameter. -/
def Rejected (outcome : Except Failure α) : Prop :=
  Code.ofResult outcome = .invalidParameter

theorem exists_of_rejected
    (hrejected : Rejected outcome) :
    ∃ failure, outcome = .error failure ∧ failure.code = .invalidParameter := by
  cases outcome with
  | error failure => exact ⟨failure, rfl, hrejected⟩
  | ok value => cases hrejected

/-- What goes on from an invalid parameter is one. -/
theorem Rejected.bind
    (hrejected : Rejected outcome) (next : α → Except Failure β) :
    Rejected (outcome >>= next) := by
  obtain ⟨failure, rfl, hcode⟩ := exists_of_rejected hrejected
  exact hcode

/-- What goes on after a step that fails with an invalid parameter only, if at all. -/
theorem rejected_bind
    {next : α → Except Failure β}
    (hfailed : ∀ failure, outcome = .error failure → failure.code = .invalidParameter)
    (hnext : ∀ value, Rejected (next value)) :
    Rejected (outcome >>= next) := by
  cases outcome with
  | error failure => exact hfailed failure rfl
  | ok value => exact hnext value

theorem Rejected.toOption_eq_none
    (hrejected : Rejected outcome) :
    outcome.toOption = none := by
  obtain ⟨failure, rfl, -⟩ := exists_of_rejected hrejected
  rfl

theorem coded_of_rejected
    {outcome : Except Failure Session}
    (hrejected : Rejected outcome) :
    session.coded outcome = (.invalidParameter, session) := by
  obtain ⟨failure, rfl, hcode⟩ := exists_of_rejected hrejected
  rw [coded, hcode]

theorem codedCount_of_rejected
    {outcome : Except Failure (α × Session)}
    (hrejected : Rejected outcome) :
    session.codedCount outcome = (.invalidParameter, session) := by
  obtain ⟨failure, rfl, hcode⟩ := exists_of_rejected hrejected
  exact Prod.ext hcode rfl

theorem code_of_database_eq_error
    {id : DatabaseId} {failure : Failure}
    (hfailed : session.database id = .error failure) :
    failure.code = .invalidParameter := by
  unfold database at hfailed
  split at hfailed <;> cases hfailed
  rfl

theorem code_of_kindOfNumber_eq_error
    {number : Nat} {failure : Failure}
    (hfailed : kindOfNumber number = .error failure) :
    failure.code = .invalidParameter := by
  unfold kindOfNumber at hfailed
  split at hfailed <;> cases hfailed
  rfl

theorem code_of_eventOfWord_eq_error
    {word : UInt64} {failure : Failure}
    (hfailed : eventOfWord word = .error failure) :
    failure.code = .invalidParameter := by
  unfold eventOfWord at hfailed
  split at hfailed <;> cases hfailed
  rfl

end Rejected

section Denied

variable {session : Session}

section Traces

variable {id : TraceId} (hgone : session.Gone (.trace id))
include hgone

theorem rejected_trace : Rejected (session.trace id) := by
  rw [trace_of_gone hgone]
  rfl

theorem rejected_evicting
    {α : Type} (count : Trace → α) (change : Trace → Trace) :
    Rejected (session.evicting id count change) :=
  (rejected_trace hgone).bind _

theorem rejected_bind_trace
    (database : DatabaseId) :
    Rejected (session.bind database id) := by
  rw [bind_eq]
  exact rejected_bind (fun _ => code_of_database_eq_error) fun _ => (rejected_trace hgone).bind _

theorem rejected_track
    (track : TrackId) :
    Rejected (session.track ⟨id, track⟩) :=
  (rejected_trace hgone).bind _

theorem rejected_slice
    (track : TrackId) (start : Timestamp) :
    Rejected (session.slice ⟨id, track, start⟩) :=
  (rejected_track hgone track).bind _

theorem rejected_detail
    (kind : DetailKind) (event : EventId) :
    Rejected (session.detail ⟨id, kind, event⟩) :=
  (rejected_trace hgone).bind _

theorem rejected_grid : Rejected (session.grid id) :=
  (rejected_trace hgone).bind _

end Traces

section Databases

variable {id : DatabaseId} (hgone : session.Gone (.database id))
include hgone

theorem rejected_database : Rejected (session.database id) := by
  rw [database_of_gone hgone]
  rfl

theorem refused_reading
    {α : Type} (text : α → String) (read : Source → Trace → Reading α) :
    session.Refused (session.reading id text read) :=
  ⟨unknown id, by rw [reading, database_of_gone hgone], rfl⟩

theorem refused_readMetadata : session.Refused (session.readMetadata id) := by
  obtain ⟨failure, hreading, hcode⟩ :=
    refused_reading hgone (fun message : String => message) Source.loadMetadata
  exact ⟨failure, by rw [readMetadata, hreading]; rfl, hcode⟩

theorem refused_readDraft
    (mode : ReadMode) :
    session.Refused (session.readDraft id mode) :=
  ⟨unknown id, by rw [readDraft, database_of_gone hgone], rfl⟩

end Databases

/-- Nothing is scheduled for a database or on a future that is gone. -/
theorem rejected_schedule
    {handle : Handle} {database : DatabaseId} {future : FutureId}
    (hgone : session.Gone handle)
    (hnamed : handle ∈ [Handle.database database, .future future])
    (make : Source → TraceId → Job) :
    Rejected (session.schedule database future make) := by
  rcases List.mem_pair.1 hnamed with rfl | rfl
  · exact (rejected_database hgone).bind _
  · refine rejected_bind (fun _ => code_of_database_eq_error) fun _ => ?_
    rw [future_of_gone hgone]
    rfl

/-- **A call that names something gone is denied.** -/
theorem denies_of_gone
    {handle : Handle} {call : Call}
    (hgone : session.Gone handle)
    (hnamed : handle ∈ call.named) :
    session.Denies call := by
  have hschedule {database : DatabaseId} {future : FutureId} (make : Source → TraceId → Job)
      (hnamed : handle ∈ [Handle.database database, .future future]) :
      session.coded (session.schedule database future make) = (.invalidParameter, session) :=
    coded_of_rejected (rejected_schedule hgone hnamed make)
  cases call with
  | attach source => cases hnamed
  | createTrace => cases hnamed
  | allocate listens => cases hnamed
  | turn id => cases hnamed
  | close id =>
      obtain rfl := List.mem_singleton.1 hnamed
      exact coded_of_rejected ((rejected_database hgone).bind _)
  | deleteTrace id =>
      obtain rfl := List.mem_singleton.1 hnamed
      exact coded_of_rejected ((rejected_trace hgone).bind _)
  | bind database id =>
      rcases List.mem_pair.1 hnamed with rfl | rfl
      · rw [Denies, bind_eq]
        exact coded_of_rejected ((rejected_database hgone).bind _)
      · exact coded_of_rejected (rejected_bind_trace hgone database)
  | readMetadata id =>
      obtain rfl := List.mem_singleton.1 hnamed
      exact refused_readMetadata hgone
  | read id request mode =>
      obtain rfl := List.mem_singleton.1 hnamed
      exact refused_reading hgone _ _
  | draftWindow id window =>
      obtain rfl := List.mem_singleton.1 hnamed
      exact coded_of_rejected ((rejected_database hgone).bind _)
  | draftTrack id track =>
      obtain rfl := List.mem_singleton.1 hnamed
      exact coded_of_rejected ((rejected_database hgone).bind _)
  | readDraft id mode =>
      obtain rfl := List.mem_singleton.1 hnamed
      exact refused_readDraft hgone mode
  | free id =>
      obtain rfl := List.mem_singleton.1 hnamed
      refine coded_of_rejected ?_
      rw [Session.free, future_of_gone hgone]
      rfl
  | interrupt id =>
      obtain rfl := List.mem_singleton.1 hnamed
      rw [Denies, Session.interrupt, future_of_gone hgone]
  | wait id seconds =>
      obtain rfl := List.mem_singleton.1 hnamed
      exact ⟨unknown id, by rw [Session.wait, future_of_gone hgone], rfl⟩
  | scheduleMetadata database future => exact hschedule _ hnamed
  | scheduleRead database request future => exact hschedule _ hnamed
  | scheduleDetail database kind event future => exact hschedule _ hnamed
  | evictAt id start =>
      obtain rfl := List.mem_singleton.1 hnamed
      exact codedCount_of_rejected (rejected_evicting hgone _ _)
  | evictWindow id window =>
      obtain rfl := List.mem_singleton.1 hnamed
      exact codedCount_of_rejected (rejected_evicting hgone _ _)
  | evictAll id =>
      obtain rfl := List.mem_singleton.1 hnamed
      exact codedCount_of_rejected (rejected_evicting hgone _ _)
  | evictDetail id kind event =>
      obtain rfl := List.mem_singleton.1 hnamed
      exact codedCount_of_rejected (rejected_evicting hgone _ _)
  | evictDetails id kind =>
      obtain rfl := List.mem_singleton.1 hnamed
      exact codedCount_of_rejected (rejected_evicting hgone _ _)

/-- A handle finds no property of what is gone. -/
theorem property?_of_gone
    {handle : Handle}
    (hgone : session.Gone handle.root)
    (key : PropertyKey) (index : UInt64) :
    session.property? handle key index = none := by
  cases handle with
  | trace id =>
      have hnone := (rejected_trace hgone).toOption_eq_none
      cases key <;> simp [property?, hnone]
  | track handle =>
      have hnone := (rejected_track hgone handle.track).toOption_eq_none
      cases key <;> simp [property?, hnone]
  | slice handle =>
      have hnone := (rejected_slice hgone handle.track handle.start).toOption_eq_none
      cases key <;> simp [property?, hnone]
  | detail handle =>
      have hnone := (rejected_detail hgone handle.kind handle.event).toOption_eq_none
      cases key <;> simp [property?, hnone]
  | database id => cases key <;> rfl
  | future id => cases key <;> rfl

/-- **A use that names something gone is denied.** -/
theorem denied_of_gone
    {handle : Handle} {use : Use}
    (hgone : session.Gone handle)
    (hnamed : handle ∈ use.named) :
    session.Denied use := by
  cases use with
  | call call => exact denies_of_gone hgone hnamed
  | scheduleReadRaw database window tracks future =>
      refine coded_of_rejected ?_
      cases Request.make window tracks with
      | error flaw => cases flaw <;> rfl
      | ok request => exact rejected_schedule hgone hnamed _
  | scheduleDetailRaw database kind word future =>
      refine coded_of_rejected (rejected_bind (fun _ => code_of_kindOfNumber_eq_error) fun _ => ?_)
      refine rejected_bind (fun _ => code_of_eventOfWord_eq_error) fun _ => ?_
      exact rejected_schedule hgone hnamed _
  | evictDetailRaw id kind word =>
      obtain rfl := List.mem_singleton.1 hnamed
      refine codedCount_of_rejected (rejected_bind (fun _ => code_of_kindOfNumber_eq_error) ?_)
      refine fun _ => rejected_bind (fun _ => code_of_eventOfWord_eq_error) fun _ => ?_
      exact rejected_evicting hgone _ _
  | evictDetailsRaw id kind =>
      obtain rfl := List.mem_singleton.1 hnamed
      refine codedCount_of_rejected (rejected_bind (fun _ => code_of_kindOfNumber_eq_error) ?_)
      exact fun _ => rejected_evicting hgone _ _
  | waitRaw id seconds =>
      obtain rfl := List.mem_singleton.1 hnamed
      rw [Denied, waitRaw, Session.wait, future_of_gone hgone]
      rfl
  | footprint id =>
      obtain rfl := List.mem_singleton.1 hnamed
      rw [Denied, footprint, database_of_gone hgone]
  | stateOf id =>
      obtain rfl := List.mem_singleton.1 hnamed
      rw [Denied, stateOf?, hgone.2, Option.map_none]
  | trackAt id index =>
      obtain rfl := List.mem_singleton.1 hnamed
      simp [Denied, trackAt?, (rejected_trace hgone).toOption_eq_none]
  | namesOf handle =>
      obtain rfl := List.mem_singleton.1 hnamed
      simp [Denied, namesOf?, (rejected_track hgone handle.track).toOption_eq_none]
  | lastChunk handle =>
      obtain rfl := List.mem_singleton.1 hnamed
      simp [Denied, lastChunk?, (rejected_track hgone handle.track).toOption_eq_none]
  | chunk handle =>
      obtain rfl := List.mem_singleton.1 hnamed
      simp [Denied, chunk?, (rejected_slice hgone handle.track handle.start).toOption_eq_none]
  | aggregate id tracks =>
      obtain rfl := List.mem_singleton.1 hnamed
      simp [Denied, aggregate?, (rejected_trace hgone).toOption_eq_none]
  | grid id =>
      obtain rfl := List.mem_singleton.1 hnamed
      exact rejected_grid hgone
  | plan id shape =>
      obtain rfl := List.mem_singleton.1 hnamed
      obtain ⟨failure, hfailed, -⟩ := exists_of_rejected (rejected_grid hgone)
      rw [Denied, plan, hfailed]
  | property handle key index =>
      obtain rfl := List.mem_singleton.1 hnamed
      exact property?_of_gone hgone key index
  | rawProperty handle key index =>
      obtain rfl := List.mem_singleton.1 hnamed
      have hnone : session.rawProperty? handle key index = none := by
        simp [rawProperty?, property?_of_gone hgone]
      simp [Denied, naturalProperty, integerProperty, realProperty, textProperty?,
        handleProperty?, hnone]

end Denied

end Session

end TimelineStore
