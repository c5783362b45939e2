import TimelineStore.Proofs.Session.Targets
import TimelineStore.Session.Query

/-!
# Traces are isolated

Whatever can be seen of a trace depends on what the session holds of it, and on whether a
worker is on it.  Calls leave both alone but for the trace that they operate on.  A worker
remains on the trace on which its operation was scheduled, also if that trace is deleted, or
the database that was read is closed or bound to another trace meanwhile.

**Results.**
* `Session.agrees_after`, `Session.agrees_afterAll`: what calls leave alone.
* `Session.isolates_traces`: isolation, of calls, of runs and of workers.
-/

namespace TimelineStore

/-- The trace on which a handle names something. -/
def Handle.trace? : Handle → Option TraceId
  | .trace id => some id
  | .track handle => some handle.trace
  | .slice handle => some handle.trace
  | .detail handle => some handle.trace
  | .database _ => none
  | .future _ => none

namespace Session

variable {session next : Session} {config : Config}

/-- A trace is the same in both sessions: its tracks with their chunks and the ones that they
acquired last, its texts, its detail and what it is bound to; it is listed and alive in both or
in neither, and handles on it find the same. -/
structure Agrees (session next : Session) (id : TraceId) : Prop where
  held : next.traces.get? id.index = session.traces.get? id.index
  live : next.liveTrace? id = session.liveTrace? id
  told : ∀ (handle : Handle) (key : PropertyKey) (index : UInt64), handle.trace? = some id →
    next.property? handle key index = session.property? handle key index

section Agrees

variable {id : TraceId}

/-- What handles on a trace find depends on the trace alone. -/
theorem property?_of_held
    {handle : Handle}
    (hheld : next.traces.get? id.index = session.traces.get? id.index)
    (hhandle : handle.trace? = some id)
    (key : PropertyKey) (index : UInt64) :
    next.property? handle key index = session.property? handle key index := by
  have htrace : next.trace id = session.trace id := by rw [Session.trace, hheld]; rfl
  have htrack (handle : TrackHandle) (hon : handle.trace = id) :
      next.track handle = session.track handle := by
    simp only [track, hon, htrace]
  cases handle with
  | trace named =>
      cases hhandle
      cases key <;> simp only [property?, htrace]
  | track named => cases key <;> simp only [property?, htrack named (Option.some.inj hhandle)]
  | slice named =>
      have hslice := htrack named.trackHandle (Option.some.inj hhandle)
      cases key <;> simp only [property?, slice, hslice]
  | detail named =>
      have hdetail : next.detail named = session.detail named := by
        simp only [detail, Option.some.inj hhandle, htrace]
      cases key <;> simp only [property?, hdetail]
  | database named => cases hhandle
  | future named => cases hhandle

theorem Agrees.refl
    (session : Session) (id : TraceId) :
    session.Agrees session id :=
  ⟨rfl, rfl, fun _ _ _ _ => rfl⟩

theorem Agrees.trans
    {later : Session}
    (hfirst : session.Agrees next id)
    (hsecond : next.Agrees later id) :
    session.Agrees later id :=
  ⟨hsecond.held.trans hfirst.held, hsecond.live.trans hfirst.live, fun handle key index hhandle =>
    (hsecond.told handle key index hhandle).trans (hfirst.told handle key index hhandle)⟩

end Agrees

section Calls

variable {id : TraceId} {held : HeldTrace} {call : Call}

/-- A trace is held as it was by a call that does not operate on it. -/
theorem held_after
    (hreach : Reachable config session)
    (hheld : session.traces.get? id.index = some held)
    (hother : call.target? session ≠ some id) :
    (session.after call).traces.get? id.index = some held := by
  obtain ⟨after, acts, hhandled⟩ :=
    exists_handled (numbered_of_reachable hreach) (atWork_of_reachable hreach) hheld call
  have hnone : acts = [] := List.eq_nil_iff_forall_not_mem.2 fun act hact =>
    hother (hhandled.does act hact).1
  have hlisted : after.listed = held.listed := by
    rcases hhandled.listed with hsame | rfl
    · exact hsame
    · exact absurd rfl hother
  have htrace : after.trace = held.trace := by
    have hundergoes := hhandled.undergoes
    rw [hnone] at hundergoes
    exact hundergoes.eq_of_nil
  have hsame : after = held := by
    obtain ⟨trace, listed⟩ := after
    obtain rfl : trace = held.trace := htrace
    obtain rfl : listed = held.listed := hlisted
    rfl
  rw [hhandled.holds, hsame]

/-- A trace is as alive as it was after a call that does not operate on it. -/
theorem liveTrace?_after
    (hreach : Reachable config session)
    (hheld : session.traces.get? id.index = some held)
    (hother : call.target? session ≠ some id) :
    (session.after call).liveTrace? id = session.liveTrace? id := by
  have hnumbered := numbered_of_reachable hreach
  have hafter := held_after hreach hheld hother
  ext trace
  constructor
  · intro hlive
    rcases session.after_cases call with hsame | hleads
    · rwa [hsame] at hlive
    have hbefore := hleads.live hnumbered (atWork_of_reachable hreach) hheld hlive
    obtain ⟨_, hsame, -⟩ := liveTrace?_eq_some_iff.1 hlive
    cases hsame.symm.trans hafter
    exact hbefore
  · intro hlive
    obtain ⟨listed, hsame, hreason⟩ := liveTrace?_eq_some_iff.1 hlive
    cases hsame.symm.trans hheld
    refine liveTrace?_eq_some_iff.2 ⟨listed, hafter, hreason.imp_right fun hworked => ?_⟩
    obtain ⟨future, job, hjob, rfl⟩ := isWorkedOn_iff.1 hworked
    -- a worker on the trace makes no turn, since that would operate on the trace
    have hcall : call ≠ .turn future := by
      rintro rfl
      exact hother (congrArg (Option.map Job.trace) hjob)
    exact isWorkedOn_iff.2 ⟨future, job, job?_after hnumbered hcall hjob, rfl⟩

/-- **A call leaves alone every trace that it does not operate on.** -/
theorem agrees_after
    (hreach : Reachable config session)
    (hheld : session.traces.get? id.index = some held)
    (hother : call.target? session ≠ some id) :
    session.Agrees (session.after call) id := by
  have hsame : (session.after call).traces.get? id.index = session.traces.get? id.index :=
    (held_after hreach hheld hother).trans hheld.symm
  exact ⟨hsame, liveTrace?_after hreach hheld hother, fun _ key index hhandle =>
    property?_of_held hsame hhandle key index⟩

/-- No call of a run operates on the trace. -/
def Spares (id : TraceId) : Session → List Call → Prop
  | _, [] => True
  | session, call :: calls =>
    call.target? session ≠ some id ∧ Spares id (session.after call) calls

theorem reachable_after
    (hreach : Reachable config session) (call : Call) :
    Reachable config (session.after call) :=
  reachable_afterAll hreach [call]

theorem agrees_afterAll
    {calls : List Call}
    (hreach : Reachable config session)
    (hheld : session.traces.get? id.index = some held)
    (hspares : Spares id session calls) :
    session.Agrees (session.afterAll calls) id := by
  induction calls generalizing session with
  | nil => exact .refl session id
  | cons call calls ih =>
      obtain ⟨hother, hrest⟩ := hspares
      exact (agrees_after hreach hheld hother).trans
        (ih (reachable_after hreach call) (held_after hreach hheld hother) hrest)

theorem stays_held_afterAll
    (hreach : Reachable config session)
    (hheld : session.traces.get? id.index = some held)
    (calls : List Call) :
    ∃ after, (session.afterAll calls).traces.get? id.index = some after := by
  induction calls generalizing session held with
  | nil => exact ⟨held, hheld⟩
  | cons call calls ih =>
      obtain ⟨after, acts, hhandled⟩ :=
        exists_handled (numbered_of_reachable hreach) (atWork_of_reachable hreach) hheld call
      exact ih (reachable_after hreach call) hhandled.holds

/-- As long as there are enough words, no trace that is there after a run of calls goes by the
word of another that was there before. -/
theorem eq_of_word_afterAll
    {calls : List Call} {other : TraceId} {later : HeldTrace}
    (hreach : Reachable config session)
    (hheld : session.traces.get? id.index = some held)
    (hfits : (session.afterAll calls).traces.Fits)
    (hlater : (session.afterAll calls).traces.get? other.index = some later)
    (hword : UInt32.ofNat other.index = UInt32.ofNat id.index) :
    other = id := by
  obtain ⟨after, hafter⟩ := stays_held_afterAll hreach hheld calls
  exact congrArg TraceId.mk ((hfits.word_inj hlater hafter).1 hword)

end Calls

section Workers

variable {database : DatabaseId} {future : FutureId}

/-- A call that schedules an operation for a database on a future leads to the session. -/
inductive Schedules (session : Session) (database : DatabaseId) (future : FutureId)
    (next : Session) : Prop
  | metadata (hschedule : session.scheduleMetadata database future = .ok next)
  | read (request : Request) (hschedule : session.scheduleRead database request future = .ok next)
  | detail (kind : DetailKind) (event : EventId)
      (hschedule : session.scheduleDetail database kind event future = .ok next)

theorem Schedules.leads
    (hschedules : session.Schedules database future next) :
    Leads session next := by
  cases hschedules with
  | metadata hschedule => exact .scheduleMetadata hschedule
  | read request hschedule => exact .scheduleRead hschedule
  | detail kind event hschedule => exact .scheduleDetail hschedule

/-- An operation is scheduled on the trace that the database serves. -/
theorem Schedules.exists_job
    (hnumbered : session.Numbered)
    (hschedules : session.Schedules database future next) :
    ∃ job, next.job? future = some job ∧ session.served? database = some job.trace := by
  have hmade {make : Source → TraceId → Job}
      (hon : ∀ source trace, (make source trace).trace = trace)
      (hschedule : session.schedule database future make = .ok next) :
      ∃ job, next.job? future = some job ∧ session.served? database = some job.trace := by
    obtain ⟨attached, trace, hattached, hserved, hjob, -⟩ := job?_of_schedule hnumbered hschedule
    refine ⟨_, hjob, ?_⟩
    rw [hon]
    exact served?_of_servedTrace hattached hserved
  cases hschedules with
  | metadata hschedule => exact hmade (fun _ _ => rfl) hschedule
  | read request hschedule => exact hmade (fun _ _ => rfl) hschedule
  | detail kind event hschedule => exact hmade (fun _ _ => rfl) hschedule

/-- A worker remains on its trace as long as it is on its job, whatever is called. -/
theorem job_on_trace_afterAll
    {job : Job} {calls : List Call}
    (hreach : Reachable config session)
    (hjob : session.job? future = some job)
    (hworks : ∀ earlier, earlier <+: calls →
      ((session.afterAll earlier).job? future).isSome = true) :
    ∃ rest, (session.afterAll calls).job? future = some rest ∧ rest.trace = job.trace := by
  induction calls generalizing session job with
  | nil => exact ⟨job, hjob, rfl⟩
  | cons call calls ih =>
      obtain ⟨rest, hrest⟩ := Option.isSome_iff_exists.1 (hworks [call] (by simp))
      have htrace : rest.trace = job.trace :=
        trace_of_job?_after (numbered_of_reachable hreach) call hjob hrest
      rw [← htrace]
      refine ih (reachable_after hreach call) hrest fun earlier hearlier => ?_
      exact hworks (call :: earlier) (List.cons_prefix_cons.2 ⟨rfl, hearlier⟩)

/-- **Sessions isolate traces.**  A call leaves alone every trace that it does not operate on,
and so does a run of calls of which none operates on the trace.  An operation is scheduled on
the trace that the database serves at that time; whatever is called thereafter, the worker is
on that trace as long as it is on the operation, and a turn of it leaves all others alone.  As
long as the traces that were created fit into words, none of them takes the word of another. -/
theorem isolates_traces
    (hreach : Reachable config session) :
    (∀ call id held, session.traces.get? id.index = some held →
      Call.target? session call ≠ some id → session.Agrees (session.after call) id) ∧
    (∀ calls id held, session.traces.get? id.index = some held → Spares id session calls →
      session.Agrees (session.afterAll calls) id) ∧
    (∀ database future next, session.Schedules database future next →
      ∃ id, session.served? database = some id ∧
        ∀ calls, (∀ earlier, earlier <+: calls →
          ((next.afterAll earlier).job? future).isSome = true) →
            (∃ job, (next.afterAll calls).job? future = some job ∧ job.trace = id) ∧
            ∀ other held, other ≠ id →
              (next.afterAll calls).traces.get? other.index = some held →
                (next.afterAll calls).Agrees ((next.afterAll calls).turn future) other) ∧
    (∀ calls (id other : TraceId) held later, session.traces.get? id.index = some held →
      (session.afterAll calls).traces.Fits →
        (session.afterAll calls).traces.get? other.index = some later →
          UInt32.ofNat other.index = UInt32.ofNat id.index → other = id) := by
  refine ⟨?_, ?_, ?_, fun _ _ _ _ _ => eq_of_word_afterAll hreach⟩
  · intro call id held hheld hother
    exact agrees_after hreach hheld hother
  · intro calls id held hheld hspares
    exact agrees_afterAll hreach hheld hspares
  · intro database future next hschedules
    obtain ⟨job, hjob, hserved⟩ := hschedules.exists_job (numbered_of_reachable hreach)
    refine ⟨job.trace, hserved, fun calls hworks => ?_⟩
    have hnext := hreach.step hschedules.leads
    obtain ⟨rest, hrest, htrace⟩ := job_on_trace_afterAll hnext hjob hworks
    refine ⟨⟨rest, hrest, htrace⟩, fun other held hother hheld => ?_⟩
    have htarget : (Call.turn future).target? (next.afterAll calls) ≠ some other := by
      intro hsame
      obtain ⟨_, hfound, hon⟩ := Option.map_eq_some_iff.1 hsame
      cases hrest.symm.trans hfound
      exact hother (hon.symm.trans htrace)
    exact agrees_after (reachable_afterAll hnext calls) hheld htarget

end Workers

section Example

/-- The trace that a worker is on is deleted, another one is created, and the database that
the worker reads is closed. -/
def abandonment : List Call :=
  [.deleteTrace ⟨0⟩, .createTrace, .close ⟨0⟩]

/-- The worker goes on with the deleted trace and leaves the other one alone. -/
theorem isolates_traces_abandoned :
    (∃ job, (busy.afterAll abandonment).job? ⟨0⟩ = some job ∧ job.trace = ⟨0⟩) ∧
      (busy.afterAll abandonment).Agrees ((busy.afterAll abandonment).turn ⟨0⟩) ⟨1⟩ := by
  obtain ⟨-, -, hworker, -⟩ := isolates_traces reachable_ready
  have hserved : ready.served? ⟨0⟩ = some ⟨0⟩ := rfl
  obtain ⟨id, hid, hstays⟩ := hworker ⟨0⟩ ⟨0⟩ busy (.read both rfl)
  cases hserved.symm.trans hid
  have hworks : ∀ earlier, earlier <+: abandonment →
      ((busy.afterAll earlier).job? ⟨0⟩).isSome = true := by
    intro earlier hearlier
    simp only [abandonment, List.prefix_cons_iff, List.prefix_nil] at hearlier
    rcases hearlier with rfl | ⟨_, rfl, rfl | ⟨_, rfl, rfl | ⟨_, rfl, rfl⟩⟩⟩ <;> rfl
  obtain ⟨hjob, hothers⟩ := hstays abandonment hworks
  exact ⟨hjob, hothers ⟨1⟩ ⟨.fresh ⟨1⟩, true⟩ (by decide) rfl⟩

end Example

end Session

end TimelineStore
