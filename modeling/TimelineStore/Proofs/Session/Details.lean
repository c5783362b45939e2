import TimelineStore.Proofs.Session.Binding
import TimelineStore.Proofs.Trace.Details

/-!
# Resident detail of a session

Detail gets into a trace only by the worker of a future that was to read it, from the source
of the database that the trace is bound to, and only if the answer is of the kind that was
asked for.  So resident detail is well formed whatever sources answer.  The worker makes one
turn.  If that fails, or finds the detail resident, it leaves all traces as they were.

**Results.**
* `Session.exists_keep_of_reachable`: where the resident detail of a session comes from.
* `Session.turn_detail`: the turn of a worker that reads detail.
* `Session.resident_detail`: resident detail is well formed, and reads keep it so.
-/

namespace TimelineStore

/-- What a worker does that reads detail: it stops if it was asked to, and reads otherwise. -/
theorem Job.turn_detail
    (run : Run Job) (trace : Trace) (source : Source) (id : TraceId) (kind : DetailKind)
    (event : EventId) :
    (Job.detail source id kind event).turn run trace =
      Job.ofReading (if run.interrupted then .failed trace run.interruption
        else source.loadDetail kind event trace) := by
  cases hasked : run.interrupted <;> simp [Job.turn, hasked, Job.ofReading, Reading.failed]

namespace Session

variable {config : Config} {session next : Session}

/-- The source is that of a database, which was open earlier in a run and may be closed now. -/
structure Supplies
    (config : Config) (session : Session) (database : DatabaseId) (source : Source) : Prop where
  earlier : ∃ before attached, Reachable config before ∧
    Relation.ReflTransGen Leads before session ∧
      before.database database = .ok attached ∧ attached.source = source
  issued : database.index < session.databases.next
  now : ∀ attached, session.database database = .ok attached → attached.source = source

section Supply

variable {database : DatabaseId} {source : Source}

theorem supplies_of_database
    {attached : Attached}
    (hreach : Reachable config session)
    (hattached : session.database database = .ok attached) :
    Supplies config session database attached.source := by
  refine ⟨⟨session, attached, hreach, .refl, hattached, rfl⟩, ?_, fun other hother => ?_⟩
  · exact Arena.lt_next_of_get? (database_eq_ok_iff.1 hattached)
  · cases hother.symm.trans hattached
    rfl

theorem Supplies.step
    (hsupplies : Supplies config session database source)
    (hleads : Leads session next) :
    Supplies config next database source := by
  obtain ⟨⟨before, attached, hreach, hrun, hattached⟩, hissued, hnow⟩ := hsupplies
  refine ⟨⟨before, attached, hreach, hrun.tail hleads, hattached⟩, ?_, fun after hafter => ?_⟩
  · exact lt_of_lt_of_le hissued hleads.databases_next_le
  · rcases hleads.database_cases hafter with ⟨hnew, -⟩ | ⟨old, hold, hretains⟩
    · exact absurd hnew (Nat.ne_of_lt hissued)
    · exact hretains.source.trans (hnow old hold)

/-- Workers read the sources of the databases that their traces are bound to. -/
theorem supplies_of_job
    {id : FutureId} {job : Job}
    (hreach : Reachable config session)
    (hjob : session.job? id = some job) :
    ∃ held database, session.traces.get? job.trace.index = some held ∧
      held.trace.boundTo = some database ∧ Supplies config session database job.source := by
  induction hreach generalizing job with
  | empty => cases hjob
  | @step session next hreach hleads ih =>
      have hnumbered := numbered_of_reachable hreach
      have hcarries {number : Nat} {held : HeldTrace}
          (hheld : session.traces.get? number = some held) :=
        hleads.carries hnumbered (atWork_of_reachable hreach) hheld
      cases hleads.assigns hnumbered hjob with
      | @resumed before hbefore htrace hsource =>
          obtain ⟨held, database, hheld, hbound, hsupplies⟩ := ih hbefore
          obtain ⟨after, acts, hafter⟩ := hcarries hheld
          rw [htrace, hsource]
          exact ⟨after, database, hafter.holds, hafter.undergoes.boundTo hbound,
            hsupplies.step hleads⟩
      | @scheduled database attached trace hattached hserved htrace hsource =>
          obtain ⟨hattachedBound, -⟩ := liveTrace?_of_servedTrace hnumbered hserved
          obtain ⟨held, hheld, hbound⟩ :=
            (matched_of_reachable hreach).bound hattached hattachedBound
          obtain ⟨after, acts, hafter⟩ := hcarries hheld
          rw [htrace, hsource]
          exact ⟨after, database, hafter.holds, hafter.undergoes.boundTo hbound,
            (supplies_of_database hreach hattached).step hleads⟩

/-- Detail is kept of the answers of the database that the trace is bound to. -/
theorem exists_keep_of_reachable
    {number : Nat} {held : HeldTrace}
    (hreach : Reachable config session)
    (hheld : session.traces.get? number = some held) :
    ∃ acts, (Trace.fresh ⟨number⟩).Undergoes acts held.trace ∧
      ∀ source kind event raw, .keep source kind event raw ∈ acts →
        ∃ database, held.trace.boundTo = some database ∧
          Supplies config session database source := by
  induction hreach generalizing held with
  | empty => cases hheld
  | @step session next hreach hleads ih =>
      have hnumbered := numbered_of_reachable hreach
      rcases hleads.held_cases hnumbered (atWork_of_reachable hreach) hheld with
        ⟨-, rfl⟩ | ⟨before, later, hcarries⟩
      · exact ⟨[], .refl, by simp⟩
      obtain ⟨acts, hundergoes, hkeeps⟩ := ih hcarries.had
      refine ⟨acts ++ later, hundergoes.trans hcarries.undergoes, ?_⟩
      intro source kind event raw hact
      rcases List.mem_append.1 hact with hearlier | hlater
      · obtain ⟨database, hbound, hsupplies⟩ := hkeeps source kind event raw hearlier
        exact ⟨database, hcarries.undergoes.boundTo hbound, hsupplies.step hleads⟩
      · obtain ⟨future, hjob⟩ := hcarries.occasions _ hlater
        obtain ⟨target, database, htarget, hbound, hsupplies⟩ := supplies_of_job hreach hjob
        cases htarget.symm.trans hcarries.had
        exact ⟨database, hcarries.undergoes.boundTo hbound, hsupplies.step hleads⟩

end Supply

/-- All traces of the sessions are the same. -/
def SameTraces (session next : Session) : Prop :=
  ∀ number, next.traces.get? number = session.traces.get? number

section Turn

variable
  {id : FutureId} {future : Future Job} {run : Run Job} {source : Source} {target : TraceId}
  {kind : DetailKind} {event : EventId}

/-- The turn of a worker that reads detail ends its job as the reading ends, and puts back the
trace that the reading leaves. -/
theorem turn_detail
    {held : HeldTrace}
    (hnumbered : session.Numbered)
    (hfuture : session.futures.get? id.index = some future)
    (hrun : future.run = some run)
    (hphase : run.phase = .running (.detail source target kind event))
    (hheld : session.traces.get? target.index = some held) :
    let reading : Reading String := if run.interrupted then .failed held.trace run.interruption
      else source.loadDetail kind event held.trace
    (∃ after last, (session.turn id).futures.get? id.index = some after ∧
      after.phase? = some (.resolved (reading.result.map fun _ => ()) last)) ∧
    (session.turn id).traces = (session.putTrace reading.trace).traces := by
  intro reading
  have htarget : (Job.detail source target kind event).trace = target := rfl
  have hturn : session.turn id =
      (session.putTrace reading.trace).putFuture
        (future.take ⟨reading.steps, .finished reading.result⟩) := by
    simp only [Session.turn, hfuture, hrun, hphase, htarget, hheld, Job.turn_detail]
    rfl
  rw [hturn]
  refine ⟨?_, rfl⟩
  obtain ⟨last, hlast⟩ := (reading.steps.foldl Run.report run).phase_resolve reading.result
  refine ⟨future.take ⟨reading.steps, .finished reading.result⟩, last, ?_, ?_⟩
  · have hnumber : future.id = id := hnumbered.futures _ _ hfuture
    have hid : (future.take ⟨reading.steps, .finished reading.result⟩).id.index = id.index :=
      congrArg FutureId.index hnumber
    have hkept : (session.putTrace reading.trace).futures.get? id.index = some future := hfuture
    rw [get?_putFuture, hid, if_pos rfl, hkept]
    rfl
  · simp only [Future.phase?, Future.take, hrun, Option.map_some]
    exact congrArg some hlast

/-- A trace that is put back as it was changes nothing. -/
theorem sameTraces_of_putTrace
    {number : Nat} {held : HeldTrace}
    (hnumbered : session.Numbered)
    (hheld : session.traces.get? number = some held)
    (hnext : next.traces = (session.putTrace held.trace).traces) :
    session.SameTraces next := by
  intro other
  rw [hnext, putTrace_self hnumbered hheld]

/-- When a read of detail can be scheduled. -/
theorem exists_scheduleDetail_iff
    {database : DatabaseId} :
    (∃ next, session.scheduleDetail database kind event id = .ok next) ↔
      (∃ attached trace, session.database database = .ok attached ∧
        session.servedTrace database attached = .ok trace) ∧
      ∃ future, session.future id = .ok future ∧ future.isInFlight = false := by
  constructor
  · rintro ⟨next, hschedule⟩
    obtain ⟨attached, future, trace, after, hattached, hfuture, hserved, hafter, -⟩ :=
      exists_of_schedule hschedule
    exact ⟨⟨attached, trace, hattached, hserved⟩, future, hfuture,
      (Future.schedule_eq_ok_iff.1 hafter).1⟩
  · rintro ⟨⟨attached, trace, hattached, hserved⟩, future, hfuture, hidle⟩
    simp only [scheduleDetail, schedule, Outcome.bind_eq_ok_iff]
    exact ⟨_, attached, hattached, future, hfuture, trace, hserved, _,
      Future.schedule_eq_ok_iff.2 ⟨hidle, rfl⟩, rfl⟩

/-- A read of detail is scheduled on the trace that the database serves. -/
theorem job?_of_scheduleDetail
    {database : DatabaseId}
    (hnumbered : session.Numbered)
    (hschedule : session.scheduleDetail database kind event id = .ok next) :
    ∃ attached trace, session.database database = .ok attached ∧
      session.servedTrace database attached = .ok trace ∧
      next.job? id = some (.detail attached.source trace.id kind event) ∧
      next.traces = session.traces :=
  job?_of_schedule hnumbered hschedule

end Turn

/-- **Resident detail is well formed.**  It is of the kind under which it is kept, the kind
applies to the event, and it is what the database that the trace is bound to answered, but for
the endpoints that match no track; the others are on tracks of the trace.  A read of detail
can be scheduled just if the database serves a trace and nothing is in flight on the future, and
that changes no trace.  Its worker makes one turn: if the operation fails, no trace has changed;
if the detail is resident, no trace has changed, no source is asked, and the operation succeeds
unless it was asked to stop. -/
theorem resident_detail
    (hreach : Reachable config session) :
    (∀ id trace kind event detail, session.liveTrace? id = some trace →
      trace.detail? kind event = some detail →
        detail.kind = kind ∧ kind.appliesTo event.operation = true ∧
          ∃ database source answer, trace.boundTo = some database ∧
            Supplies config session database source ∧
              source.readDetail kind event = .ok answer ∧ trace.Keeps answer detail) ∧
    (∀ database kind event id,
      ((∃ next, session.scheduleDetail database kind event id = .ok next) ↔
        (∃ attached trace, session.database database = .ok attached ∧
          session.servedTrace database attached = .ok trace) ∧
        ∃ future, session.future id = .ok future ∧ future.isInFlight = false) ∧
      ∀ next, session.scheduleDetail database kind event id = .ok next →
        session.SameTraces next ∧
          ∃ attached trace, session.database database = .ok attached ∧
            session.servedTrace database attached = .ok trace ∧
              next.job? id = some (.detail attached.source trace.id kind event)) ∧
    (∀ id future run source target kind event, session.futures.get? id.index = some future →
      future.run = some run → run.phase = .running (.detail source target kind event) →
        ∃ after result last, (session.turn id).futures.get? id.index = some after ∧
          after.phase? = some (.resolved result last) ∧
          (∀ failure, result = .error failure → session.SameTraces (session.turn id)) ∧
          ∀ trace detail, session.liveTrace? target = some trace →
            trace.detail? kind event = some detail →
              session.SameTraces (session.turn id) ∧
              (∀ other : Source, (Job.detail other target kind event).turn run trace =
                (Job.detail source target kind event).turn run trace) ∧
              result = if run.interrupted then .error run.interruption else .ok ()) := by
  refine ⟨?_, ?_, ?_⟩
  · intro id trace kind event detail hlive hdetail
    obtain ⟨listed, hheld, -⟩ := liveTrace?_eq_some_iff.1 hlive
    obtain ⟨acts, hundergoes, hkeeps⟩ := exists_keep_of_reachable hreach hheld
    obtain ⟨source, answer, hact, happlies, hanswer, hkind, -, rfl⟩ :=
      hundergoes.exists_keep hdetail
    obtain ⟨database, hbound, hsupplies⟩ := hkeeps source kind event answer hact
    exact ⟨(Detail.kind_resolve _ answer).trans hkind, happlies, database, source, answer, hbound,
      hsupplies, hanswer, trace.keeps_resolve answer⟩
  · intro database kind event id
    refine ⟨exists_scheduleDetail_iff, fun next hschedule => ?_⟩
    obtain ⟨attached, trace, hattached, hserved, hjob, htraces⟩ :=
      job?_of_scheduleDetail (numbered_of_reachable hreach) hschedule
    exact ⟨fun number => by rw [htraces], attached, trace, hattached, hserved, hjob⟩
  · intro id future run source target kind event hfuture hrun hphase
    have hnumbered := numbered_of_reachable hreach
    have hjob : session.job? id = some (.detail source target kind event) :=
      job?_eq_some_iff.2 ⟨future, hfuture, by rw [Future.phase?, hrun, Option.map_some, hphase]⟩
    obtain ⟨held, hheld, -⟩ := atWork_of_reachable hreach id _ hjob
    obtain ⟨⟨after, last, hafter, hresolved⟩, htraces⟩ :=
      turn_detail hnumbered hfuture hrun hphase hheld
    have hsame {reading : Reading String} (hkept : reading.trace = held.trace)
        (hput : (session.turn id).traces = (session.putTrace reading.trace).traces) :
        session.SameTraces (session.turn id) :=
      sameTraces_of_putTrace hnumbered hheld (by rw [hput, hkept])
    refine ⟨after, _, last, hafter, hresolved, fun failure hfailed => ?_, ?_⟩
    · refine hsame ?_ htraces
      cases hasked : run.interrupted with
      | true => simp [Reading.failed]
      | false =>
          simp only [hasked, Bool.false_eq_true, if_false] at hfailed ⊢
          cases hresult : (source.loadDetail kind event held.trace).result with
          | error failure => exact Source.trace_loadDetail_of_error hresult
          | ok text =>
              rw [hresult] at hfailed
              cases hfailed
    · intro trace detail hlive hdetail
      obtain ⟨listed, hsameHeld, -⟩ := liveTrace?_eq_some_iff.1 hlive
      cases hsameHeld.symm.trans hheld
      obtain ⟨acts, hundergoes, -⟩ := exists_keep_of_reachable hreach hheld
      obtain ⟨_, _, -, happlies, -, -, hloaded, -⟩ := hundergoes.exists_keep hdetail
      have hresident : (trace.detail? kind event).isSome = true := by rw [hdetail]; rfl
      have hload (other : Source) :=
        Source.loadDetail_of_resident other hloaded happlies hresident
      refine ⟨hsame ?_ htraces, fun other => ?_, ?_⟩
      · rw [hload]
        split <;> rfl
      · rw [Job.turn_detail, Job.turn_detail, hload, hload]
      · rw [hload]
        cases run.interrupted <;> rfl

section Example

/-- The first call of the capture, and its kernel. -/
def call : EventId :=
  .ofRow 1 .launch

def kernel : EventId :=
  .ofRow 3 .dispatch

/-- The capture, in which the first call leads to its kernel and to one on a queue that it
does not have. -/
def linked : MemorySource :=
  { capture with
    details := Keyed.empty.insert (.flow, call)
      (.flow [⟨.kernel, "main", "queue 2", kernel, 11⟩, ⟨.kernel, "main", "queue 1", kernel, 12⟩]) }

/-- The capture is bound to a trace that is loaded, and there is a future. -/
def prepared : Session :=
  let opened := ((empty .standard).attach linked.toSource).2.createTrace.2
  let bound := ((opened.bind ⟨0⟩ ⟨0⟩).toOption).getD opened
  ((bound.readMetadata ⟨0⟩).session.allocate true).2

/-- The links of the call are to be read. -/
def asking : Session :=
  ((prepared.scheduleDetail ⟨0⟩ .flow call ⟨0⟩).toOption).getD prepared

/-- The worker has read them. -/
def answered : Session :=
  asking.turn ⟨0⟩

theorem reachable_prepared : Reachable .standard prepared := by
  have hbound : ((empty .standard).attach linked.toSource).2.createTrace.2.bind ⟨0⟩ ⟨0⟩ =
      .ok _ := rfl
  exact ((((Reachable.empty.step (.attach _ linked.toSource)).step (.createTrace _)).step
    (.bind hbound)).step (.readMetadata _ _)).step (.allocate _ _)

theorem reachable_answered : Reachable .standard answered := by
  have hasking : prepared.scheduleDetail ⟨0⟩ .flow call ⟨0⟩ = .ok asking := rfl
  exact (reachable_prepared.step (.scheduleDetail hasking)).step (.turn _ _)

/-- The trace with the link that it has a track for. -/
def linkedTrace : Trace :=
  loaded.putDetail call (.flow [⟨⟨1⟩, kernel, 12⟩])

theorem resident_detail_answered :
    answered.liveTrace? ⟨0⟩ = some linkedTrace ∧
      linkedTrace.detail? .flow call = some (.flow [⟨⟨1⟩, kernel, 12⟩]) ∧
      ∃ database source answer, linkedTrace.boundTo = some database ∧
        Supplies .standard answered database source ∧
          source.readDetail .flow call = .ok answer ∧
            linkedTrace.Keeps answer (.flow [⟨⟨1⟩, kernel, 12⟩]) := by
  have hlive : answered.liveTrace? ⟨0⟩ = some linkedTrace := rfl
  have hdetail : linkedTrace.detail? .flow call = some (.flow [⟨⟨1⟩, kernel, 12⟩]) := rfl
  obtain ⟨hformed, -, -⟩ := resident_detail reachable_answered
  obtain ⟨-, -, hanswer⟩ := hformed ⟨0⟩ linkedTrace .flow call _ hlive hdetail
  exact ⟨hlive, hdetail, hanswer⟩

end Example

end Session

end TimelineStore
