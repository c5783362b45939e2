import TimelineStore.Proofs.Session.Futures
import TimelineStore.Proofs.Trace.Acts

/-!
# The jobs of a session

A turn of a job does acts to the trace that the job is on.  A worker that has a job after a
step had it before, or has what a turn left of its job, or was given it for a database, on
the trace that the database serves.

**Results.**
* `Job.undergoes_turn`, `Job.rest_of_turn`: what a turn does, and what it leaves to do.
* `Session.Leads.assigns`: where the jobs of a session come from.
-/

namespace TimelineStore

namespace Job

/-- The tracks that are left to read are those of the trace, over a window that covers some
time. -/
def Fits : Job → Trace → Prop
  | .inTurn _ _ window _ _ left _, trace => window.isEmpty = false ∧ ∀ track ∈ left, trace.Has track
  | _, _ => True

/-- The job may do the act in a turn. -/
def Does : Job → Trace.Act → Prop
  | .metadata source _, .load answer => source.metadata.answer = .ok answer
  | .detail source _ kind event, .keep asked askedKind askedEvent _ =>
    asked = source ∧ askedKind = kind ∧ askedEvent = event
  | .inTurn source _ window _ _ _ _, .store track stored rows =>
    stored = window ∧ source.readTrack track.descriptor window = .ok rows
  | _, _ => False

section Turn

variable {run : Run Job} {trace after : Trace} {job rest : Job} {acts : List Trace.Act}

theorem Fits.undergoes
    (hfits : job.Fits trace)
    (hundergoes : trace.Undergoes acts after) :
    job.Fits after := by
  cases job with
  | inTurn source id window share totals left started =>
      exact ⟨hfits.1, fun track htrack => hundergoes.has (hfits.2 track htrack)⟩
  | _ => trivial

/-- What a turn of a job does to the trace. -/
theorem undergoes_turn
    (run : Run Job)
    (hfits : job.Fits trace) :
    ∃ acts, trace.Undergoes acts (job.turn run trace).1 ∧ ∀ act ∈ acts, job.Does act := by
  have hkept : ∃ acts, trace.Undergoes acts trace ∧ ∀ act ∈ acts, job.Does act :=
    ⟨[], .refl, by simp⟩
  cases job with
  | metadata source id =>
      simp only [turn]
      split
      · exact hkept
      obtain ⟨acts, hundergoes, hacts⟩ := Trace.undergoes_loadMetadata source trace
      refine ⟨acts, hundergoes, fun act hact => ?_⟩
      obtain ⟨answer, hanswer, rfl⟩ := hacts act hact
      exact hanswer
  | detail source id kind event =>
      simp only [turn]
      split
      · exact hkept
      obtain ⟨acts, hundergoes, hacts⟩ := Trace.undergoes_loadDetail source kind event trace
      refine ⟨acts, hundergoes, fun act hact => ?_⟩
      obtain ⟨raw, rfl⟩ := hacts act hact
      exact ⟨rfl, rfl, rfl⟩
  | slice source id request =>
      simp only [turn]
      split <;> exact hkept
  | inTurn source id window share totals left started =>
      cases left with
      | nil => exact hkept
      | cons track left =>
          cases started with
          | false =>
              simp only [turn]
              split <;> exact hkept
          | true =>
              simp only [turn]
              cases hrows : source.readTrack track.descriptor window with
              | error failure => simpa [Source.loadTrack_eq, hrows, Except.map] using hkept
              | ok rows =>
                  have hadmits : trace.Admits (.store track window rows) :=
                    ⟨hfits.2 track List.mem_cons_self, hfits.1⟩
                  refine ⟨[.store track window rows], ?_, ?_⟩
                  · simpa [Source.loadTrack_eq, hrows, Except.map] using .single hadmits
                  · simpa [Does] using hrows

/-- What a turn leaves to do is on the same trace with the same source. -/
theorem rest_of_turn
    (hturn : (job.turn run trace).2.next = .work rest) :
    rest.trace = job.trace ∧ rest.source = job.source ∧ (job.Fits trace → rest.Fits trace) := by
  cases job with
  | metadata source id =>
      simp only [turn] at hturn
      split at hturn <;> cases hturn
  | detail source id kind event =>
      simp only [turn] at hturn
      split at hturn <;> cases hturn
  | slice source id request =>
      simp only [turn] at hturn
      cases hresolve : trace.resolve request.tracks with
      | error failure => simp [hresolve] at hturn
      | ok found =>
          simp only [hresolve, Next.work.injEq] at hturn
          cases hturn
          refine ⟨rfl, rfl, fun _ => ⟨request.covers, fun track htrack => ?_⟩⟩
          exact Trace.has_of_track? (Trace.track?_of_resolve hresolve htrack)
  | inTurn source id window share totals left started =>
      cases left with
      | nil => cases hturn
      | cons track left =>
          cases started with
          | false =>
              simp only [turn] at hturn
              split at hturn
              · cases hturn
              · cases hturn
                exact ⟨rfl, rfl, fun hfits => hfits⟩
          | true =>
              simp only [turn] at hturn
              cases hrows : source.readTrack track.descriptor window with
              | error failure => simp [Source.loadTrack_eq, hrows, Except.map] at hturn
              | ok rows =>
                  simp only [Source.loadTrack_eq, hrows, Except.map, Next.work.injEq] at hturn
                  cases hturn
                  refine ⟨rfl, rfl, fun hfits => ⟨hfits.1, fun other hother => ?_⟩⟩
                  exact hfits.2 other (List.mem_cons_of_mem track hother)

end Turn

end Job

namespace Session

variable {session next : Session}

section Jobs

variable {id : FutureId} {job : Job} {future after : Future Job}

theorem job?_eq_some_iff :
    session.job? id = some job ↔
      ∃ future, session.futures.get? id.index = some future ∧
        future.phase? = some (.running job) := by
  have hphase (future : Future Job) :
      jobOf? future = some job ↔ future.phase? = some (.running job) := by
    unfold jobOf?
    split
    · rename_i hrunning
      simp [hrunning]
    · rename_i hother
      simpa using fun hrunning => hother job hrunning
  simp only [job?, Option.bind_eq_some_iff, hphase]

theorem isWorkedOn_iff
    {id : TraceId} :
    session.isWorkedOn id = true ↔
      ∃ future job, session.job? future = some job ∧ job.trace = id := by
  simp only [isWorkedOn, List.any_eq_true, Keyed.mem_values_iff, Option.any_eq_true,
    decide_eq_true_eq]
  constructor
  · rintro ⟨future, ⟨number, hfuture⟩, job, hjob, htrace⟩
    exact ⟨⟨number⟩, job, Option.bind_eq_some_iff.2 ⟨future, hfuture, hjob⟩, htrace⟩
  · rintro ⟨id, job, hjob, htrace⟩
    obtain ⟨future, hfuture, hjob⟩ := Option.bind_eq_some_iff.1 hjob
    exact ⟨future, ⟨id.index, hfuture⟩, job, hjob, htrace⟩

/-- A future that is interrupted or waited for carries no job but the one that it did. -/
theorem phase?_interrupt
    (future : Future Job) :
    future.interrupt.2.phase? = future.phase? := by
  cases hrun : future.run with
  | none => simp [Future.interrupt, hrun]
  | some run =>
      cases hpending : run.isPending <;>
        simp [Future.interrupt, hrun, hpending, Future.phase?]

theorem phase?_of_wait
    {seconds : Option Nat}
    (hrunning : (future.wait seconds).future.phase? = some (.running job)) :
    future.phase? = some (.running job) := by
  cases hrun : future.run with
  | none => simpa [Future.wait, hrun] using hrunning
  | some run =>
      cases houtcome : future.outcome? with
      | none => simpa [Future.wait, hrun, houtcome, Future.drain, Future.phase?] using hrunning
      | some outcome => simp [Future.wait, hrun, houtcome, Future.phase?] at hrunning

theorem next_of_phase_take
    {run : Run Job} {turn : Turn Job}
    (hrunning : (run.take turn).phase = .running job) :
    turn.next = .work job := by
  obtain ⟨reports, after⟩ := turn
  cases after with
  | work rest =>
      cases hrunning
      rfl
  | finished result =>
      obtain ⟨last, hlast⟩ := (reports.foldl Run.report run).phase_resolve result
      cases hlast.symm.trans hrunning
  | gone => cases hrunning

/-- A worker has the job that its future carries, or the one that it had. -/
theorem job?_putFuture_cases
    (hjob : (session.putFuture after).job? id = some job) :
    after.id = id ∧ after.phase? = some (.running job) ∨ session.job? id = some job := by
  obtain ⟨found, hfound, hphase⟩ := job?_eq_some_iff.1 hjob
  rw [get?_putFuture] at hfound
  split at hfound
  · rename_i hnumber
    obtain ⟨_, -, rfl⟩ := Option.map_eq_some_iff.1 hfound
    exact .inl ⟨congrArg FutureId.mk hnumber.symm, hphase⟩
  · exact .inr (job?_eq_some_iff.2 ⟨found, hfound, hphase⟩)

/-- A worker has no job anew when a future is put back that carries none but the one that it did. -/
theorem job?_of_putFuture
    {on : FutureId}
    (hnumbered : session.Numbered)
    (hfuture : session.future on = .ok future)
    (hid : after.id = future.id)
    (hphase : after.phase? = some (.running job) → future.phase? = some (.running job))
    (hjob : (session.putFuture after).job? id = some job) :
    session.job? id = some job := by
  rcases job?_putFuture_cases hjob with ⟨rfl, hrunning⟩ | hbefore
  · have hslot := future_eq_ok_iff.1 hfuture
    rw [hid, hnumbered.futures _ _ hslot]
    exact job?_eq_some_iff.2 ⟨future, hslot, hphase hrunning⟩
  · exact hbefore

/-- Where a job comes from that a worker has after a step: the worker had it before, a turn
left it of the one that the worker had, or it was scheduled for a database on the trace that
the database serves. -/
inductive Assigns (session : Session) (id : FutureId) (job : Job) : Prop
  | resumed {before : Job}
      (hbefore : session.job? id = some before)
      (htrace : job.trace = before.trace)
      (hsource : job.source = before.source)
      (hfits : ∀ held : HeldTrace, session.traces.get? before.trace.index = some held →
        before.Fits held.trace → job.Fits held.trace)
  | scheduled {database : DatabaseId} {attached : Attached} {trace : Trace}
      (hdatabase : session.database database = .ok attached)
      (hserved : session.servedTrace database attached = .ok trace)
      (htrace : job.trace = trace.id)
      (hsource : job.source = attached.source)
      (hfits : ∀ other, job.Fits other)

theorem assigns_self
    (hjob : session.job? id = some job) :
    session.Assigns id job :=
  .resumed hjob rfl rfl fun _ _ hfits => hfits

theorem assigns_of_futures
    (hkept : next.futures = session.futures)
    (hjob : next.job? id = some job) :
    session.Assigns id job := by
  refine assigns_self ?_
  rwa [job?, ← hkept]

/-- A future was put back that carries no job but one that comes from somewhere. -/
theorem assigns_putFuture
    (after : Future Job)
    (hafter : after.phase? = some (.running job) → session.Assigns after.id job)
    (hjob : (session.putFuture after).job? id = some job) :
    session.Assigns id job := by
  rcases job?_putFuture_cases hjob with ⟨rfl, hrunning⟩ | hbefore
  · exact hafter hrunning
  · exact assigns_self hbefore

/-- A future was put back that carries no job but the one that it did. -/
theorem assigns_treated
    {on : FutureId}
    (hnumbered : session.Numbered)
    (hfuture : session.future on = .ok future)
    (htreated : Treated future after)
    (hafter : after.phase? = some (.running job) → future.phase? = some (.running job))
    (hjob : (session.putFuture after).job? id = some job) :
    session.Assigns id job := by
  exact assigns_self (job?_of_putFuture hnumbered hfuture htreated.id_eq hafter hjob)

theorem assigns_schedule
    {database : DatabaseId} {on : FutureId} {make : Source → TraceId → Job}
    (hschedule : session.schedule database on make = .ok next)
    (hmake : ∀ source trace, (make source trace).trace = trace ∧
      (make source trace).source = source ∧ ∀ other, (make source trace).Fits other)
    (hjob : next.job? id = some job) :
    session.Assigns id job := by
  obtain ⟨attached, future, trace, after, hdatabase, -, hserved, hafter, rfl⟩ :=
    exists_of_schedule hschedule
  obtain ⟨-, rfl⟩ := Future.schedule_eq_ok_iff.1 hafter
  obtain ⟨htrace, hsource, hfits⟩ := hmake attached.source trace.id
  refine assigns_putFuture _ (fun hrunning => ?_) hjob
  cases hrunning
  exact .scheduled hdatabase hserved htrace hsource hfits

/-- A job is scheduled on the trace that the database serves. -/
theorem job?_of_schedule
    {database : DatabaseId} {make : Source → TraceId → Job}
    (hnumbered : session.Numbered)
    (hschedule : session.schedule database id make = .ok next) :
    ∃ attached trace, session.database database = .ok attached ∧
      session.servedTrace database attached = .ok trace ∧
      next.job? id = some (make attached.source trace.id) ∧ next.traces = session.traces := by
  obtain ⟨attached, future, trace, after, hattached, hfuture, hserved, hafter, rfl⟩ :=
    exists_of_schedule hschedule
  obtain ⟨-, hcarries⟩ := Future.schedule_eq_ok_iff.1 hafter
  have hslot := future_eq_ok_iff.1 hfuture
  have hnumber : future.id = id := hnumbered.futures _ _ hslot
  have hid : after.id.index = id.index := by
    rw [hcarries, ← hnumber]
    rfl
  refine ⟨attached, trace, hattached, hserved, job?_eq_some_iff.2 ⟨after, ?_, ?_⟩, rfl⟩
  · rw [get?_putFuture, hid, if_pos rfl, hslot]
    rfl
  · rw [hcarries]
    rfl

theorem assigns_turn
    {on : FutureId}
    (hnumbered : session.Numbered)
    (hjob : (session.turn on).job? id = some job) :
    session.Assigns id job := by
  rcases session.turn_cases on with hnext |
    ⟨future, run, before, held, hfuture, hrun, hphase, hheld, hnext⟩
  · exact assigns_self (hnext ▸ hjob)
  rw [hnext] at hjob
  have hid : future.id = on := hnumbered.futures _ _ hfuture
  have hbefore : session.job? on = some before :=
    job?_eq_some_iff.2 ⟨future, hfuture, by simp [Future.phase?, hrun, hphase]⟩
  have hput : (session.putFuture (future.take (before.turn run held.trace).2)).job? id =
      some job := hjob
  refine assigns_putFuture _ (fun hrunning => ?_) hput
  -- the future carries a job after the turn only if the turn left work
  have hrest : (before.turn run held.trace).2.next = .work job := by
    simp only [Future.phase?, Future.take, hrun, Option.map_some, Option.some.injEq] at hrunning
    exact next_of_phase_take hrunning
  obtain ⟨htrace, hsource, hfits⟩ := Job.rest_of_turn hrest
  refine .resumed (hid ▸ hbefore) htrace hsource fun other hother => ?_
  cases hother.symm.trans hheld
  exact hfits

theorem Leads.assigns
    (hnumbered : session.Numbered)
    (hleads : Leads session next)
    (hjob : next.job? id = some job) :
    session.Assigns id job := by
  cases hleads with
  | allocate listens =>
      obtain ⟨found, hfound, hphase⟩ := job?_eq_some_iff.1 hjob
      have hadded := (session.futures.get?_add id.index _).symm.trans hfound
      split at hadded
      · cases hadded
        cases hphase
      · exact assigns_self (job?_eq_some_iff.2 ⟨found, hadded, hphase⟩)
  | @free _ freed hfree =>
      rw [eq_of_free hfree] at hjob
      obtain ⟨found, hfound, hphase⟩ := job?_eq_some_iff.1 hjob
      have hleft := (session.futures.get?_erase id.index _).symm.trans hfound
      split at hleft
      · cases hleft
      · exact assigns_self (job?_eq_some_iff.2 ⟨found, hleft, hphase⟩)
  | interrupt on =>
      rcases session.interrupt_cases on with hnext | ⟨future, hfuture, hnext⟩
      · exact assigns_self (hnext ▸ hjob)
      · rw [hnext] at hjob
        refine assigns_treated hnumbered hfuture .interrupted (fun hrunning => ?_) hjob
        rwa [phase?_interrupt] at hrunning
  | wait on seconds =>
      rcases session.wait_cases on seconds with hnext | ⟨future, hfuture, hnext⟩
      · exact assigns_self (hnext ▸ hjob)
      · rw [hnext] at hjob
        exact assigns_treated hnumbered hfuture (.waited seconds) phase?_of_wait hjob
  | scheduleMetadata hschedule =>
      exact assigns_schedule hschedule (fun _ _ => ⟨rfl, rfl, fun _ => trivial⟩) hjob
  | scheduleRead hschedule =>
      exact assigns_schedule hschedule (fun _ _ => ⟨rfl, rfl, fun _ => trivial⟩) hjob
  | scheduleDetail hschedule =>
      exact assigns_schedule hschedule (fun _ _ => ⟨rfl, rfl, fun _ => trivial⟩) hjob
  | turn on => exact assigns_turn hnumbered hjob
  | close hclose =>
      rw [eq_of_close hclose] at hjob
      exact assigns_self hjob
  | deleteTrace hdelete =>
      obtain ⟨_, -, rfl⟩ := exists_of_deleteTrace hdelete
      exact assigns_self hjob
  | draftWindow hdraft =>
      rw [eq_of_draftWindow hdraft] at hjob
      exact assigns_self hjob
  | draftTrack hdraft =>
      rw [eq_of_draftTrack hdraft] at hjob
      exact assigns_self hjob
  | attach source => exact assigns_self hjob
  | createTrace => exact assigns_self hjob
  | bind hbind => exact assigns_of_futures (futures_bind hbind) hjob
  | readMetadata database => exact assigns_of_futures futures_reading hjob
  | read database request mode => exact assigns_of_futures futures_reading hjob
  | readDraft database mode => exact assigns_of_futures futures_readDraft hjob
  | evictAt hevict => exact assigns_of_futures (futures_evicting hevict) hjob
  | evictWindow hevict => exact assigns_of_futures (futures_evicting hevict) hjob
  | evictAll hevict => exact assigns_of_futures (futures_evicting hevict) hjob
  | evictDetail hevict => exact assigns_of_futures (futures_evicting hevict) hjob
  | evictDetails hevict => exact assigns_of_futures (futures_evicting hevict) hjob

end Jobs

end Session

end TimelineStore
