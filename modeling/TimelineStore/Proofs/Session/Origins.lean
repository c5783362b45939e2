import TimelineStore.Proofs.Session.Gone
import TimelineStore.Proofs.Session.Turns

/-!
# Where resident detail comes from

Detail becomes resident by the turn of a worker that has a read of it, and by nothing else that
happens to a session.  A worker has such a read from the call that scheduled it until it makes a
turn.

**Results.**
* `Session.valid_upon`, `Session.valid_of_upon`: what an occurrence does to a handle of detail.
* `Session.job?_upon_cases`: where the jobs of workers come from.
* `Session.detail_upon_iff`: when a worker has a read of detail.
-/

namespace TimelineStore

/-- Detail that is resident after acts was so before, or one of the acts kept it. -/
theorem Trace.Undergoes.isSome_detail?_or
    {trace after : Trace} {acts : List Trace.Act} {kind : DetailKind} {event : EventId}
    (hundergoes : trace.Undergoes acts after)
    (hresident : (after.detail? kind event).isSome = true) :
    (trace.detail? kind event).isSome = true ∨
      ∃ source raw, .keep source kind event raw ∈ acts := by
  induction hundergoes with
  | refl => exact .inl hresident
  | snoc _ hadmits ih =>
      obtain ⟨detail, hdetail⟩ := Option.isSome_iff_exists.1 hresident
      rcases Trace.detail?_perform_cases hadmits hdetail with hbefore | ⟨source, raw, rfl, -⟩
      · rcases ih (Option.isSome_iff_exists.2 ⟨detail, hbefore⟩) with hold | ⟨source, raw, hact⟩
        · exact .inl hold
        · exact .inr ⟨source, raw, List.mem_append_left _ hact⟩
      · exact .inr ⟨source, raw, List.mem_append_right _ List.mem_cons_self⟩

namespace Job

variable {job : Job} {source : Source} {kind : DetailKind} {event : EventId} {raw : RawDetail}

/-- Only a read of detail keeps detail, and only what it reads. -/
theorem eq_detail_of_does
    (hdoes : job.Does (.keep source kind event raw)) :
    job = .detail source job.trace kind event := by
  cases job with
  | detail asked trace askedKind askedEvent =>
      obtain ⟨rfl, rfl, rfl⟩ := hdoes
      rfl
  | _ => exact hdoes.elim

/-- What a turn leaves to do is not a read of detail. -/
theorem ne_detail_of_turn
    {rest : Job} {run : Run Job} {trace : Trace} {target : TraceId}
    (hturn : (job.turn run trace).2.next = .work rest) :
    rest ≠ .detail source target kind event := by
  rintro rfl
  cases job with
  | metadata source id =>
      simp only [turn] at hturn
      split at hturn <;> cases hturn
  | detail source id kind event =>
      simp only [turn] at hturn
      split at hturn <;> cases hturn
  | slice source id request =>
      simp only [turn] at hturn
      split at hturn <;> cases hturn
  | inTurn source id window share totals left started =>
      cases left with
      | nil => cases hturn
      | cons track left =>
          cases started <;> simp only [turn] at hturn <;> split at hturn <;> cases hturn

end Job

namespace Session

variable {session next : Session} {occurrence : Occurrence} {handle : DetailHandle}

section Handles

theorem valid_of_traces_eq
    (hkept : next.traces = session.traces) :
    next.Valid handle ↔ session.Valid handle := by
  rw [valid_iff, valid_iff, hkept]

/-- A handle stays valid through everything but the deletion of its trace and the eviction of the
detail. -/
theorem valid_upon
    (horderly : session.Orderly)
    (hvalid : session.Valid handle)
    (hspares : ∀ call, occurrence = .call call → ¬ call.Forfeits handle) :
    (session.upon occurrence).Valid handle := by
  cases occurrence with
  | call call =>
      obtain ⟨trace, hheld, hresident⟩ := valid_iff.1 hvalid
      obtain ⟨⟨after, listed⟩, acts, hhandled⟩ :=
        exists_handled horderly.numbered horderly.atWork hheld call
      obtain rfl : listed = true := by
        rcases hhandled.listed with hlisted | rfl
        · exact hlisted
        · exact absurd rfl (hspares _ rfl)
      refine valid_iff.2 ⟨after, hhandled.holds, hhandled.undergoes.isSome_detail? ?_ hresident⟩
      intro act hact
      obtain ⟨htarget, hdoes⟩ := hhandled.does act hact
      exact keeps_of_not_forfeits (hspares call rfl) htarget hdoes
  | turnsInto id source => exact (valid_of_traces_eq rfl).2 hvalid
  | turnsIntoFor id source => exact (valid_of_traces_eq rfl).2 hvalid

/-- A trace that the session holds after an occurrence is new, or it was held before. -/
theorem held_upon_cases
    {id : TraceId} {after : HeldTrace}
    (horderly : session.Orderly)
    (hafter : (session.upon occurrence).traces.get? id.index = some after) :
    (session.traces.get? id.index = none ∧ after = ⟨.fresh id, true⟩) ∨
      ∃ held, session.traces.get? id.index = some held ∧
        session.Keeps occurrence id held after := by
  cases hbefore : session.traces.get? id.index with
  | some held =>
      obtain ⟨kept, hkeeps⟩ := exists_keeps horderly hbefore occurrence
      cases hkeeps.holds.symm.trans hafter
      exact .inr ⟨held, rfl, hkeeps⟩
  | none =>
      refine .inl ⟨rfl, ?_⟩
      cases occurrence with
      | call call =>
          rcases session.after_cases call with hsame | hleads
          · rw [upon, hsame, hbefore] at hafter
            cases hafter
          · rcases hleads.held_cases horderly.numbered horderly.atWork hafter with
              ⟨-, hfresh⟩ | ⟨held, acts, hcarries⟩
            · exact hfresh
            · cases hbefore.symm.trans hcarries.had
      | turnsInto database source => cases hbefore.symm.trans hafter
      | turnsIntoFor worker source => cases hbefore.symm.trans hafter

/-- A trace that is listed whenever it is held remains so through everything but its deletion. -/
theorem listed_upon
    {id : TraceId}
    (horderly : session.Orderly)
    (hlisted : ∀ held, session.traces.get? id.index = some held → held.listed = true)
    (hkept : occurrence ≠ .call (.deleteTrace id)) :
    ∀ after, (session.upon occurrence).traces.get? id.index = some after → after.listed = true := by
  intro after hafter
  rcases held_upon_cases horderly hafter with ⟨-, rfl⟩ | ⟨held, hheld, hkeeps⟩
  · rfl
  · exact hkeeps.listed (hlisted held hheld) hkept

/-- Resident detail that a call did not find was kept by a worker that had a read of it. -/
theorem resident_after_cases
    {held after : HeldTrace} {call : Call}
    (horderly : session.Orderly)
    (hheld : session.traces.get? handle.trace.index = some held)
    (hafter : (session.after call).traces.get? handle.trace.index = some after)
    (hresident : (after.trace.detail? handle.kind handle.event).isSome = true) :
    (held.trace.detail? handle.kind handle.event).isSome = true ∨
      ∃ worker source, call = .turn worker ∧
        session.job? worker = some (.detail source handle.trace handle.kind handle.event) := by
  by_cases hturn : ∃ worker, call = .turn worker
  · obtain ⟨worker, rfl⟩ := hturn
    obtain ⟨kept, acts, hholds, hundergoes, -, hacts⟩ :=
      exists_acts_of_turn horderly.numbered horderly.atWork hheld worker
    cases hholds.symm.trans hafter
    rcases hundergoes.isSome_detail?_or hresident with hold | ⟨source, raw, hact⟩
    · exact .inl hold
    · obtain ⟨job, hjob, htrace, hdoes⟩ := hacts _ hact
      rw [Job.eq_detail_of_does hdoes, htrace] at hjob
      exact .inr ⟨worker, source, rfl, hjob⟩
  · obtain ⟨kept, acts, hhandled⟩ :=
      exists_handled horderly.numbered horderly.atWork hheld call
    cases hhandled.holds.symm.trans hafter
    rcases hhandled.undergoes.isSome_detail?_or hresident with hold | ⟨source, raw, hact⟩
    · exact .inl hold
    · have hdoes := (hhandled.does _ hact).2
      cases call with
      | turn worker => exact absurd ⟨worker, rfl⟩ hturn
      | _ => exact hdoes.elim

/-- **A handle becomes valid by the turn of a worker that reads the detail**, and by nothing
else. -/
theorem valid_of_upon
    (horderly : session.Orderly)
    (hvalid : (session.upon occurrence).Valid handle) :
    session.Valid handle ∨
      ∃ worker source, occurrence = .call (.turn worker) ∧
        session.job? worker = some (.detail source handle.trace handle.kind handle.event) := by
  obtain ⟨trace, hafter, hresident⟩ := valid_iff.1 hvalid
  rcases held_upon_cases horderly hafter with ⟨-, hnew⟩ | ⟨⟨before, listed⟩, hbefore, hkeeps⟩
  · -- a new trace has no detail
    cases hnew
    cases hresident
  obtain rfl : listed = true := by
    by_contra hunlisted
    cases hkeeps.unlisted (Bool.eq_false_iff.2 hunlisted)
  cases occurrence with
  | call call =>
      rcases resident_after_cases horderly hbefore hafter hresident with hold |
        ⟨worker, source, rfl, hjob⟩
      · exact .inl (valid_iff.2 ⟨before, hbefore, hold⟩)
      · exact .inr ⟨worker, source, rfl, hjob⟩
  | turnsInto id source => exact .inl ((valid_of_traces_eq rfl).1 hvalid)
  | turnsIntoFor id source => exact .inl ((valid_of_traces_eq rfl).1 hvalid)

/-- What a trace holds whose handle is valid after an eviction. -/
theorem exists_of_valid_evicting
    {α : Type} {count : Trace → α}
    (change : Trace → Trace)
    (hnumbered : session.Numbered)
    (hid : ∀ trace, (change trace).id = trace.id)
    (hvalid : (session.codedCount (session.evicting handle.trace count change)).2.Valid handle) :
    ∃ trace, ((change trace).detail? handle.kind handle.event).isSome = true := by
  obtain ⟨kept, hkept, hresident⟩ := valid_iff.1 hvalid
  cases hevict : session.evicting handle.trace count change with
  | error failure =>
      rw [hevict] at hkept
      have htrace : session.trace handle.trace = .ok kept := trace_eq_ok_iff.2 hkept
      simp [evicting, htrace] at hevict
  | ok told =>
      obtain ⟨trace, htrace, hnext⟩ := exists_of_evicting hevict
      have hheld := trace_eq_ok_iff.1 htrace
      have hsame : handle.trace.index = (change trace).id.index := by
        rw [hid, hnumbered.traces _ _ hheld]
      have hafter : (session.putTrace (change trace)).traces.get? handle.trace.index =
          some ⟨kept, true⟩ := by
        rw [← hnext]
        rwa [hevict] at hkept
      rw [get?_putTrace, if_pos hsame, hheld] at hafter
      cases hafter
      exact ⟨trace, hresident⟩

/-- **A call that forfeits the detail leaves no valid handle of it**, whether it fails or not. -/
theorem not_valid_of_forfeits
    {call : Call}
    (horderly : session.Orderly)
    (hforfeits : call.Forfeits handle) :
    ¬ (session.after call).Valid handle := by
  intro hvalid
  cases call with
  | deleteTrace id =>
      obtain rfl : id = handle.trace := hforfeits
      obtain ⟨trace, hafter, -⟩ := valid_iff.1 hvalid
      cases hdelete : session.deleteTrace handle.trace with
      | error failure =>
          rw [after, hdelete] at hafter
          have htrace : session.trace handle.trace = .ok trace := trace_eq_ok_iff.2 hafter
          simp [deleteTrace, htrace] at hdelete
      | ok next =>
          obtain ⟨held, hheld, hunlisted⟩ := (GivesUp.deleteTrace hdelete).gone
          cases hafter.symm.trans hheld
          cases hunlisted
  | evictDetail id kind event =>
      obtain ⟨rfl, rfl, rfl⟩ := hforfeits
      obtain ⟨trace, hresident⟩ := exists_of_valid_evicting
        (·.evictDetail handle.kind handle.event) horderly.numbered (fun _ => rfl) hvalid
      have hget := trace.details.get?_erase (handle.kind, handle.event) (handle.kind, handle.event)
      rw [Trace.evictDetail, Trace.detail?, hget, if_pos rfl] at hresident
      cases hresident
  | evictDetails id kind =>
      obtain ⟨rfl, rfl⟩ := hforfeits
      obtain ⟨trace, hresident⟩ := exists_of_valid_evicting
        (·.evictDetails handle.kind) horderly.numbered (fun _ => rfl) hvalid
      have hget := trace.details.get?_filter (fun key => key.1 ≠ handle.kind)
        (handle.kind, handle.event)
      rw [Trace.evictDetails, Trace.detail?, hget, if_neg (by simp)] at hresident
      cases hresident
  | _ => exact hforfeits.elim

end Handles

section Jobs

variable {id : FutureId} {job : Job}

/-- A worker has the job that was scheduled for it, or the one that it had. -/
theorem job?_schedule_cases
    {database : DatabaseId} {on : FutureId} {make : Source → TraceId → Job}
    (hnumbered : session.Numbered)
    (hjob : (session.coded (session.schedule database on make)).2.job? id = some job) :
    session.job? id = some job ∨
      on = id ∧ ∃ next source trace, session.schedule database on make = .ok next ∧
        job = make source trace := by
  cases hschedule : session.schedule database on make with
  | error failure =>
      rw [hschedule] at hjob
      exact .inl hjob
  | ok next =>
      rw [hschedule] at hjob
      obtain ⟨attached, future, trace, changed, -, hfuture, -, hchanged, rfl⟩ :=
        exists_of_schedule hschedule
      obtain ⟨-, rfl⟩ := Future.schedule_eq_ok_iff.1 hchanged
      rcases job?_putFuture_cases hjob with ⟨hid, hrunning⟩ | hbefore
      · have hnumber : future.id = on := hnumbered.futures _ _ (future_eq_ok_iff.1 hfuture)
        cases hrunning
        exact .inr ⟨hnumber.symm.trans hid, _, _, _, rfl, rfl⟩
      · exact .inl hbefore

variable {source : Source} {target : TraceId} {kind : DetailKind} {event : EventId}

/-- The turn of a worker leaves it no read of detail. -/
theorem job?_turn_ne_detail
    (horderly : session.Orderly) :
    (session.turn id).job? id ≠ some (.detail source target kind event) := by
  intro hjob
  rcases session.turn_cases id with hnext | ⟨future, run, before, held, hfuture, hrun, -, -, hnext⟩
  · rw [hnext] at hjob
    obtain ⟨after, result, last, hafter, hresolved, -⟩ :=
      exists_resolved_turn horderly.numbered horderly.atWork hjob
    rw [hnext] at hafter
    cases (job?_of_idle hafter (isInFlight_of_resolved hresolved)).symm.trans hjob
  · rw [hnext] at hjob
    have hid : future.id = id := horderly.numbered.futures _ _ hfuture
    obtain ⟨found, hfound, hrunning⟩ := job?_eq_some_iff.1 hjob
    rw [get?_putFuture, if_pos (by rw [Future.take, hid])] at hfound
    obtain ⟨_, -, rfl⟩ := Option.map_eq_some_iff.1 hfound
    simp only [Future.phase?, Future.take, hrun, Option.map_some, Option.some.injEq] at hrunning
    exact Job.ne_detail_of_turn (next_of_phase_take hrunning) rfl

/-- **A worker has a read of detail from the call that schedules it.**  It had it before every other
call. -/
theorem detail_after_cases
    {call : Call}
    (horderly : session.Orderly)
    (hjob : (session.after call).job? id = some (.detail source target kind event)) :
    session.job? id = some (.detail source target kind event) ∨
      ∃ database next, call = .scheduleDetail database kind event id ∧
        session.scheduleDetail database kind event id = .ok next := by
  have hnumbered := horderly.numbered
  have hcoded {outcome : Except Failure Session}
      (hok : ∀ next, outcome = .ok next → next.futures = session.futures) :
      (session.coded outcome).2.futures = session.futures :=
    coded_elim (motive := fun next => next.futures = session.futures) rfl hok
  have hevicting {α : Type} {target : TraceId} {count : Trace → α} {change : Trace → Trace} :
      (session.codedCount (session.evicting target count change)).2.futures = session.futures :=
    codedCount_elim (motive := fun next => next.futures = session.futures) rfl
      fun told next => futures_evicting
  have hkept (hsame : (session.after call).futures = session.futures) :
      session.job? id = some (.detail source target kind event) :=
    (job?_of_futures_eq hsame).symm.trans hjob
  cases call with
  | scheduleMetadata database other =>
      rcases job?_schedule_cases hnumbered hjob with hbefore | ⟨-, _, _, _, -, hmade⟩
      · exact .inl hbefore
      · cases hmade
  | scheduleRead database request other =>
      rcases job?_schedule_cases hnumbered hjob with hbefore | ⟨-, _, _, _, -, hmade⟩
      · exact .inl hbefore
      · cases hmade
  | scheduleDetail database asked named other =>
      rcases job?_schedule_cases hnumbered hjob with hbefore | ⟨rfl, next, _, _, hnext, hmade⟩
      · exact .inl hbefore
      · cases hmade
        exact .inr ⟨database, next, rfl, hnext⟩
  | turn other =>
      have hother : other ≠ id := by
        rintro rfl
        exact job?_turn_ne_detail horderly hjob
      exact .inl ((job?_turn_of_ne hnumbered hother).symm.trans hjob)
  | interrupt other =>
      refine .inl ?_
      rcases session.interrupt_cases other with hnext | ⟨future, hfuture, hnext⟩
      · rwa [after, hnext] at hjob
      · rw [after, hnext] at hjob
        refine job?_of_putFuture hnumbered hfuture Treated.interrupted.id_eq (fun hrunning => ?_)
          hjob
        rwa [phase?_interrupt] at hrunning
  | wait other seconds =>
      refine .inl ?_
      rcases session.wait_cases other seconds with hnext | ⟨future, hfuture, hnext⟩
      · rwa [after, hnext] at hjob
      · rw [after, hnext] at hjob
        exact job?_of_putFuture hnumbered hfuture (Treated.waited seconds).id_eq phase?_of_wait hjob
  | allocate listens =>
      obtain ⟨found, hfound, hrunning⟩ := job?_eq_some_iff.1 hjob
      have hadded := (session.futures.get?_add id.index _).symm.trans hfound
      split at hadded
      · cases hadded
        cases hrunning
      · exact .inl (job?_eq_some_iff.2 ⟨found, hadded, hrunning⟩)
  | free other =>
      refine .inl ?_
      cases hfree : session.free other with
      | error failure => rwa [after, hfree] at hjob
      | ok next =>
          rw [after, hfree, coded, eq_of_free hfree] at hjob
          obtain ⟨found, hfound, hrunning⟩ := job?_eq_some_iff.1 hjob
          have hleft := (session.futures.get?_erase id.index _).symm.trans hfound
          split at hleft
          · cases hleft
          · exact job?_eq_some_iff.2 ⟨found, hleft, hrunning⟩
  | close database =>
      exact .inl (hkept (hcoded fun next hnext => by rw [eq_of_close hnext]))
  | deleteTrace target =>
      refine .inl (hkept (hcoded fun next hnext => ?_))
      obtain ⟨_, -, rfl⟩ := exists_of_deleteTrace hnext
      rfl
  | bind database target =>
      exact .inl (hkept (hcoded fun next => futures_bind))
  | draftWindow database window =>
      exact .inl (hkept (hcoded fun next hnext => by rw [eq_of_draftWindow hnext]; rfl))
  | draftTrack database track =>
      exact .inl (hkept (hcoded fun next hnext => by rw [eq_of_draftTrack hnext]; rfl))
  | attach source => exact .inl hjob
  | createTrace => exact .inl hjob
  | readMetadata database => exact .inl (hkept futures_reading)
  | read database request mode => exact .inl (hkept futures_reading)
  | readDraft database mode => exact .inl (hkept futures_readDraft)
  | evictAt target start => exact .inl (hkept hevicting)
  | evictWindow target window => exact .inl (hkept hevicting)
  | evictAll target => exact .inl (hkept hevicting)
  | evictDetail target kind event => exact .inl (hkept hevicting)
  | evictDetails target kind => exact .inl (hkept hevicting)

theorem jobOf?_withSource
    (given : Source) (future : Future Job) :
    jobOf? (future.withSource given) = (jobOf? future).map (·.withSource given) := by
  obtain ⟨number, listens, state, run⟩ := future
  cases run with
  | none => rfl
  | some run =>
      cases hphase : run.phase <;>
        simp [jobOf?, Future.withSource, Future.phase?, Run.withSource, hphase]

/-- A worker whose source turns into another has the job that it had, with that source. -/
theorem job?_turnsIntoFor
    (other : FutureId) (given : Source) :
    (session.upon (.turnsIntoFor other given)).job? id =
      if id.index = other.index then (session.job? id).map (·.withSource given)
      else session.job? id := by
  have hslot : (session.upon (.turnsIntoFor other given)).futures.get? id.index = _ :=
    session.futures.get?_modify id.index other.index (·.withSource given)
  rw [job?, hslot]
  split
  · rw [Option.bind_map, job?, Option.map_bind]
    exact congrArg _ (funext (jobOf?_withSource given))
  · rfl

/-- **When a worker has a read of detail**: it has it after an occurrence just if it had it before
and made no turn, or if the occurrence is the call that schedules it. -/
theorem detail_upon_iff
    (horderly : session.Orderly) :
    (∃ source, (session.upon occurrence).job? id = some (.detail source target kind event)) ↔
      (occurrence ≠ .call (.turn id) ∧
          ∃ source, session.job? id = some (.detail source target kind event)) ∨
        ∃ database next, occurrence = .call (.scheduleDetail database kind event id) ∧
          session.scheduleDetail database kind event id = .ok next ∧
            session.served? database = some target := by
  constructor
  · rintro ⟨source, hjob⟩
    have hturn : occurrence ≠ .call (.turn id) := by
      rintro rfl
      exact job?_turn_ne_detail horderly hjob
    cases occurrence with
    | call call =>
        rcases detail_after_cases horderly hjob with hbefore | ⟨database, next, rfl, hnext⟩
        · exact .inl ⟨hturn, source, hbefore⟩
        · obtain ⟨attached, trace, hattached, hserved, hmade, -⟩ :=
            job?_of_scheduleDetail horderly.numbered hnext
          rw [upon, after, hnext, coded, hmade] at hjob
          cases hjob
          exact .inr ⟨database, next, rfl, hnext, served?_of_servedTrace hattached hserved⟩
    | turnsInto database given => exact .inl ⟨hturn, source, hjob⟩
    | turnsIntoFor other given =>
        refine .inl ⟨hturn, ?_⟩
        rw [job?_turnsIntoFor] at hjob
        split at hjob
        · obtain ⟨before, hbefore, hmade⟩ := Option.map_eq_some_iff.1 hjob
          cases before <;> cases hmade
          exact ⟨_, hbefore⟩
        · exact ⟨source, hjob⟩
  · rintro (⟨hother, source, hjob⟩ | ⟨database, next, rfl, hnext, hserved⟩)
    · cases occurrence with
      | call call =>
          exact ⟨source, job?_after horderly.numbered (fun hturn => hother (congrArg _ hturn)) hjob⟩
      | turnsInto database given => exact ⟨source, hjob⟩
      | turnsIntoFor other given =>
          rw [job?_turnsIntoFor, hjob]
          split
          · exact ⟨given, rfl⟩
          · exact ⟨source, rfl⟩
    · obtain ⟨attached, trace, hattached, hservedTrace, hmade, -⟩ :=
        job?_of_scheduleDetail horderly.numbered hnext
      obtain rfl : trace.id = target :=
        Option.some.inj ((served?_of_servedTrace hattached hservedTrace).symm.trans hserved)
      refine ⟨attached.source, ?_⟩
      rw [upon, after, hnext]
      exact hmade

end Jobs

end Session

end TimelineStore
