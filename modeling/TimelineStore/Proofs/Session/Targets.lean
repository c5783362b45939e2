import TimelineStore.Proofs.Session.Binding
import TimelineStore.Proofs.Session.Runs

/-!
# What calls operate on

A call operates on one trace at most: on the one that it names, on the one that the database
it names serves, or on the one that the job of a worker is on.  It does acts of
its own to that trace and none to the others.  A job goes on through every call but a turn of
its worker, and what a turn leaves of it is on the same trace.

**Results.**
* `Session.exists_handled`: what a call does to a trace that the session holds.
* `Session.job?_after`, `Session.trace_of_job?_after`: what a call does to a job.
-/

namespace TimelineStore

namespace Session

variable {session next : Session}

/-- The trace that a database serves. -/
def served? (session : Session) (id : DatabaseId) : Option TraceId :=
  match session.database id with
  | .ok attached => (session.boundTrace? attached).map Trace.id
  | .error _ => none

namespace Call

/-- The trace that a call operates on. -/
def target? (session : Session) : Call → Option TraceId
  | .deleteTrace id => some id
  | .bind _ id => some id
  | .readMetadata id => session.served? id
  | .read id _ _ => session.served? id
  | .readDraft id _ => session.served? id
  | .turn id => (session.job? id).map Job.trace
  | .evictAt id _ => some id
  | .evictWindow id _ => some id
  | .evictAll id => some id
  | .evictDetail id _ _ => some id
  | .evictDetails id _ => some id
  | _ => none

/-- What a call may do to the trace that it operates on. -/
def Does : Call → Trace.Act → Prop
  | .deleteTrace _, .evictAll => True
  | .bind database _, .bind bound => bound = database
  | .readMetadata _, .load _ => True
  | .read _ _ _, .store _ _ _ => True
  | .readDraft _ _, .store _ _ _ => True
  | .turn _, .load _ => True
  | .turn _, .store _ _ _ => True
  | .turn _, .keep _ _ _ _ => True
  | .evictAt _ start, .evictAt evicted => evicted = start
  | .evictWindow _ window, .evictWindow evicted => evicted = window
  | .evictAll _, .evictAll => True
  | .evictDetail _ kind event, .evictDetail evicted other => evicted = kind ∧ other = event
  | .evictDetails _ kind, .evictDetails evicted => evicted = kind
  | _, _ => False

theorem does_turn_of_does
    {id : FutureId} {job : Job} {act : Trace.Act}
    (hdoes : job.Does act) :
    (Call.turn id).Does act := by
  cases job <;> cases act <;> first | exact hdoes.elim | trivial

end Call

section Outcomes

/-- What holds of the session that a call was made in, and of the one that it leads to if it
succeeds, holds after it. -/
theorem coded_elim
    {motive : Session → Prop} {outcome : Except Failure Session}
    (hfailed : motive session)
    (hok : ∀ next, outcome = .ok next → motive next) :
    motive (session.coded outcome).2 := by
  cases outcome with
  | error failure => exact hfailed
  | ok next => exact hok next rfl

theorem codedCount_elim
    {α : Type} {motive : Session → Prop} {outcome : Except Failure (α × Session)}
    (hfailed : motive session)
    (hok : ∀ told next, outcome = .ok (told, next) → motive next) :
    motive (session.codedCount outcome).2 := by
  cases outcome with
  | error failure => exact hfailed
  | ok told => exact hok told.1 told.2 rfl

end Outcomes

section Served

variable {database : DatabaseId} {attached : Attached} {trace : Trace}

theorem served?_of_servedTrace
    (hattached : session.database database = .ok attached)
    (hserved : session.servedTrace database attached = .ok trace) :
    session.served? database = some trace.id := by
  unfold servedTrace at hserved
  unfold served?
  rw [hattached]
  cases hbound : session.boundTrace? attached with
  | none => simp [hbound] at hserved
  | some current =>
      simp only [hbound, Except.ok.injEq] at hserved
      simp only [hbound, hserved, Option.map_some]

/-- A draft that is cleared changes nothing of what a database serves. -/
theorem served?_of_cleared
    (hattached : (session.changeDatabase database ({ · with draft := .empty })).database database =
      .ok attached)
    (hserved : (session.changeDatabase database ({ · with draft := .empty })).servedTrace database
      attached = .ok trace) :
    session.served? database = some trace.id := by
  rw [database_eq_ok_iff, changeDatabase, Arena.get?_modify, if_pos rfl] at hattached
  obtain ⟨before, hbefore, rfl⟩ := Option.map_eq_some_iff.1 hattached
  exact served?_of_servedTrace (database_eq_ok_iff.2 hbefore) hserved

end Served

/-- What a call does to a trace that the session holds: acts of its own, if it operates on the
trace, and none otherwise. -/
structure Handled
    (session : Session) (call : Call) (id : TraceId) (held after : HeldTrace)
    (acts : List Trace.Act) : Prop where
  holds : (session.after call).traces.get? id.index = some after
  undergoes : held.trace.Undergoes acts after.trace
  does : ∀ act ∈ acts, call.target? session = some id ∧ call.Does act
  listed : after.listed = held.listed ∨ call = .deleteTrace id

section Traces

variable {call : Call} {id target : TraceId} {held : HeldTrace}

theorem handled_of_kept
    (hheld : session.traces.get? id.index = some held)
    (hkept : (session.after call).traces = session.traces) :
    ∃ after acts, session.Handled call id held after acts :=
  ⟨held, [], by rwa [hkept], .refl, by simp, .inl rfl⟩

/-- A trace that was put back after acts underwent them, and no other trace did. -/
theorem exists_acts_of_putTrace
    {before : HeldTrace} {trace : Trace} {acts : List Trace.Act}
    (hnumbered : session.Numbered)
    (hheld : session.traces.get? id.index = some held)
    (hbefore : session.traces.get? target.index = some before)
    (hundergoes : before.trace.Undergoes acts trace)
    (hnext : next.traces = (session.putTrace trace).traces) :
    ∃ (after : HeldTrace) (done : List Trace.Act), next.traces.get? id.index = some after ∧
      held.trace.Undergoes done after.trace ∧ after.listed = held.listed ∧
        ∀ act ∈ done, id = target ∧ act ∈ acts := by
  have hid : trace.id = target := hundergoes.id_eq.trans (hnumbered.traces _ _ hbefore)
  have hget : next.traces.get? id.index =
      if id.index = target.index then some { held with trace } else some held := by
    rw [hnext, get?_putTrace, hid, hheld]
    rfl
  by_cases hsame : id.index = target.index
  · obtain rfl : id = target := congrArg TraceId.mk hsame
    cases hbefore.symm.trans hheld
    rw [if_pos rfl] at hget
    exact ⟨_, acts, hget, hundergoes, rfl, fun act hact => ⟨rfl, hact⟩⟩
  · rw [if_neg hsame] at hget
    exact ⟨held, [], hget, .refl, rfl, by simp⟩

/-- A trace was put back after acts. -/
theorem handled_of_putTrace
    {before : HeldTrace} {trace : Trace} {acts : List Trace.Act}
    (hnumbered : session.Numbered)
    (hheld : session.traces.get? id.index = some held)
    (hbefore : session.traces.get? target.index = some before)
    (htarget : call.target? session = some target)
    (hundergoes : before.trace.Undergoes acts trace)
    (hdoes : ∀ act ∈ acts, call.Does act)
    (hafter : (session.after call).traces = (session.putTrace trace).traces) :
    ∃ after acts, session.Handled call id held after acts := by
  obtain ⟨after, done, hholds, hdone, hlisted, hacts⟩ :=
    exists_acts_of_putTrace hnumbered hheld hbefore hundergoes hafter
  refine ⟨after, done, hholds, hdone, fun act hact => ?_, .inl hlisted⟩
  obtain ⟨rfl, hmem⟩ := hacts act hact
  exact ⟨htarget, hdoes act hmem⟩

theorem handled_of_evicting
    {α : Type} {count : Trace → α}
    (act : Trace.Act)
    (hnumbered : session.Numbered)
    (hheld : session.traces.get? id.index = some held)
    (htarget : call.target? session = some target)
    (hadmits : ∀ trace : Trace, trace.Admits act)
    (hdoes : call.Does act)
    (hafter : session.after call =
      (session.codedCount (session.evicting target count (·.perform act))).2) :
    ∃ after acts, session.Handled call id held after acts := by
  cases hevict : session.evicting target count (·.perform act) with
  | error failure =>
      refine handled_of_kept hheld ?_
      rw [hafter, hevict]
      rfl
  | ok told =>
      obtain ⟨trace, htrace, hnext⟩ := exists_of_evicting hevict
      refine handled_of_putTrace hnumbered hheld (trace_eq_ok_iff.1 htrace) htarget
        (.single (hadmits trace)) (by simpa using hdoes) ?_
      rw [hafter, hevict, ← hnext]
      rfl

/-- The session from which a read goes may have another draft. -/
theorem handled_of_reading
    {α : Type} {start : Session} {database : DatabaseId} {text : α → String}
    {read : Source → Trace → Reading α}
    (hnumbered : session.Numbered)
    (hheld : session.traces.get? id.index = some held)
    (hstart : start.traces = session.traces)
    (htarget : ∀ attached trace, start.database database = .ok attached →
      start.servedTrace database attached = .ok trace → call.target? session = some trace.id)
    (hread : ∀ (source : Source) (trace : Trace), ∃ acts,
      trace.Undergoes acts (read source trace).trace ∧ ∀ act ∈ acts, call.Does act)
    (hafter : (session.after call).traces = (start.reading database text read).session.traces) :
    ∃ after acts, session.Handled call id held after acts := by
  rcases start.reading_cases database text read with hkept |
    ⟨attached, trace, hattached, hserved, hput⟩
  · refine handled_of_kept hheld ?_
    rw [hafter, hkept, hstart]
  · obtain ⟨number, before, hbefore, rfl⟩ := held_of_servedTrace hserved
    rw [hstart] at hbefore
    have hnumber : before.trace.id.index = number :=
      congrArg TraceId.index (hnumbered.traces _ _ hbefore)
    obtain ⟨acts, hundergoes, hdoes⟩ := hread attached.source before.trace
    refine handled_of_putTrace hnumbered hheld (hnumber.symm ▸ hbefore)
      (htarget attached _ hattached hserved) hundergoes hdoes ?_
    rw [hafter, hput, putTrace, putTrace, hstart]

theorem handled_of_load
    {start : Session} {database : DatabaseId} {request : Request} {mode : ReadMode}
    (hnumbered : session.Numbered)
    (hheld : session.traces.get? id.index = some held)
    (hstart : start.traces = session.traces)
    (htarget : ∀ attached trace, start.database database = .ok attached →
      start.servedTrace database attached = .ok trace → call.target? session = some trace.id)
    (hdoes : ∀ track window rows, call.Does (.store track window rows))
    (hafter : (session.after call).traces = (start.read database request mode).session.traces) :
    ∃ after acts, session.Handled call id held after acts := by
  refine handled_of_reading hnumbered hheld hstart htarget (fun source trace => ?_) hafter
  rw [← Course.load_calm source mode request trace]
  refine ⟨_, Trace.undergoes_load _ mode request trace, fun act hact => ?_⟩
  obtain ⟨set, -, rfl⟩ := List.mem_map.1 hact
  exact hdoes _ _ _

theorem handled_of_deleteTrace
    (hheld : session.traces.get? id.index = some held)
    (target : TraceId) :
    ∃ after acts, session.Handled (.deleteTrace target) id held after acts := by
  cases hdelete : session.deleteTrace target with
  | error failure =>
      refine handled_of_kept hheld ?_
      rw [after, hdelete]
      rfl
  | ok next =>
      obtain ⟨trace, htrace, rfl⟩ := exists_of_deleteTrace hdelete
      have hget := session.traces.get?_modify id.index target.index fun _ =>
        ⟨trace.evictAll, false⟩
      rw [hheld] at hget
      by_cases hsame : id.index = target.index
      · obtain rfl : id = target := congrArg TraceId.mk hsame
        cases (trace_eq_ok_iff.1 htrace).symm.trans hheld
        rw [if_pos rfl] at hget
        refine ⟨⟨trace.evictAll, false⟩, [.evictAll], ?_, .single trivial, ?_, .inr rfl⟩
        · rw [after, hdelete]
          exact hget
        · exact fun act hact => ⟨rfl, by rw [List.mem_singleton.1 hact]; trivial⟩
      · rw [if_neg hsame] at hget
        refine ⟨held, [], ?_, .refl, by simp, .inl rfl⟩
        rw [after, hdelete]
        exact hget

theorem handled_of_bind
    (hnumbered : session.Numbered)
    (hheld : session.traces.get? id.index = some held)
    (database : DatabaseId) (target : TraceId) :
    ∃ after acts, session.Handled (.bind database target) id held after acts := by
  cases hbind : session.bind database target with
  | error failure =>
      refine handled_of_kept hheld ?_
      rw [after, hbind]
      rfl
  | ok next =>
      obtain ⟨attached, trace, -, htrace, -, hadmits, rfl⟩ := bind_eq_ok_iff.1 hbind
      refine handled_of_putTrace hnumbered hheld (trace_eq_ok_iff.1 htrace) rfl (.single hadmits)
        (fun act hact => by rw [List.mem_singleton.1 hact]; rfl) ?_
      rw [after, hbind]
      rfl

/-- What the turn of a worker does to a trace: acts of its job, if the job is on the trace. -/
theorem exists_acts_of_turn
    (hnumbered : session.Numbered)
    (hwork : session.AtWork)
    (hheld : session.traces.get? id.index = some held)
    (worker : FutureId) :
    ∃ (after : HeldTrace) (acts : List Trace.Act),
      (session.turn worker).traces.get? id.index = some after ∧
        held.trace.Undergoes acts after.trace ∧ after.listed = held.listed ∧
          ∀ act ∈ acts, ∃ job, session.job? worker = some job ∧ job.trace = id ∧ job.Does act := by
  rcases session.turn_cases worker with hnext |
    ⟨future, run, job, before, hfuture, hrun, hphase, hbefore, hnext⟩
  · exact ⟨held, [], by rwa [hnext], .refl, rfl, by simp⟩
  have hjob : session.job? worker = some job :=
    job?_eq_some_iff.2 ⟨future, hfuture, by simp [Future.phase?, hrun, hphase]⟩
  obtain ⟨_, hsame, hfits⟩ := hwork worker job hjob
  cases hsame.symm.trans hbefore
  obtain ⟨acts, hundergoes, hdoes⟩ := Job.undergoes_turn run hfits
  have hput : (session.turn worker).traces =
      (session.putTrace (job.turn run before.trace).1).traces := by
    rw [hnext, traces_putFuture]
  obtain ⟨after, done, hholds, hdone, hlisted, hacts⟩ :=
    exists_acts_of_putTrace hnumbered hheld hbefore hundergoes hput
  refine ⟨after, done, hholds, hdone, hlisted, fun act hact => ?_⟩
  obtain ⟨rfl, hmem⟩ := hacts act hact
  exact ⟨job, hjob, rfl, hdoes act hmem⟩

theorem handled_of_turn
    (hnumbered : session.Numbered)
    (hwork : session.AtWork)
    (hheld : session.traces.get? id.index = some held)
    (worker : FutureId) :
    ∃ after acts, session.Handled (.turn worker) id held after acts := by
  obtain ⟨after, acts, hholds, hundergoes, hlisted, hacts⟩ :=
    exists_acts_of_turn hnumbered hwork hheld worker
  refine ⟨after, acts, hholds, hundergoes, fun act hact => ?_, .inl hlisted⟩
  obtain ⟨job, hjob, rfl, hdoes⟩ := hacts act hact
  exact ⟨congrArg (Option.map Job.trace) hjob, Call.does_turn_of_does hdoes⟩

/-- **What a call does to a trace.**  One that the session holds is held thereafter, and only
the call that operates on it does acts to it. -/
theorem exists_handled
    (hnumbered : session.Numbered)
    (hwork : session.AtWork)
    (hheld : session.traces.get? id.index = some held)
    (call : Call) :
    ∃ after acts, session.Handled call id held after acts := by
  have hkept (call : Call)
      (hsame : (session.after call).traces = session.traces) :
      ∃ after acts, session.Handled call id held after acts :=
    handled_of_kept hheld hsame
  have hcoded {outcome : Except Failure Session}
      (hok : ∀ next, outcome = .ok next → next.traces = session.traces) :
      (session.coded outcome).2.traces = session.traces :=
    coded_elim (motive := fun next => next.traces = session.traces) rfl hok
  have hschedule {database : DatabaseId} {future : FutureId} {make : Source → TraceId → Job} :
      (session.coded (session.schedule database future make)).2.traces = session.traces :=
    hcoded fun next hnext => by
      obtain ⟨_, _, _, _, -, -, -, -, rfl⟩ := exists_of_schedule hnext
      rfl
  cases call with
  | createTrace =>
      have hold : id.index ≠ session.traces.next := Nat.ne_of_lt (Arena.lt_next_of_get? hheld)
      refine ⟨held, [], ?_, .refl, by simp, .inl rfl⟩
      exact (session.traces.get?_add _ _).trans ((if_neg hold).trans hheld)
  | deleteTrace target => exact handled_of_deleteTrace hheld target
  | bind database target => exact handled_of_bind hnumbered hheld database target
  | readMetadata database =>
      refine handled_of_reading hnumbered hheld rfl
        (fun _ _ hattached => served?_of_servedTrace hattached) (fun source trace => ?_) rfl
      obtain ⟨acts, hundergoes, hacts⟩ := Trace.undergoes_loadMetadata source trace
      refine ⟨acts, hundergoes, fun act hact => ?_⟩
      obtain ⟨answer, -, rfl⟩ := hacts act hact
      trivial
  | read database request mode =>
      exact handled_of_load hnumbered hheld rfl
        (fun _ _ hattached => served?_of_servedTrace hattached) (fun _ _ _ => trivial) rfl
  | readDraft database mode =>
      rcases session.readDraft_cases database mode with hnext | hnext | ⟨request, hnext⟩
      · refine hkept _ ?_
        rw [after, hnext]
      · refine hkept _ ?_
        rw [after, hnext, traces_changeDatabase]
      · exact handled_of_load hnumbered hheld (traces_changeDatabase ..)
          (fun _ _ hattached => served?_of_cleared hattached) (fun _ _ _ => trivial)
          (congrArg Session.traces hnext)
  | turn worker => exact handled_of_turn hnumbered hwork hheld worker
  | evictAt target start =>
      exact handled_of_evicting (.evictAt start) hnumbered hheld rfl (fun _ => trivial) rfl rfl
  | evictWindow target window =>
      exact handled_of_evicting (.evictWindow window) hnumbered hheld rfl (fun _ => trivial) rfl rfl
  | evictAll target =>
      exact handled_of_evicting .evictAll hnumbered hheld rfl (fun _ => trivial) trivial rfl
  | evictDetail target kind event =>
      exact handled_of_evicting (.evictDetail kind event) hnumbered hheld rfl (fun _ => trivial)
        ⟨rfl, rfl⟩ rfl
  | evictDetails target kind =>
      exact handled_of_evicting (.evictDetails kind) hnumbered hheld rfl (fun _ => trivial) rfl rfl
  | attach source => exact hkept _ rfl
  | allocate listens => exact hkept _ rfl
  | close database =>
      exact hkept _ (hcoded fun next hnext => by rw [eq_of_close hnext])
  | draftWindow database window =>
      exact hkept _ (hcoded fun next hnext => by rw [eq_of_draftWindow hnext]; rfl)
  | draftTrack database track =>
      exact hkept _ (hcoded fun next hnext => by rw [eq_of_draftTrack hnext]; rfl)
  | free future =>
      exact hkept _ (hcoded fun next hnext => by rw [eq_of_free hnext])
  | interrupt future =>
      refine hkept _ ?_
      rcases session.interrupt_cases future with hnext | ⟨_, -, hnext⟩ <;> simp [after, hnext]
  | wait future seconds =>
      refine hkept _ ?_
      rcases session.wait_cases future seconds with hnext | ⟨_, -, hnext⟩ <;> simp [after, hnext]
  | scheduleMetadata database future => exact hkept _ hschedule
  | scheduleRead database request future => exact hkept _ hschedule
  | scheduleDetail database kind event future => exact hkept _ hschedule

end Traces

section Jobs

variable {id other : FutureId} {job : Job} {future changed : Future Job}

theorem job?_of_futures_eq
    (hkept : next.futures = session.futures) :
    next.job? id = session.job? id := by
  rw [job?, hkept]
  rfl

theorem job?_putFuture_of_ne
    (hother : changed.id ≠ id) :
    (session.putFuture changed).job? id = session.job? id := by
  have hnumber : id.index ≠ changed.id.index := fun hsame =>
    hother (congrArg FutureId.mk hsame.symm)
  rw [job?, get?_putFuture, if_neg hnumber]
  rfl

/-- A future was put back that carries the job that it did. -/
theorem job?_putFuture
    (hnumbered : session.Numbered)
    (hfuture : session.future other = .ok future)
    (hid : changed.id = future.id)
    (hphase : future.phase? = some (.running job) → changed.phase? = some (.running job))
    (hjob : session.job? id = some job) :
    (session.putFuture changed).job? id = some job := by
  have hslot := future_eq_ok_iff.1 hfuture
  have hchanged : changed.id = other := hid.trans (hnumbered.futures _ _ hslot)
  by_cases hsame : other = id
  · subst hsame
    obtain ⟨_, hfound, hrunning⟩ := job?_eq_some_iff.1 hjob
    cases hfound.symm.trans hslot
    refine job?_eq_some_iff.2 ⟨changed, ?_, hphase hrunning⟩
    rw [get?_putFuture, hchanged, if_pos rfl, hslot]
    rfl
  · rw [job?_putFuture_of_ne (hchanged ▸ hsame)]
    exact hjob

/-- A wait takes no job away from a worker. -/
theorem phase?_wait_of_running
    (seconds : Option Nat)
    (hrunning : future.phase? = some (.running job)) :
    (future.wait seconds).future.phase? = some (.running job) := by
  have hnone : future.outcome? = none := by rw [Future.outcome?, hrunning]
  obtain ⟨run, hrun, hphase⟩ := Option.map_eq_some_iff.1 hrunning
  simpa [Future.wait, Future.drain, Future.phase?, hrun, hnone] using hphase

theorem isInFlight_of_running
    (hrunning : future.phase? = some (.running job)) :
    future.isInFlight = true := by
  obtain ⟨run, hrun, hphase⟩ := Option.map_eq_some_iff.1 hrunning
  simp [Future.isInFlight, Run.isPending, hrun, hphase]

theorem job?_schedule
    {database : DatabaseId} {make : Source → TraceId → Job}
    (hnumbered : session.Numbered)
    (hjob : session.job? id = some job)
    (hschedule : session.schedule database other make = .ok next) :
    next.job? id = some job := by
  obtain ⟨_, future, _, changed, -, hfuture, -, hchanged, rfl⟩ := exists_of_schedule hschedule
  obtain ⟨hidle, rfl⟩ := Future.schedule_eq_ok_iff.1 hchanged
  refine job?_putFuture hnumbered hfuture rfl (fun hrunning => ?_) hjob
  cases hidle.symm.trans (isInFlight_of_running hrunning)

theorem job?_free
    (hjob : session.job? id = some job)
    (hfree : session.free other = .ok next) :
    next.job? id = some job := by
  obtain ⟨future, hfuture, hidle⟩ := Outcome.bind_eq_ok_iff.1 hfree
  rw [eq_of_free hfree]
  obtain ⟨found, hfound, hrunning⟩ := job?_eq_some_iff.1 hjob
  refine job?_eq_some_iff.2 ⟨found, ?_, hrunning⟩
  by_cases hsame : id.index = other.index
  · rw [hsame] at hfound
    cases hfound.symm.trans (future_eq_ok_iff.1 hfuture)
    simp [Future.ensureIdle, isInFlight_of_running hrunning] at hidle
  · exact (session.futures.get?_erase id.index other.index).trans ((if_neg hsame).trans hfound)

theorem job?_turn_of_ne
    (hnumbered : session.Numbered)
    (hother : other ≠ id) :
    (session.turn other).job? id = session.job? id := by
  rcases session.turn_cases other with hnext | ⟨future, run, job, held, hfuture, -, -, -, hnext⟩
  · rw [hnext]
  · rw [hnext]
    have hid : future.id = other := hnumbered.futures _ _ hfuture
    exact job?_putFuture_of_ne fun hsame => hother (hid.symm.trans hsame)

/-- **A job goes on** through every call but a turn of its worker. -/
theorem job?_after
    {call : Call}
    (hnumbered : session.Numbered)
    (hcall : call ≠ .turn id)
    (hjob : session.job? id = some job) :
    (session.after call).job? id = some job := by
  have hkept (call : Call)
      (hsame : (session.after call).futures = session.futures) :
      (session.after call).job? id = some job :=
    (job?_of_futures_eq hsame).trans hjob
  have hcoded {outcome : Except Failure Session}
      (hok : ∀ next, outcome = .ok next → next.job? id = some job) :
      (session.coded outcome).2.job? id = some job :=
    coded_elim (motive := fun next => next.job? id = some job) hjob hok
  have hevicting {α : Type} {target : TraceId} {count : Trace → α} {change : Trace → Trace} :
      (session.codedCount (session.evicting target count change)).2.job? id = some job :=
    codedCount_elim (motive := fun next => next.job? id = some job) hjob
      fun told next hnext => (job?_of_futures_eq (futures_evicting hnext)).trans hjob
  cases call with
  | free other => exact hcoded fun next => job?_free hjob
  | interrupt other =>
      rcases session.interrupt_cases other with hnext | ⟨future, hfuture, hnext⟩
      · rwa [after, hnext]
      · rw [after, hnext]
        refine job?_putFuture hnumbered hfuture Treated.interrupted.id_eq (fun hrunning => ?_) hjob
        rwa [phase?_interrupt]
  | wait other seconds =>
      rcases session.wait_cases other seconds with hnext | ⟨future, hfuture, hnext⟩
      · rwa [after, hnext]
      · rw [after, hnext]
        exact job?_putFuture hnumbered hfuture (Treated.waited seconds).id_eq
          (phase?_wait_of_running seconds) hjob
  | scheduleMetadata database other => exact hcoded fun next => job?_schedule hnumbered hjob
  | scheduleRead database request other => exact hcoded fun next => job?_schedule hnumbered hjob
  | scheduleDetail database kind event other =>
      exact hcoded fun next => job?_schedule hnumbered hjob
  | turn other =>
      have hother : other ≠ id := fun hsame => hcall (congrArg Call.turn hsame)
      exact (job?_turn_of_ne hnumbered hother).trans hjob
  | allocate listens =>
      obtain ⟨found, hfound, hrunning⟩ := job?_eq_some_iff.1 hjob
      have hold : id.index ≠ session.futures.next := Nat.ne_of_lt (Arena.lt_next_of_get? hfound)
      refine job?_eq_some_iff.2 ⟨found, ?_, hrunning⟩
      exact (session.futures.get?_add _ _).trans ((if_neg hold).trans hfound)
  | close database => exact hcoded fun next hnext => by rw [eq_of_close hnext]; exact hjob
  | deleteTrace target =>
      refine hcoded fun next hnext => ?_
      obtain ⟨_, -, rfl⟩ := exists_of_deleteTrace hnext
      exact hjob
  | bind database target =>
      exact hcoded fun next hnext => (job?_of_futures_eq (futures_bind hnext)).trans hjob
  | draftWindow database window =>
      exact hcoded fun next hnext => by rw [eq_of_draftWindow hnext]; exact hjob
  | draftTrack database track =>
      exact hcoded fun next hnext => by rw [eq_of_draftTrack hnext]; exact hjob
  | attach source => exact hjob
  | createTrace => exact hjob
  | readMetadata database => exact hkept _ futures_reading
  | read database request mode => exact hkept _ futures_reading
  | readDraft database mode => exact hkept _ futures_readDraft
  | evictAt target start => exact hevicting
  | evictWindow target window => exact hevicting
  | evictAll target => exact hevicting
  | evictDetail target kind event => exact hevicting
  | evictDetails target kind => exact hevicting

/-- What a call leaves of a job is on the same trace. -/
theorem trace_of_job?_after
    {rest : Job}
    (hnumbered : session.Numbered)
    (call : Call)
    (hjob : session.job? id = some job)
    (hrest : (session.after call).job? id = some rest) :
    rest.trace = job.trace := by
  by_cases hcall : call = .turn id
  · subst hcall
    rcases session.turn_cases id with hnext |
      ⟨future, run, before, held, hfuture, hrun, hphase, hheld, hnext⟩
    · rw [after, hnext] at hrest
      cases hrest.symm.trans hjob
      rfl
    have hbefore : session.job? id = some before :=
      job?_eq_some_iff.2 ⟨future, hfuture, by simp [Future.phase?, hrun, hphase]⟩
    cases hbefore.symm.trans hjob
    rw [after, hnext] at hrest
    obtain ⟨found, hfound, hrunning⟩ := job?_eq_some_iff.1 hrest
    have hid : id.index = future.id.index := by rw [hnumbered.futures _ _ hfuture]
    rw [get?_putFuture] at hfound
    obtain ⟨_, -, rfl⟩ := Option.map_eq_some_iff.1 ((if_pos hid).symm.trans hfound)
    -- the future carries a job after the turn only if the turn left work
    simp only [Future.phase?, Future.take, hrun, Option.map_some, Option.some.injEq] at hrunning
    exact (Job.rest_of_turn (next_of_phase_take hrunning)).1
  · cases (job?_after hnumbered hcall hjob).symm.trans hrest
    rfl

end Jobs

end Session

end TimelineStore
