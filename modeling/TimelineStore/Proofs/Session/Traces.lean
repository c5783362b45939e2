import Mathlib.Logic.Relation
import TimelineStore.Proofs.Session.Databases
import TimelineStore.Proofs.Session.Jobs

/-!
# The traces of a session

A step of a session does acts to one of the traces that it holds, and never forgets one: a
trace that was deleted is only not listed any more.  Detail is kept only by a worker that
was to read it, and a trace is bound only by a call that binds it.

**Results.**
* `Session.Leads.traces_cases`: what a step does to the traces.
* `Session.Leads.carries`, `Session.Leads.held_cases`: what it does to each of them, and where
  the traces of a session come from.
* `Session.atWork_of_reachable`: the jobs of a reachable session fit the traces they are on.
-/

namespace TimelineStore

namespace Session

variable {session next : Session}

/-- Workers are on traces that the session holds, with jobs that fit them. -/
def AtWork (session : Session) : Prop :=
  ∀ (id : FutureId) (job : Job), session.job? id = some job →
    ∃ held : HeldTrace, session.traces.get? job.trace.index = some held ∧ job.Fits held.trace

/-- An act has its occasion in a step: detail is kept by a worker that was to read it, and a
trace is bound by a call that binds it. -/
def Occasions (session next : Session) (number : Nat) : Trace.Act → Prop
  | .keep source kind event _ =>
    ∃ future, session.job? future = some (.detail source ⟨number⟩ kind event)
  | .bind database => session.bind database ⟨number⟩ = .ok next
  | _ => True

/-- What a step does to a trace: acts that have their occasions, after which the session
holds it still, and lists it only if it did before. -/
structure Carries
    (session next : Session) (number : Nat) (held after : HeldTrace) (acts : List Trace.Act) :
    Prop where
  had : session.traces.get? number = some held
  holds : next.traces.get? number = some after
  undergoes : held.trace.Undergoes acts after.trace
  listed : after.listed = true → held.listed = true
  occasions : ∀ act ∈ acts, session.Occasions next number act

/-- The sessions differ in one trace at most, which underwent acts. -/
def Touches (session next : Session) : Prop :=
  next.traces = session.traces ∨
    ∃ (target : Nat) (held after : HeldTrace) (acts : List Trace.Act),
      session.Carries next target held after acts ∧
        ∀ number, number ≠ target → next.traces.get? number = session.traces.get? number

section Traces

variable {number : Nat} {held after : HeldTrace}

theorem occasions_of_does
    {id : FutureId} {job : Job} {act : Trace.Act}
    (hjob : session.job? id = some job)
    (hdoes : job.Does act) :
    session.Occasions next job.trace.index act := by
  cases act with
  | keep source kind event raw =>
      cases job with
      | detail asked trace askedKind askedEvent =>
          obtain ⟨rfl, rfl, rfl⟩ := hdoes
          exact ⟨id, hjob⟩
      | _ => exact hdoes.elim
  | bind database => cases job <;> exact hdoes.elim
  | _ => trivial

/-- A trace was put back after acts. -/
theorem touches_putTrace
    {trace : Trace} {acts : List Trace.Act}
    (hnumbered : session.Numbered)
    (hheld : session.traces.get? number = some held)
    (hundergoes : held.trace.Undergoes acts trace)
    (hoccasions : ∀ act ∈ acts, session.Occasions next number act)
    (hnext : next.traces = (session.putTrace trace).traces) :
    session.Touches next := by
  have hid : trace.id = ⟨number⟩ := hundergoes.id_eq.trans (hnumbered.traces _ _ hheld)
  have hget (other : Nat) : next.traces.get? other =
      if other = number then (session.traces.get? other).map ({ · with trace })
      else session.traces.get? other := by
    rw [hnext, get?_putTrace, hid]
  refine .inr ⟨number, held, { held with trace }, acts, ⟨hheld, ?_, hundergoes, ?_, hoccasions⟩, ?_⟩
  · rw [hget, if_pos rfl, hheld]
    rfl
  · exact fun hlisted => hlisted
  · intro other hother
    rw [hget, if_neg hother]

/-- The session from which a read goes may have other databases. -/
theorem touches_reading
    {α : Type} {start : Session} {id : DatabaseId} {text : α → String}
    {read : Source → Trace → Reading α}
    (hnumbered : session.Numbered)
    (hstart : start.traces = session.traces)
    (hread : ∀ (source : Source) (trace : Trace), ∃ acts,
      trace.Undergoes acts (read source trace).trace ∧
        ∀ act ∈ acts, ∀ number, session.Occasions next number act)
    (hnext : next.traces = (start.reading id text read).session.traces) :
    session.Touches next := by
  rcases start.reading_cases id text read with hkept | ⟨attached, trace, -, hserved, hput⟩
  · exact .inl (hnext.trans ((congrArg Session.traces hkept).trans hstart))
  · obtain ⟨number, held, hheld, rfl⟩ := held_of_servedTrace hserved
    obtain ⟨acts, hundergoes, hoccasions⟩ := hread attached.source held.trace
    rw [hstart] at hheld
    refine touches_putTrace hnumbered hheld hundergoes
      (fun act hact => hoccasions act hact number) ?_
    rw [hnext, hput, putTrace, putTrace, hstart]

theorem touches_load
    {start : Session} {id : DatabaseId} {request : Request} {mode : ReadMode}
    (hnumbered : session.Numbered)
    (hstart : start.traces = session.traces)
    (hnext : next.traces = (start.read id request mode).session.traces) :
    session.Touches next := by
  refine touches_reading hnumbered hstart (fun source trace => ?_) hnext
  rw [← Course.load_calm source mode request trace]
  refine ⟨_, Trace.undergoes_load _ mode request trace, fun act hact number => ?_⟩
  obtain ⟨set, -, rfl⟩ := List.mem_map.1 hact
  trivial

theorem touches_evicting
    {α : Type} {id : TraceId} {count : Trace → α} {told : α}
    (act : Trace.Act)
    (hnumbered : session.Numbered)
    (hevict : session.evicting id count (·.perform act) = .ok (told, next))
    (hadmits : ∀ trace : Trace, trace.Admits act)
    (hoccasions : ∀ number, session.Occasions next number act) :
    session.Touches next := by
  obtain ⟨trace, htrace, rfl⟩ := exists_of_evicting hevict
  refine touches_putTrace hnumbered (trace_eq_ok_iff.1 htrace) (.single (hadmits trace))
    (fun other hother => ?_) rfl
  cases List.mem_singleton.1 hother
  exact hoccasions _

/-- A database is bound to a listed trace that is bound to no other, unless it serves
another. -/
theorem bind_eq_ok_iff
    {database : DatabaseId} {id : TraceId} :
    session.bind database id = .ok next ↔
      ∃ attached trace, session.database database = .ok attached ∧ session.trace id = .ok trace ∧
        (∀ current, session.boundTrace? attached = some current → current.id = id) ∧
        trace.Admits (.bind database) ∧
        next = (session.putTrace (trace.perform (.bind database))).changeDatabase database
          ({ · with bound := some id }) := by
  have hserves (attached : Attached) : session.checkServes database attached id = .ok () ↔
      ∀ current, session.boundTrace? attached = some current → current.id = id := by
    unfold checkServes
    cases session.boundTrace? attached with
    | none => simp
    | some current =>
        by_cases hsame : current.id = id
        · simp [hsame]
        · simp [hsame]
  constructor
  · intro hbind
    obtain ⟨attached, trace, bound, hattached, htrace, hcheck, hbound, rfl⟩ := exists_of_bind hbind
    obtain ⟨hadmits, rfl⟩ := Trace.bind_eq_ok_iff.1 hbound
    exact ⟨attached, trace, hattached, htrace, (hserves attached).1 hcheck, hadmits, rfl⟩
  · rintro ⟨attached, trace, hattached, htrace, hcheck, hadmits, rfl⟩
    simp only [bind_eq, Outcome.bind_eq_ok_iff, Trace.bind_eq_ok_iff]
    exact ⟨attached, hattached, trace, htrace, (), (hserves attached).2 hcheck, _,
      ⟨hadmits, rfl⟩, rfl⟩

theorem touches_bind
    {database : DatabaseId} {id : TraceId}
    (hnumbered : session.Numbered)
    (hbind : session.bind database id = .ok next) :
    session.Touches next := by
  have hoccasions : ∀ act ∈ [Trace.Act.bind database], session.Occasions next id.index act := by
    simpa [Occasions] using hbind
  obtain ⟨attached, trace, -, htrace, -, hadmits, rfl⟩ := bind_eq_ok_iff.1 hbind
  exact touches_putTrace hnumbered (trace_eq_ok_iff.1 htrace) (.single hadmits) hoccasions rfl

theorem touches_deleteTrace
    {id : TraceId}
    (hdelete : session.deleteTrace id = .ok next) :
    session.Touches next := by
  obtain ⟨trace, htrace, rfl⟩ := exists_of_deleteTrace hdelete
  have hheld := trace_eq_ok_iff.1 htrace
  have hget (number : Nat) :=
    session.traces.get?_modify number id.index fun _ => ⟨trace.evictAll, false⟩
  refine .inr ⟨id.index, _, ⟨trace.evictAll, false⟩, [.evictAll],
    ⟨hheld, ?_, .single trivial, nofun, by simp [Occasions]⟩, ?_⟩
  · rw [hget, if_pos rfl, hheld]
    rfl
  · intro number hnumber
    rw [hget, if_neg hnumber]

theorem touches_turn
    {id : FutureId}
    (hnumbered : session.Numbered)
    (hwork : session.AtWork) :
    session.Touches (session.turn id) := by
  rcases session.turn_cases id with hnext |
    ⟨future, run, job, held, hfuture, hrun, hphase, hheld, hnext⟩
  · exact .inl (congrArg Session.traces hnext)
  have hjob : session.job? id = some job :=
    job?_eq_some_iff.2 ⟨future, hfuture, by simp [Future.phase?, hrun, hphase]⟩
  obtain ⟨_, hsame, hfits⟩ := hwork id job hjob
  cases hsame.symm.trans hheld
  obtain ⟨acts, hundergoes, hdoes⟩ := Job.undergoes_turn run hfits
  refine touches_putTrace hnumbered hheld hundergoes (fun act hact => ?_) ?_
  · exact occasions_of_does hjob (hdoes act hact)
  · rw [hnext, traces_putFuture]

/-- **What a step does to the traces**: one is created, or one at most is touched. -/
theorem Leads.traces_cases
    (hnumbered : session.Numbered)
    (hwork : session.AtWork)
    (hleads : Leads session next) :
    next.traces = session.traces.add (fun number => ⟨.fresh ⟨number⟩, true⟩) ∨
      session.Touches next := by
  cases hleads with
  | createTrace => exact .inl rfl
  | deleteTrace hdelete => exact .inr (touches_deleteTrace hdelete)
  | bind hbind => exact .inr (touches_bind hnumbered hbind)
  | readMetadata id =>
      refine .inr (touches_reading hnumbered rfl (fun source trace => ?_) rfl)
      obtain ⟨acts, hundergoes, hacts⟩ := Trace.undergoes_loadMetadata source trace
      refine ⟨acts, hundergoes, fun act hact number => ?_⟩
      obtain ⟨answer, -, rfl⟩ := hacts act hact
      trivial
  | read id request mode => exact .inr (touches_load hnumbered rfl rfl)
  | readDraft id mode =>
      rcases session.readDraft_cases id mode with hnext | hnext | ⟨request, hnext⟩
      · exact .inr (.inl (by rw [hnext]))
      · exact .inr (.inl (by rw [hnext, traces_changeDatabase]))
      · have htraces := congrArg Session.traces hnext
        exact .inr (touches_load hnumbered (traces_changeDatabase ..) htraces)
  | turn id => exact .inr (touches_turn hnumbered hwork)
  | @evictAt _ id start count hevict =>
      exact .inr (touches_evicting (.evictAt start) hnumbered hevict (fun _ => trivial)
        fun _ => trivial)
  | @evictWindow _ id window count hevict =>
      exact .inr (touches_evicting (.evictWindow window) hnumbered hevict (fun _ => trivial)
        fun _ => trivial)
  | @evictAll _ id count hevict =>
      exact .inr (touches_evicting .evictAll hnumbered hevict (fun _ => trivial)
        fun _ => trivial)
  | @evictDetail _ id kind event found hevict =>
      exact .inr (touches_evicting (.evictDetail kind event) hnumbered hevict (fun _ => trivial)
        fun _ => trivial)
  | @evictDetails _ id kind count hevict =>
      exact .inr (touches_evicting (.evictDetails kind) hnumbered hevict (fun _ => trivial)
        fun _ => trivial)
  | attach source => exact .inr (.inl rfl)
  | close hclose =>
      rw [eq_of_close hclose]
      exact .inr (.inl rfl)
  | draftWindow hdraft =>
      rw [eq_of_draftWindow hdraft]
      exact .inr (.inl rfl)
  | draftTrack hdraft =>
      rw [eq_of_draftTrack hdraft]
      exact .inr (.inl rfl)
  | allocate listens => exact .inr (.inl rfl)
  | free hfree =>
      rw [eq_of_free hfree]
      exact .inr (.inl rfl)
  | interrupt id =>
      refine .inr (.inl ?_)
      rcases session.interrupt_cases id with hnext | ⟨_, -, hnext⟩ <;> simp [hnext]
  | wait id seconds =>
      refine .inr (.inl ?_)
      rcases session.wait_cases id seconds with hnext | ⟨_, -, hnext⟩ <;> simp [hnext]
  | scheduleMetadata hschedule =>
      obtain ⟨_, _, _, _, -, -, -, -, rfl⟩ := exists_of_schedule hschedule
      exact .inr (.inl rfl)
  | scheduleRead hschedule =>
      obtain ⟨_, _, _, _, -, -, -, -, rfl⟩ := exists_of_schedule hschedule
      exact .inr (.inl rfl)
  | scheduleDetail hschedule =>
      obtain ⟨_, _, _, _, -, -, -, -, rfl⟩ := exists_of_schedule hschedule
      exact .inr (.inl rfl)

/-- Every trace that is held is held after a step, having undergone acts. -/
theorem Leads.carries
    (hnumbered : session.Numbered)
    (hwork : session.AtWork)
    (hleads : Leads session next)
    (hheld : session.traces.get? number = some held) :
    ∃ after acts, session.Carries next number held after acts := by
  have hself (hkept : next.traces.get? number = session.traces.get? number) :
      ∃ after acts, session.Carries next number held after acts :=
    ⟨held, [], hheld, hkept.trans hheld, .refl, id, by simp⟩
  rcases hleads.traces_cases hnumbered hwork with hadd | hnext |
    ⟨target, touched, after, acts, hcarries, hothers⟩
  · -- a new trace has a number of its own
    have hold : number ≠ session.traces.next := Nat.ne_of_lt (Arena.lt_next_of_get? hheld)
    exact hself (by rw [hadd, Arena.get?_add, if_neg hold])
  · exact hself (by rw [hnext])
  · by_cases htarget : number = target
    · subst htarget
      cases hheld.symm.trans hcarries.had
      exact ⟨after, acts, hcarries⟩
    · exact hself (hothers number htarget)

/-- A trace that is held after a step was held before, or the step created it. -/
theorem Leads.held_cases
    (hnumbered : session.Numbered)
    (hwork : session.AtWork)
    (hleads : Leads session next)
    (hafter : next.traces.get? number = some after) :
    (number = session.traces.next ∧ after = ⟨.fresh ⟨number⟩, true⟩) ∨
      ∃ held acts, session.Carries next number held after acts := by
  cases hbefore : session.traces.get? number with
  | some held =>
      obtain ⟨after, acts, hcarries⟩ := hleads.carries hnumbered hwork hbefore
      cases hcarries.holds.symm.trans hafter
      exact .inr ⟨held, acts, hcarries⟩
  | none =>
      rcases hleads.traces_cases hnumbered hwork with hadd | hnext |
        ⟨target, touched, changed, acts, hcarries, hothers⟩
      · rw [hadd, Arena.get?_add] at hafter
        split at hafter
        · rename_i hnumber
          cases hafter
          exact .inl ⟨hnumber, by rw [hnumber]⟩
        · cases hbefore.symm.trans hafter
      · rw [hnext, hbefore] at hafter
        cases hafter
      · have hother : number ≠ target := by
          rintro rfl
          cases hbefore.symm.trans hcarries.had
        rw [hothers number hother, hbefore] at hafter
        cases hafter

end Traces

section Runs

variable {config : Config}

theorem AtWork.step
    (hnumbered : session.Numbered)
    (hwork : session.AtWork)
    (hleads : Leads session next) :
    next.AtWork := by
  intro id job hjob
  cases hleads.assigns hnumbered hjob with
  | @resumed before hbefore htrace _ hfits =>
      obtain ⟨held, hheld, hheldFits⟩ := hwork id before hbefore
      obtain ⟨after, acts, hcarries⟩ := hleads.carries hnumbered hwork hheld
      refine ⟨after, by rw [htrace]; exact hcarries.holds, ?_⟩
      exact (hfits held hheld hheldFits).undergoes hcarries.undergoes
  | @scheduled _ _ trace _ hserved htrace _ hfits =>
      obtain ⟨number, held, hheld, rfl⟩ := held_of_servedTrace hserved
      obtain ⟨after, acts, hcarries⟩ := hleads.carries hnumbered hwork hheld
      have hnumber : job.trace.index = number := by
        rw [htrace, hnumbered.traces number held hheld]
      exact ⟨after, by rw [hnumber]; exact hcarries.holds, hfits after.trace⟩

/-- The jobs of a reachable session fit the traces that they are on. -/
theorem atWork_of_reachable
    (hreach : Reachable config session) :
    session.AtWork := by
  induction hreach with
  | empty => exact fun _ _ hjob => nomatch hjob
  | step hreach hleads ih => exact ih.step (numbered_of_reachable hreach) hleads

/-- Every trace of a reachable session has undergone acts since it was created. -/
theorem undergoes_of_reachable
    {number : Nat} {held : HeldTrace}
    (hreach : Reachable config session)
    (hheld : session.traces.get? number = some held) :
    ∃ acts, (Trace.fresh ⟨number⟩).Undergoes acts held.trace := by
  induction hreach generalizing held with
  | empty => cases hheld
  | step hreach hleads ih =>
      rcases hleads.held_cases (numbered_of_reachable hreach) (atWork_of_reachable hreach) hheld
        with ⟨-, rfl⟩ | ⟨before, acts, hcarries⟩
      · exact ⟨[], .refl⟩
      · obtain ⟨earlier, hundergoes⟩ := ih hcarries.had
        exact ⟨earlier ++ acts, hundergoes.trans hcarries.undergoes⟩

theorem Reachable.trans
    (hreach : Reachable config session)
    (hleads : Relation.ReflTransGen Leads session next) :
    Reachable config next := by
  induction hleads with
  | refl => exact hreach
  | tail _ hleads ih => exact ih.step hleads

/-- Whatever happens in a session, a trace that it holds undergoes acts. -/
theorem exists_undergoes_of_leads
    {number : Nat} {held : HeldTrace}
    (hreach : Reachable config session)
    (hheld : session.traces.get? number = some held)
    (hleads : Relation.ReflTransGen Leads session next) :
    ∃ after acts, next.traces.get? number = some after ∧ held.trace.Undergoes acts after.trace := by
  induction hleads with
  | refl => exact ⟨held, [], hheld, .refl⟩
  | tail hbefore hleads ih =>
      obtain ⟨middle, acts, hmiddle, hundergoes⟩ := ih
      have hreached := hreach.trans hbefore
      obtain ⟨after, later, hcarries⟩ := hleads.carries (numbered_of_reachable hreached)
        (atWork_of_reachable hreached) hmiddle
      exact ⟨after, acts ++ later, hcarries.holds, hundergoes.trans hcarries.undergoes⟩

end Runs

end Session

end TimelineStore
