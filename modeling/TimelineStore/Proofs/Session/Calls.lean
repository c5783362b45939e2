import TimelineStore.Proofs.Outcome
import TimelineStore.Session.Evict

/-!
# What calls of a session come to

For each call, the session that it leads to if it succeeds, in terms of the updates of a
session.  Calls that cannot fail lead to one that is updated, or to the same one.

**Results.**
* `Session.exists_of_bind`, `Session.exists_of_schedule`: what a call that succeeds found, and
  what it changed.
* `Session.reading_cases`, `Session.turn_cases`: what a read and a turn of a worker change.
-/

namespace TimelineStore

namespace Session

variable {session next : Session}

section Updates

variable (session : Session)

@[simp] theorem futures_putTrace
    (trace : Trace) :
    (session.putTrace trace).futures = session.futures :=
  rfl

@[simp] theorem databases_putTrace
    (trace : Trace) :
    (session.putTrace trace).databases = session.databases :=
  rfl

@[simp] theorem traces_putFuture
    (future : Future Job) :
    (session.putFuture future).traces = session.traces :=
  rfl

@[simp] theorem databases_putFuture
    (future : Future Job) :
    (session.putFuture future).databases = session.databases :=
  rfl

@[simp] theorem traces_changeDatabase
    (id : DatabaseId) (change : Attached → Attached) :
    (session.changeDatabase id change).traces = session.traces :=
  rfl

@[simp] theorem futures_changeDatabase
    (id : DatabaseId) (change : Attached → Attached) :
    (session.changeDatabase id change).futures = session.futures :=
  rfl

end Updates

section Databases

variable {id : DatabaseId}

theorem eq_of_close
    (hclose : session.close id = .ok next) :
    next = { session with databases := session.databases.erase id.index } := by
  obtain ⟨_, -, hnext⟩ := Outcome.bind_eq_ok_iff.1 hclose
  exact (Except.ok.inj hnext).symm

theorem eq_of_draftWindow
    {window : Window}
    (hdraft : session.draftWindow id window = .ok next) :
    next = session.changeDatabase id fun attached =>
      { attached with draft := attached.draft.«over» window } := by
  obtain ⟨_, -, hnext⟩ := Outcome.bind_eq_ok_iff.1 hdraft
  exact (Except.ok.inj hnext).symm

theorem eq_of_draftTrack
    {track : TrackId}
    (hdraft : session.draftTrack id track = .ok next) :
    next = session.changeDatabase id fun attached =>
      { attached with draft := attached.draft.add track } := by
  obtain ⟨_, -, hnext⟩ := Outcome.bind_eq_ok_iff.1 hdraft
  exact (Except.ok.inj hnext).symm

/-- A binding goes on as long as nothing fails. -/
theorem bind_eq
    (session : Session) (id : DatabaseId) (trace : TraceId) :
    session.bind id trace = (do
      let attached ← session.database id
      let target ← session.trace trace
      session.checkServes id attached trace
      let bound ← target.bind id
      return (session.putTrace bound).changeDatabase id ({ · with bound := some trace })) := by
  unfold Session.bind binding
  cases session.database id with
  | error failure => rfl
  | ok attached =>
      cases session.trace trace with
      | error failure => rfl
      | ok target =>
          cases hserves : session.checkServes id attached trace with
          | error failure => simp [hserves, refused, Except.map, Bind.bind, Except.bind]
          | ok served =>
              cases hbound : (target.binding id).1 <;>
                simp [hserves, hbound, Trace.bind, refused, Except.map, Bind.bind, Except.bind,
                  pure, Except.pure]

theorem exists_of_bind
    {trace : TraceId}
    (hbind : session.bind id trace = .ok next) :
    ∃ attached target bound, session.database id = .ok attached ∧
      session.trace trace = .ok target ∧ session.checkServes id attached trace = .ok () ∧
      target.bind id = .ok bound ∧
      next = (session.putTrace bound).changeDatabase id ({ · with bound := some trace }) := by
  rw [bind_eq] at hbind
  obtain ⟨attached, hattached, hbind⟩ := Outcome.bind_eq_ok_iff.1 hbind
  obtain ⟨target, htarget, hbind⟩ := Outcome.bind_eq_ok_iff.1 hbind
  obtain ⟨⟨⟩, hserves, hbind⟩ := Outcome.bind_eq_ok_iff.1 hbind
  obtain ⟨bound, hbound, hnext⟩ := Outcome.bind_eq_ok_iff.1 hbind
  exact ⟨attached, target, bound, hattached, htarget, hserves, hbound,
    (Except.ok.inj hnext).symm⟩

end Databases

section Traces

variable {id : TraceId}

theorem exists_of_deleteTrace
    (hdelete : session.deleteTrace id = .ok next) :
    ∃ trace, session.trace id = .ok trace ∧
      next = { session with
        traces := session.traces.modify id.index fun _ => ⟨trace.evictAll, false⟩ } := by
  obtain ⟨trace, htrace, hnext⟩ := Outcome.bind_eq_ok_iff.1 hdelete
  exact ⟨trace, htrace, (Except.ok.inj hnext).symm⟩

theorem exists_of_evicting
    {α : Type} {count : Trace → α} {change : Trace → Trace} {told : α}
    (hevict : session.evicting id count change = .ok (told, next)) :
    ∃ trace, session.trace id = .ok trace ∧ next = session.putTrace (change trace) := by
  obtain ⟨trace, htrace, hnext⟩ := Outcome.bind_eq_ok_iff.1 hevict
  cases hnext
  exact ⟨trace, htrace, rfl⟩

end Traces

section Reads

/-- A read changes the trace that the database serves, if there is one. -/
theorem reading_cases
    {α : Type}
    (session : Session) (id : DatabaseId) (text : α → String) (read : Source → Trace → Reading α) :
    (session.reading id text read).session = session ∨
      ∃ attached trace, session.database id = .ok attached ∧
        session.servedTrace id attached = .ok trace ∧
        (session.reading id text read).session =
          session.putTrace (read attached.source trace).trace := by
  unfold reading
  cases hdatabase : session.database id with
  | error failure => exact .inl rfl
  | ok attached =>
      cases hserved : session.servedTrace id attached with
      | error failure =>
          simp only [hserved]
          exact .inl rfl
      | ok trace =>
          simp only [hserved]
          exact .inr ⟨attached, trace, rfl, hserved, rfl⟩

/-- The draft is cleared before its request is read, and also if it cannot be. -/
theorem readDraft_cases
    (session : Session) (id : DatabaseId) (mode : ReadMode) :
    let cleared := session.changeDatabase id ({ · with draft := .empty })
    (session.readDraft id mode).session = session ∨
      (session.readDraft id mode).session = cleared ∨
      ∃ request, (session.readDraft id mode).session = (cleared.read id request mode).session := by
  unfold readDraft
  cases session.database id with
  | error failure => exact .inl rfl
  | ok attached =>
      cases hfinish : attached.draft.finish with
      | error flaw =>
          simp only [hfinish]
          exact .inr (.inl rfl)
      | ok request =>
          simp only [hfinish]
          exact .inr (.inr ⟨request, rfl⟩)

end Reads

section Futures

variable {id : FutureId}

theorem eq_of_free
    (hfree : session.free id = .ok next) :
    next = { session with futures := session.futures.erase id.index } := by
  obtain ⟨_, -, hfree⟩ := Outcome.bind_eq_ok_iff.1 hfree
  obtain ⟨_, -, hnext⟩ := Outcome.bind_eq_ok_iff.1 hfree
  exact (Except.ok.inj hnext).symm

theorem interrupt_cases
    (session : Session) (id : FutureId) :
    (session.interrupt id).2 = session ∨
      ∃ future, session.future id = .ok future ∧
        (session.interrupt id).2 = session.putFuture future.interrupt.2 := by
  unfold interrupt
  cases session.future id with
  | error failure => exact .inl rfl
  | ok future => exact .inr ⟨future, rfl, rfl⟩

theorem wait_cases
    (session : Session) (id : FutureId) (seconds : Option Nat) :
    (session.wait id seconds).session = session ∨
      ∃ future, session.future id = .ok future ∧
        (session.wait id seconds).session = session.putFuture (future.wait seconds).future := by
  unfold wait
  cases session.future id with
  | error failure => exact .inl rfl
  | ok future => exact .inr ⟨future, rfl, rfl⟩

theorem exists_of_schedule
    {database : DatabaseId} {make : Source → TraceId → Job}
    (hschedule : session.schedule database id make = .ok next) :
    ∃ attached future trace after, session.database database = .ok attached ∧
      session.future id = .ok future ∧ session.servedTrace database attached = .ok trace ∧
      future.schedule (make attached.source trace.id).label attached.source.name
        session.config.progressCapacity (make attached.source trace.id) = .ok after ∧
      next = session.putFuture after := by
  obtain ⟨attached, hattached, hschedule⟩ := Outcome.bind_eq_ok_iff.1 hschedule
  obtain ⟨future, hfuture, hschedule⟩ := Outcome.bind_eq_ok_iff.1 hschedule
  obtain ⟨trace, hserved, hschedule⟩ := Outcome.bind_eq_ok_iff.1 hschedule
  obtain ⟨after, hafter, hnext⟩ := Outcome.bind_eq_ok_iff.1 hschedule
  exact ⟨attached, future, trace, after, hattached, hfuture, hserved, hafter,
    (Except.ok.inj hnext).symm⟩

/-- A turn does nothing unless a worker is on a job, on a trace that the session holds. -/
theorem turn_cases
    (session : Session) (id : FutureId) :
    session.turn id = session ∨
      ∃ future run job held, session.futures.get? id.index = some future ∧
        future.run = some run ∧ run.phase = .running job ∧
        session.traces.get? job.trace.index = some held ∧
        session.turn id = (session.putTrace (job.turn run held.trace).1).putFuture
          (future.take (job.turn run held.trace).2) := by
  unfold turn
  cases hfuture : session.futures.get? id.index with
  | none => exact .inl rfl
  | some future =>
      cases hrun : future.run with
      | none => exact .inl (by simp only [hrun])
      | some run =>
          cases hphase : run.phase with
          | running job =>
              cases hheld : session.traces.get? job.trace.index with
              | none => exact .inl (by simp only [hrun, hphase, hheld])
              | some held =>
                  refine .inr ⟨future, run, job, held, rfl, hrun, hphase, hheld, ?_⟩
                  simp only [hrun, hphase, hheld]
          | _ => exact .inl (by simp only [hrun, hphase])

end Futures

end Session

end TimelineStore
