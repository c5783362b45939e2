import TimelineStore.Proofs.Future.Undisturbed
import TimelineStore.Proofs.Session.Reachable

/-!
# The futures of a session

Each call of a session and each turn of a worker does with a future what a caller and a
worker do, so every future of a reachable session is one that moves lead to.

**Results.**
* `Session.Leads.futures_cases`: what a step of a session does to its futures.
* `Session.played_of_reachable`: moves lead to every future of a reachable session.
-/

namespace TimelineStore

namespace Future

variable {ω : Type} {id : FutureId} {future next : Future ω}

/-- Moves lead to the future, and its worker is in the middle of nothing: it may report
until it has handed the result over. -/
def Played (id : FutureId) (future : Future ω) : Prop :=
  ∃ (listens : Bool) (history : List Happening) (line : Line),
    Scene.Moves (.opening id listens) history ⟨future, line, .free⟩ ∧
      (future.stage = .running → line = .talking) ∧
      (future.stage ≠ .running → future.stage ≠ .empty → line = .handed)

theorem played_fresh
    (id : FutureId) (listens : Bool) :
    (fresh id listens : Future ω).Played id :=
  ⟨listens, [], .talking, .refl, fun _ => rfl, fun _ hsome => absurd rfl hsome⟩

theorem Played.interrupt
    (hplayed : future.Played id) :
    future.interrupt.2.Played id := by
  obtain ⟨listens, history, line, hmoves, hline⟩ := hplayed
  exact ⟨listens, _, line, hmoves.snoc .interrupt, by simpa using hline⟩

theorem Played.schedule
    {label source : String} {capacity : Nat} {work : ω}
    (hplayed : future.Played id)
    (hschedule : future.schedule label source capacity work = .ok next) :
    next.Played id := by
  obtain ⟨listens, history, line, hmoves, -⟩ := hplayed
  refine ⟨listens, _, .talking, hmoves.snoc (.schedule hschedule), fun _ => rfl, ?_⟩
  obtain ⟨-, rfl⟩ := schedule_eq_ok_iff.mp hschedule
  intro hrunning
  exact absurd rfl hrunning

/-- A turn in which the worker is not lost. -/
theorem Played.take
    {turn : Turn ω} {work : ω}
    (hplayed : future.Played id)
    (hphase : future.phase? = some (.running work)) (hgone : turn.next ≠ .gone) :
    (future.take turn).Played id := by
  obtain ⟨listens, history, line, hmoves, htalking, -⟩ := hplayed
  obtain rfl := htalking (stage_eq_running_iff.mpr ⟨work, hphase⟩)
  obtain ⟨run, hrun, -⟩ := exists_run_of_phase hphase
  obtain ⟨reports, after⟩ := turn
  cases after with
  | work rest =>
      obtain ⟨during, hturn⟩ := Scene.moves_take_work .free hphase reports rest
      refine ⟨listens, _, .talking, hmoves.trans hturn, fun _ => rfl, fun hrunning => ?_⟩
      rw [take_work_of_run hrun] at hrunning
      exact absurd rfl hrunning
  | finished result =>
      obtain ⟨during, hturn⟩ := Scene.moves_take_finished .free hphase reports result
      obtain ⟨last, hlast⟩ := (reports.foldl Run.report run).phase_resolve result
      have hresolved : (future.take ⟨reports, .finished result⟩).phase? =
          some (.resolved (result.map fun _ => ()) last) := by
        rw [take_finished_of_run hrun]
        exact congrArg some hlast
      refine ⟨listens, _, .handed, (hmoves.trans hturn).snoc (.hand hresolved), ?_, ?_⟩
      · rw [stage_eq_resolved_iff.mpr hresolved]
        nofun
      · exact fun _ _ => rfl
  | gone => exact absurd rfl hgone

/-- A whole wait; one without bound that the worker leaves alone is as good as a poll. -/
theorem Played.wait
    (hplayed : future.Played id) (seconds : Option Nat) :
    (future.wait seconds).future.Played id := by
  obtain ⟨listens, history, line, hmoves, htalking, hhanded⟩ := hplayed
  have hsound := hmoves.sound (Scene.sound_opening id listens)
  have hpoll : (future.wait seconds).future = (future.wait (some 0)).future := by
    cases hstage : future.stage with
    | empty =>
        have hrun := stage_eq_empty_iff.mp hstage
        rw [wait_of_empty hrun, wait_of_empty hrun]
    | running => rw [wait_of_running hstage, wait_of_running hstage]
    | resolved result last =>
        rw [wait_of_stage_resolved hstage, wait_of_stage_resolved hstage]
    | lost =>
        have hline := hsound.line
        rw [hstage] at hline
        exact hline.elim
  obtain ⟨during, ending, hwaited, -⟩ :=
    Scene.moves_wait hsound (some 0) (by simp) hhanded
  rw [hpoll]
  refine ⟨listens, _, line, hmoves.trans hwaited, ?_⟩
  cases hstage : future.stage with
  | empty =>
      rw [wait_of_empty (stage_eq_empty_iff.mp hstage)]
      exact ⟨htalking, hhanded⟩
  | running =>
      have hkept : (future.queueing []).overdue.stage = .running :=
        stage_queueing [] |>.trans hstage
      rw [wait_of_running hstage, hkept]
      exact ⟨fun _ => htalking hstage, fun hrunning => absurd rfl hrunning⟩
  | resolved result last =>
      rw [wait_of_stage_resolved hstage]
      simp
  | lost =>
      have hline := hsound.line
      rw [hstage] at hline
      exact hline.elim

end Future

/-- No job loses its worker. -/
theorem Job.next_turn_ne_gone
    (job : Job) (run : Run Job) (trace : Trace) :
    (job.turn run trace).2.next ≠ .gone := by
  cases job with
  | metadata => cases hasked : run.interrupted <;> simp [turn, ofReading, hasked]
  | detail => cases hasked : run.interrupted <;> simp [turn, ofReading, hasked]
  | slice source id request =>
      cases hresolve : trace.resolve request.tracks <;> simp [turn, hresolve]
  | inTurn source id window share totals left started =>
      cases left with
      | nil => simp [turn]
      | cons track left =>
          cases started with
          | false => cases hasked : run.interrupted <;> simp [turn, hasked]
          | true => cases hload : source.loadTrack window track trace <;> simp [turn, hload]

namespace Session

variable {session next : Session}

/-- What happens to a future in a step of a session. -/
inductive Treated (future : Future Job) : Future Job → Prop
  | interrupted : Treated future future.interrupt.2
  | waited (seconds : Option Nat) : Treated future (future.wait seconds).future
  | scheduled {next : Future Job} {label source : String} {capacity : Nat} {job : Job}
      (hschedule : future.schedule label source capacity job = .ok next) :
      Treated future next
  | turned {run : Run Job} {job : Job} (trace : Trace)
      (hphase : future.phase? = some (.running job)) :
      Treated future (future.take (job.turn run trace).2)

section Kept

theorem futures_reading
    {α : Type} {id : DatabaseId} {text : α → String} {read : Source → Trace → Reading α} :
    (session.reading id text read).session.futures = session.futures := by
  rcases session.reading_cases id text read with hnext | ⟨_, _, -, -, hnext⟩ <;> simp [hnext]

theorem futures_readDraft
    {id : DatabaseId} {mode : ReadMode} :
    (session.readDraft id mode).session.futures = session.futures := by
  rcases session.readDraft_cases id mode with hnext | hnext | ⟨request, hnext⟩
  · rw [hnext]
  · rw [hnext]
    rfl
  · rw [hnext]
    exact futures_reading

theorem futures_bind
    {database : DatabaseId} {id : TraceId}
    (hbind : session.bind database id = .ok next) :
    next.futures = session.futures := by
  obtain ⟨_, _, _, -, -, -, -, rfl⟩ := exists_of_bind hbind
  rfl

theorem futures_evicting
    {α : Type} {id : TraceId} {count : Trace → α} {change : Trace → Trace} {told : α}
    (hevict : session.evicting id count change = .ok (told, next)) :
    next.futures = session.futures := by
  obtain ⟨_, -, rfl⟩ := exists_of_evicting hevict
  rfl

end Kept

/-- The session differs in one future at most, and that one was treated. -/
def Treats (session next : Session) : Prop :=
  next.futures = session.futures ∨
    ∃ (number : Nat) (future after : Future Job),
      session.futures.get? number = some future ∧ Treated future after ∧
        next.futures = (session.putFuture after).futures

theorem treats_schedule
    {database : DatabaseId} {id : FutureId} {job : Source → TraceId → Job}
    (hschedule : session.schedule database id job = .ok next) :
    session.Treats next := by
  obtain ⟨_, future, _, after, -, hfuture, -, hafter, rfl⟩ := exists_of_schedule hschedule
  exact .inr ⟨id.index, future, after, future_eq_ok_iff.1 hfuture, .scheduled hafter, rfl⟩

theorem treats_interrupt
    (id : FutureId) :
    session.Treats (session.interrupt id).2 := by
  rcases session.interrupt_cases id with hnext | ⟨future, hfuture, hnext⟩
  · exact .inl (by rw [hnext])
  · exact .inr ⟨_, future, _, future_eq_ok_iff.1 hfuture, .interrupted, by rw [hnext]⟩

theorem treats_wait
    (id : FutureId) (seconds : Option Nat) :
    session.Treats (session.wait id seconds).session := by
  rcases session.wait_cases id seconds with hnext | ⟨future, hfuture, hnext⟩
  · exact .inl (by rw [hnext])
  · exact .inr ⟨_, future, _, future_eq_ok_iff.1 hfuture, .waited seconds, by rw [hnext]⟩

theorem treats_turn
    (id : FutureId) :
    session.Treats (session.turn id) := by
  rcases session.turn_cases id with hnext |
    ⟨future, run, job, held, hfuture, hrun, hphase, -, hnext⟩
  · exact .inl (by rw [hnext])
  · have hrunning : future.phase? = some (.running job) := by
      rw [Future.phase?, hrun, Option.map_some, hphase]
    exact .inr ⟨_, future, _, hfuture, .turned held.trace hrunning, by rw [hnext]; rfl⟩

/-- What a step of a session does to its futures: one is allocated, given up or treated, or
all stay as they are. -/
theorem Leads.futures_cases
    (hleads : Leads session next) :
    (∃ listens, next.futures = session.futures.add fun number => .fresh ⟨number⟩ listens) ∨
    (∃ id : FutureId, next.futures = session.futures.erase id.index) ∨
    session.Treats next := by
  cases hleads with
  | allocate listens => exact .inl ⟨listens, rfl⟩
  | @free _ id hfree =>
      exact .inr (.inl ⟨id, by rw [eq_of_free hfree]⟩)
  | interrupt id => exact .inr (.inr (treats_interrupt id))
  | wait id seconds => exact .inr (.inr (treats_wait id seconds))
  | scheduleMetadata hschedule => exact .inr (.inr (treats_schedule hschedule))
  | scheduleRead hschedule => exact .inr (.inr (treats_schedule hschedule))
  | scheduleDetail hschedule => exact .inr (.inr (treats_schedule hschedule))
  | turn id => exact .inr (.inr (treats_turn id))
  | close hclose =>
      rw [eq_of_close hclose]
      exact .inr (.inr (.inl rfl))
  | deleteTrace hdelete =>
      obtain ⟨_, -, rfl⟩ := exists_of_deleteTrace hdelete
      exact .inr (.inr (.inl rfl))
  | draftWindow hdraft =>
      rw [eq_of_draftWindow hdraft]
      exact .inr (.inr (.inl rfl))
  | draftTrack hdraft =>
      rw [eq_of_draftTrack hdraft]
      exact .inr (.inr (.inl rfl))
  | attach source => exact .inr (.inr (.inl rfl))
  | createTrace => exact .inr (.inr (.inl rfl))
  | bind hbind => exact .inr (.inr (.inl (futures_bind hbind)))
  | readMetadata id => exact .inr (.inr (.inl futures_reading))
  | read id request mode => exact .inr (.inr (.inl futures_reading))
  | readDraft id mode => exact .inr (.inr (.inl futures_readDraft))
  | evictAt hevict => exact .inr (.inr (.inl (futures_evicting hevict)))
  | evictWindow hevict => exact .inr (.inr (.inl (futures_evicting hevict)))
  | evictAll hevict => exact .inr (.inr (.inl (futures_evicting hevict)))
  | evictDetail hevict => exact .inr (.inr (.inl (futures_evicting hevict)))
  | evictDetails hevict => exact .inr (.inr (.inl (futures_evicting hevict)))

/-- A future keeps its identifier. -/
theorem Treated.id_eq
    {future after : Future Job}
    (htreated : Treated future after) :
    after.id = future.id := by
  cases htreated with
  | interrupted =>
      unfold Future.interrupt
      cases future.run with
      | none => rfl
      | some run => dsimp only; split <;> rfl
  | waited seconds =>
      unfold Future.wait Future.drain
      cases future.run with
      | none => rfl
      | some run => dsimp only; split <;> rfl
  | scheduled hschedule =>
      obtain ⟨-, rfl⟩ := Future.schedule_eq_ok_iff.mp hschedule
      rfl
  | turned => rfl

theorem Treated.played
    {id : FutureId} {future after : Future Job}
    (htreated : Treated future after) (hplayed : future.Played id) :
    after.Played id := by
  cases htreated with
  | interrupted => exact hplayed.interrupt
  | waited seconds => exact hplayed.wait seconds
  | scheduled hschedule => exact hplayed.schedule hschedule
  | turned trace hphase => exact hplayed.take hphase (Job.next_turn_ne_gone _ _ _)

/-- Moves of a caller and a worker lead to every future of a reachable session. -/
theorem played_of_reachable
    {config : Config}
    (hreach : Reachable config session) :
    session.futures.All fun number future => future.Played ⟨number⟩ := by
  induction hreach with
  | empty =>
      intro number future hfuture
      cases hfuture
  | @step session next hreach hleads ih =>
      rcases hleads.futures_cases with ⟨listens, hnext⟩ | ⟨id, hnext⟩ | hnext |
        ⟨number, future, after, hfuture, htreated, hnext⟩
      · rw [hnext]
        exact ih.add fun number => Future.played_fresh ⟨number⟩ listens
      · rw [hnext]
        exact ih.erase
      · rw [hnext]
        exact ih
      · have hnumber : after.id = ⟨number⟩ :=
          htreated.id_eq.trans ((numbered_of_reachable hreach).futures number future hfuture)
        have hplayed := htreated.played (ih number future hfuture)
        rw [hnext]
        refine ih.modify fun _ => ?_
        rwa [hnumber]

end Session

end TimelineStore
