import TimelineStore.Proofs.Future.Moves

/-!
# What is heard of an operation

A report is kept when the queue has room for it at that moment.  Kept events are heard in
the order they were posted, and when a wait returns the result it has heard all of them
and then the closing event.

**Results.**
* `Scene.Moves.ledger`: what is kept is what was heard and then the queue.
* `Scene.Moves.delivery`: what is heard of an operation whose result a wait returns.
-/

namespace TimelineStore

/-- The event that is heard. -/
@[simp] def Happening.heard? : Happening → Option ProgressEvent
  | .hears event => some event
  | _ => none

/-- The event that is posted. -/
@[simp] def Happening.posted? : Happening → Option ProgressEvent
  | .posts event _ => some event
  | _ => none

/-- The event that is posted and finds room. -/
@[simp] def Happening.kept? : Happening → Option ProgressEvent
  | .posts event true => some event
  | _ => none

/-- What is heard, in order. -/
def heard (history : List Happening) : List ProgressEvent :=
  history.filterMap Happening.heard?

/-- What is posted, in order. -/
def posted (history : List Happening) : List ProgressEvent :=
  history.filterMap Happening.posted?

/-- What is posted and finds room, in order. -/
def kept (history : List Happening) : List ProgressEvent :=
  history.filterMap Happening.kept?

@[simp] theorem heard_append
    (earlier later : List Happening) :
    heard (earlier ++ later) = heard earlier ++ heard later :=
  List.filterMap_append

@[simp] theorem posted_append
    (earlier later : List Happening) :
    posted (earlier ++ later) = posted earlier ++ posted later :=
  List.filterMap_append

@[simp] theorem kept_append
    (earlier later : List Happening) :
    kept (earlier ++ later) = kept earlier ++ kept later :=
  List.filterMap_append

@[simp] theorem heard_singleton
    (happening : Happening) :
    heard [happening] = happening.heard?.toList := by
  rw [heard, List.filterMap_cons]
  cases happening.heard? <;> rfl

@[simp] theorem posted_singleton
    (happening : Happening) :
    posted [happening] = happening.posted?.toList := by
  rw [posted, List.filterMap_cons]
  cases happening.posted? <;> rfl

@[simp] theorem kept_singleton
    (happening : Happening) :
    kept [happening] = happening.kept?.toList := by
  rw [kept, List.filterMap_cons]
  cases happening.kept? <;> rfl

theorem kept_sublist_posted
    (history : List Happening) :
    (kept history).Sublist (posted history) := by
  induction history with
  | nil => exact .slnil
  | cons happening history ih =>
      rw [← List.singleton_append, kept_append, posted_append]
      refine .append ?_ ih
      cases happening with
      | posts event found =>
          cases found with
          | true => exact .refl _
          | false => exact List.nil_sublist _
      | _ => exact .slnil

@[simp] theorem Run.capacity_resolve
    {ω : Type} (run : Run ω) (result : Except Failure String) :
    (run.resolve result).capacity = run.capacity := by
  cases result <;> rfl

namespace Future

variable {ω : Type} {future : Future ω} {run : Run ω}

/-- How many events the queue has room for. -/
def room (future : Future ω) : Nat :=
  future.run.elim 0 Run.capacity

theorem room_of_run
    (hrun : future.run = some run) :
    future.room = run.capacity := by
  simp [room, hrun]

@[simp] theorem room_carrying
    (run : Run ω) :
    (future.carrying run).room = run.capacity :=
  rfl

@[simp] theorem room_queueing
    (events : List ProgressEvent) :
    (future.queueing events).room = future.room := by
  unfold room queueing
  cases future.run <;> rfl

/-- A report is queued if there is room. -/
theorem queue_take_report
    (hrun : future.run = some run) (step : Step) (rest : ω) :
    (future.take ⟨[step], .work rest⟩).queue =
      if run.queue.length < run.capacity then run.queue ++ [(run.meter.advance step).2]
      else run.queue := by
  rw [take_work_of_run hrun]
  rfl

@[simp] theorem room_take_finished
    (result : Except Failure String) :
    (future.take ⟨[], .finished result⟩).room = future.room := by
  cases hrun : future.run with
  | none => simp [take, room, hrun]
  | some run =>
      rw [take_finished_of_run hrun, room_of_run hrun, room_carrying, Run.capacity_resolve,
        List.foldl_nil]

@[simp] theorem room_interrupt :
    future.interrupt.2.room = future.room := by
  unfold interrupt
  cases hrun : future.run with
  | none => rfl
  | some run =>
      dsimp only
      split
      · rw [room_of_run hrun, room_of_run rfl]
      · rfl

end Future

/-- What has happened says how the operation stands. -/
def Stage.ToldBy (history : List Happening) : Stage → Prop
  | .running => ∀ result last, .resolves result last ∉ history
  | .resolved result last => .resolves result last ∈ history
  | _ => False

theorem Stage.ToldBy.concat
    {history : List Happening} {stage : Stage} {happening : Happening}
    (htold : stage.ToldBy history)
    (hother : ∀ result last, .resolves result last ≠ happening) :
    stage.ToldBy (history ++ [happening]) := by
  cases stage with
  | running => simpa [ToldBy, hother] using htold
  | resolved result last => exact List.mem_append_left _ htold
  | _ => exact htold

namespace Scene

variable {ω : Type} {start scene next : Scene ω} {happening : Happening} {capacity : Nat}

/-- What has been heard since the operation was scheduled: while it is under way all that
was kept but for the queue, and when its wait closes the closing event as well. -/
inductive Ledger (capacity : Nat) : List Happening → Scene ω → Prop
  | underway {history : List Happening} {scene : Scene ω}
      (hroom : scene.future.room = max 1 capacity)
      (hkept : kept history = heard history ++ scene.future.queue)
      (hfits : scene.future.queue.length ≤ max 1 capacity)
      (htold : scene.future.stage.ToldBy history)
      (hdoing : ∀ bound result, scene.doing ≠ .closing bound result) :
      Ledger capacity history scene
  | closing {earlier : List Happening} {scene : Scene ω} {bound : Option Nat}
      {result : Except Failure Unit} {last : ProgressEvent}
      (hkept : kept earlier = heard earlier)
      (hresolves : .resolves result last ∈ earlier)
      (hdoing : scene.doing = .closing bound result) :
      Ledger capacity (earlier ++ [.hears last]) scene
  | ended {history : List Happening} {scene : Scene ω}
      (hrun : scene.future.run = none)
      (hdoing : ∀ bound result, scene.doing ≠ .closing bound result) :
      Ledger capacity history scene

/-- While an operation is under way a move keeps its ledger in order; to hear the closing
event is to close the ledger. -/
theorem Move.ledger_of_underway
    {history : List Happening}
    (hmove : Move scene happening next) (hsound : scene.Sound)
    (hbegins : ∀ capacity, happening ≠ .schedules capacity (.ok ()))
    (hroom : scene.future.room = max 1 capacity)
    (hkept : kept history = heard history ++ scene.future.queue)
    (hfits : scene.future.queue.length ≤ max 1 capacity)
    (htold : scene.future.stage.ToldBy history)
    (hdoing : ∀ bound result, scene.doing ≠ .closing bound result) :
    Ledger capacity (history ++ [happening]) next := by
  cases hmove with
  | schedule => exact absurd rfl (hbegins _)
  | interrupt =>
      refine .underway (by simpa using hroom) ?_ (by simpa using hfits) ?_ (by simp)
      · simpa using hkept
      · simpa using htold.concat (by simp)
  | hear hhearing hqueue =>
      have hrest := Future.queue_queueing (Future.run_ne_none_of_queue hqueue)
      refine .underway (by simpa using hroom) ?_ ?_ ?_ hdoing
      · simpa [hrest, hqueue] using hkept
      · rw [hrest]
        rw [hqueue] at hfits
        exact Nat.le_of_succ_le hfits
      · simpa using htold.concat (by simp)
  | nothing hrun =>
      rw [Future.stage_eq_empty_iff.mpr hrun] at htold
      exact htold.elim
  | hearLast hqueue =>
      obtain ⟨-, hstage, hdeaf⟩ := hsound.doing
      have hempty := hqueue.elim hdeaf id
      rw [hstage] at htold
      exact .closing (by simpa [hempty] using hkept) htold rfl
  | finish => exact absurd rfl (hdoing _ _)
  | @post _ _ run _ step rest hrun hphase =>
      rw [Future.stage_of_run hrun, hphase] at htold
      rw [Future.room_of_run hrun] at hroom
      rw [Future.queue_of_run hrun] at hkept hfits
      have hqueue := Future.queue_take_report hrun step rest
      refine .underway ?_ ?_ ?_ ?_ hdoing
      · rwa [Future.take_work_of_run hrun]
      · rw [hqueue]
        by_cases hfound : run.queue.length < run.capacity
        · simp [hfound, hkept]
        · simp [hfound, hkept]
      · rw [hqueue]
        split
        · rw [List.length_append, ← hroom]
          assumption
        · exact hfits
      · rw [Future.take_work_of_run hrun]
        exact htold.concat (by simp)
  | work rest hphase =>
      obtain ⟨run, hrun, hrunning⟩ := Future.exists_run_of_phase hphase
      rw [Future.take_work_of_run hrun]
      rw [Future.stage_of_run hrun, hrunning] at htold
      rw [Future.room_of_run hrun] at hroom
      rw [Future.queue_of_run hrun] at hkept hfits
      refine .underway hroom ?_ hfits (htold.concat (by simp)) hdoing
      simpa [Run.standing] using hkept
  | resolve result hphase hresolved =>
      refine .underway (by simpa using hroom) (by simpa using hkept) (by simpa using hfits) ?_
        hdoing
      rw [Future.stage_eq_resolved_iff.mpr hresolved]
      exact List.mem_concat_self
  | hangUp =>
      exact .underway hroom (by simpa using hkept) hfits (htold.concat (by simp)) hdoing
  | hand =>
      exact .underway hroom (by simpa using hkept) hfits (htold.concat (by simp)) hdoing
  | giveUp =>
      exact .underway hroom (by simpa using hkept) (by simpa using hfits)
        (htold.concat (by simp)) (by simp)
  | _ =>
      exact .underway hroom (by simpa using hkept) hfits (htold.concat (by simp)) (by simp)

/-- A wait that has heard the closing event can only return. -/
theorem Move.returns_of_closing
    {bound : Option Nat} {result : Except Failure Unit}
    (hmove : Move scene happening next) (hsound : scene.Sound)
    (hdoing : scene.doing = .closing bound result) :
    happening = .returns bound (.collected result) ∧
      next.future.run = none ∧ next.doing = .free := by
  have hsuits := hsound.doing
  rw [hdoing] at hsuits
  -- the wait has the result, so its worker has no move left
  have hhanded : scene.line = .handed := hsuits.1
  cases hmove with
  | finish =>
      cases hdoing
      exact ⟨rfl, rfl, rfl⟩
  | hear hhearing =>
      dsimp only at hdoing
      simp [hdoing, Activity.hearing] at hhearing
  | post => cases hhanded
  | work => cases hhanded
  | hangUp => cases hhanded
  | resolve => cases hhanded
  | hand => cases hhanded
  | _ => cases hdoing

/-- Without a run, nothing is heard until an operation is scheduled. -/
theorem Move.ended_of_ended
    (hmove : Move scene happening next) (hsound : scene.Sound)
    (hbegins : ∀ capacity, happening ≠ .schedules capacity (.ok ()))
    (hrun : scene.future.run = none)
    (hdoing : ∀ bound result, scene.doing ≠ .closing bound result) :
    next.future.run = none ∧ ∀ bound result, next.doing ≠ .closing bound result := by
  cases hmove with
  | schedule => exact absurd rfl (hbegins _)
  | interrupt => exact ⟨by simpa using hrun, by simp⟩
  | hear hhearing hqueue => exact absurd hrun (Future.run_ne_none_of_queue hqueue)
  | hearLast hqueue =>
      obtain ⟨-, hstage, -⟩ := hsound.doing
      rw [Future.stage_eq_empty_iff.mpr hrun] at hstage
      cases hstage
  | finish => exact absurd rfl (hdoing _ _)
  | post step rest hsome => exact absurd hrun (by simp [hsome])
  | work => exact ⟨by simpa using hrun, hdoing⟩
  | resolve => exact ⟨by simpa using hrun, hdoing⟩
  | hangUp => exact ⟨hrun, hdoing⟩
  | hand => exact ⟨hrun, hdoing⟩
  | _ => exact ⟨hrun, by simp⟩

/-- Each move leaves the ledger in order. -/
theorem Move.ledger
    {history : List Happening}
    (hmove : Move scene happening next) (hsound : scene.Sound)
    (hbegins : ∀ capacity, happening ≠ .schedules capacity (.ok ()))
    (hledger : Ledger capacity history scene) :
    Ledger capacity (history ++ [happening]) next := by
  cases hledger with
  | underway hroom hkept hfits htold hdoing =>
      exact hmove.ledger_of_underway hsound hbegins hroom hkept hfits htold hdoing
  | closing _ _ hdoing =>
      obtain ⟨-, hrun, hfree⟩ := hmove.returns_of_closing hsound hdoing
      exact .ended hrun (by simp [hfree])
  | ended hrun hdoing =>
      obtain ⟨hrun, hdoing⟩ := hmove.ended_of_ended hsound hbegins hrun hdoing
      exact .ended hrun hdoing

theorem Moves.ledger
    {history : List Happening}
    (hmoves : Moves start history scene) (hsound : start.Sound)
    (hbegins : ∀ capacity, .schedules capacity (.ok ()) ∉ history)
    (hledger : Ledger capacity [] start) :
    Ledger capacity history scene := by
  induction hmoves with
  | refl => exact hledger
  | snoc hmoves hmove ih =>
      simp only [List.mem_append, List.mem_singleton, not_or] at hbegins
      exact hmove.ledger (hmoves.sound hsound) (fun other => Ne.symm (hbegins other).2)
        (ih fun other => (hbegins other).1)

/-- The ledger of an operation that was just scheduled is empty. -/
theorem Move.ledger_of_schedules
    {before : Scene ω}
    (hschedule : Move before (.schedules capacity (.ok ())) start) :
    start.Sound ∧ Ledger capacity [] start := by
  cases hschedule with
  | schedule hnext =>
      obtain ⟨-, rfl⟩ := Future.schedule_eq_ok_iff.mp hnext
      refine ⟨.of_line (by simp [Run.start, Line.Suits]), ?_⟩
      exact .underway rfl rfl (by simp [Run.start]) (by simp [Run.start, Stage.ToldBy]) (by simp)

/-- While the worker has not resolved the run, the ledger is open. -/
theorem Ledger.of_running
    {history : List Happening}
    (hledger : Ledger capacity history scene) (hsound : scene.Sound)
    (hrunning : scene.future.stage = .running) :
    scene.future.room = max 1 capacity ∧
      kept history = heard history ++ scene.future.queue ∧
      scene.future.queue.length ≤ max 1 capacity := by
  cases hledger with
  | underway hroom hkept hfits => exact ⟨hroom, hkept, hfits⟩
  | closing _ _ hdoing =>
      have hsuits := hsound.doing
      rw [hdoing] at hsuits
      obtain ⟨-, -, last, hstage⟩ := hsuits
      cases hrunning.symm.trans hstage
  | ended hrun =>
      rw [Future.stage_eq_empty_iff.mpr hrun] at hrunning
      cases hrunning

/-- A report finds room while the queue is not full, and is always busy. -/
theorem Move.posts_cases
    {event : ProgressEvent} {found : Bool}
    (hmove : Move scene (.posts event found) next) :
    scene.future.stage = .running ∧ event.status = .busy ∧
      found = decide (scene.future.queue.length < scene.future.room) := by
  cases hmove with
  | post step rest hrun hphase =>
      rw [Future.stage_of_run hrun, hphase, Future.queue_of_run hrun, Future.room_of_run hrun]
      exact ⟨rfl, rfl, rfl⟩

/-- The closing event is not busy. -/
theorem Move.status_of_resolves
    {result : Except Failure Unit} {last : ProgressEvent}
    (hmove : Move scene (.resolves result last) next) :
    last.status ≠ .busy := by
  cases hmove with
  | resolve result hphase hresolved =>
      obtain ⟨run, hrun, -⟩ := Future.exists_run_of_phase hphase
      rw [Future.take_finished_of_run hrun] at hresolved
      cases result with
      | ok text =>
          cases hresolved
          simp [Meter.event]
      | error failure =>
          cases hresolved
          simp [Meter.event]

namespace Moves

variable {history : List Happening}

/-- While nothing is heard, just the first reports are kept, as many as the queue holds. -/
theorem kept_eq_take
    (hmoves : Moves start history scene) (hsound : start.Sound)
    (hbegins : ∀ capacity, .schedules capacity (.ok ()) ∉ history)
    (hledger : Ledger capacity [] start) (hheard : heard history = []) :
    kept history = (posted history).take (max 1 capacity) := by
  induction hmoves with
  | refl => simp [kept, posted]
  | @snoc history scene next happening hmoves hmove ih =>
      simp only [List.mem_append, List.mem_singleton, not_or] at hbegins
      rw [heard_append, List.append_eq_nil_iff] at hheard
      have hpast := fun other => (hbegins other).1
      have hkept := ih hpast hheard.1
      cases happening with
      | posts event found =>
          -- nothing was heard, so the queue is all that was kept so far
          obtain ⟨hrunning, -, hfound⟩ := hmove.posts_cases
          obtain ⟨hroom, hqueue, hfits⟩ :=
            (hmoves.ledger hsound hpast hledger).of_running (hmoves.sound hsound) hrunning
          rw [hheard.1, List.nil_append, hkept] at hqueue
          rw [hroom, ← hqueue, List.length_take] at hfound
          by_cases hshort : (posted history).length < max 1 capacity
          · have hroomy : found = true := by
              rw [hfound, decide_eq_true_eq]
              omega
            rw [List.take_of_length_le (by omega)] at hkept
            rw [List.take_of_length_le (by simpa using Nat.succ_le_of_lt hshort)]
            simp [hkept, hroomy]
          · have hfull : found = false := by
              rw [hfound, decide_eq_false_iff_not]
              omega
            rw [posted_append, List.take_append_of_le_length (by omega), ← hkept]
            simp [hfull]
      | _ => simpa using hkept

/-- Once the worker has resolved the run it posts nothing more. -/
theorem posted_eq_nil
    (hmoves : Moves start history scene)
    (hbegins : ∀ capacity, .schedules capacity (.ok ()) ∉ history)
    (hstage : start.future.stage ≠ .running) :
    scene.future.stage ≠ .running ∧ posted history = [] := by
  induction hmoves with
  | refl => exact ⟨hstage, rfl⟩
  | @snoc history scene next happening hmoves hmove ih =>
      simp only [List.mem_append, List.mem_singleton, not_or] at hbegins
      obtain ⟨hscene, hposted⟩ := ih fun other => (hbegins other).1
      have hsilent : happening.posted? = none := by
        cases happening with
        | posts => exact absurd hmove.posts_cases.1 hscene
        | _ => rfl
      refine ⟨?_, by rw [posted_append, posted_singleton, hposted, hsilent]; rfl⟩
      rcases hmove.future_cases with
        ⟨other, hother, -⟩ | ⟨result, last, -, -, hnext, -⟩ | ⟨bound, -, -, hnext⟩ |
        ⟨bound, result, -, -, hnext⟩ | ⟨-, hnext, -⟩
      · exact absurd hother.symm (hbegins other).2
      · simp [hnext]
      · rw [hnext]
        exact hscene
      · simp [hnext]
      · rw [hnext]
        exact hscene

/-- What is heard of an operation whose result a wait returns: the events that were kept,
in order, and then the closing event. -/
theorem delivery
    {before closing after : Scene ω} {during : List Happening} {bound : Option Nat}
    {result : Except Failure Unit}
    (hschedule : Move before (.schedules capacity (.ok ())) start)
    (hmoves : Moves start during closing)
    (hbegins : ∀ capacity, .schedules capacity (.ok ()) ∉ during)
    (hreturns : Move closing (.returns bound (.collected result)) after) :
    ∃ last, .resolves result last ∈ during ∧ last ∉ posted during ∧
      heard during = kept during ++ [last] ∧ (kept during).Sublist (posted during) ∧
      (∃ earlier, during = earlier ++ [.hears last]) ∧
      (∀ earlier event found later, during = earlier ++ .posts event found :: later →
        (found = false ↔
          (kept earlier).length = (heard earlier).length + max 1 capacity)) ∧
      (∀ earlier later, during = earlier ++ .resolves result last :: later →
        heard earlier = [] → kept during = (posted during).take (max 1 capacity)) := by
  obtain ⟨hsound, hempty⟩ := hschedule.ledger_of_schedules
  have hledger := hmoves.ledger hsound hbegins hempty
  have hclosing : closing.doing = .closing bound result := by
    cases hreturns
    rfl
  -- the wait is about to return, so its ledger is closed
  cases hledger with
  | underway _ _ _ _ hdoing => exact absurd hclosing (hdoing _ _)
  | ended _ hdoing => exact absurd hclosing (hdoing _ _)
  | @closing earlier _ _ _ last hkept hresolves hdoing =>
      cases hclosing.symm.trans hdoing
      refine ⟨last, by simp [hresolves], ?_, by simp [hkept], kept_sublist_posted _,
        ⟨earlier, rfl⟩, fun earlier event found later hwhole => ?_,
        fun earlier later hwhole hheard => ?_⟩
      · intro hmem
        obtain ⟨happening, hposts, hevent⟩ := List.mem_filterMap.mp hmem
        -- reports are busy, a closing event is not
        have hbusy : last.status = .busy := by
          obtain ⟨scene, next, hmove⟩ := hmoves.exists_move_of_mem hposts
          cases happening with
          | posts event found =>
              cases hevent
              exact hmove.posts_cases.2.1
          | _ => cases hevent
        obtain ⟨scene, next, hmove⟩ :=
          hmoves.exists_move_of_mem (List.mem_append_left _ hresolves)
        exact hmove.status_of_resolves hbusy
      · rw [hwhole] at hmoves hbegins
        obtain ⟨scene, next, hfirst, hmove, -⟩ := hmoves.split_at
        obtain ⟨hrunning, -, hfound⟩ := hmove.posts_cases
        have hpast := fun other hmem => hbegins other (List.mem_append_left _ hmem)
        obtain ⟨hroom, hkept, hfits⟩ :=
          (hfirst.ledger hsound hpast hempty).of_running (hfirst.sound hsound) hrunning
        rw [hfound, decide_eq_false_iff_not, hroom, hkept, List.length_append]
        omega
      · rw [hwhole] at hmoves hbegins ⊢
        obtain ⟨scene, next, hfirst, hmove, hrest⟩ := hmoves.split_at
        have hpast := fun other hmem => hbegins other (List.mem_append_left _ hmem)
        have hfuture := fun other hmem =>
          hbegins other (List.mem_append_right _ (List.mem_cons_of_mem _ hmem))
        have hresolved : next.future.stage ≠ .running := by
          cases hmove with
          | resolve _ _ hphase => simp [Future.stage_eq_resolved_iff.mpr hphase]
        have hposted := (hrest.posted_eq_nil hfuture hresolved).2
        have hkept : kept later = [] := by
          simpa [hposted] using kept_sublist_posted later
        rw [List.append_cons, kept_append, posted_append, hkept, hposted]
        simp [hfirst.kept_eq_take hsound hpast hempty hheard]

end Moves

/-- The events of a worker that reports twice. -/
def burst : List ProgressEvent :=
  ((Meter.start "trace").advanceAll [⟨10.0, "a"⟩, ⟨20.0, "b"⟩]).2

/-- Two reports where there is room for one, and then a wait. -/
def bursting : List Happening :=
  [.posts burst[0] true, .posts burst[1] false, .hangsUp,
    .resolves (.ok ()) (Meter.completed "trace" "done"), .hands, .waits none, .receives,
    .hears burst[0], .hears (Meter.completed "trace" "done")]

/-- An operation that was just scheduled, with room for one event. -/
def cramped : Scene Unit :=
  ⟨⟨⟨0⟩, true, .scheduled, some (.start "read" "trace" 1 ())⟩, .talking, .free⟩

theorem delivery_bursting :
    ∃ closing after : Scene Unit,
      Move (opening ⟨0⟩ true) (.schedules 1 (.ok ())) cramped ∧
      Moves cramped bursting closing ∧
      Move closing (.returns none (.collected (.ok ()))) after ∧
      heard bursting = kept bursting ++ [Meter.completed "trace" "done"] ∧
      kept bursting = (posted bursting).take 1 := by
  have hschedule : Move (opening ⟨0⟩ true) (.schedules 1 (.ok ())) cramped :=
    .schedule (Future.schedule_of_idle rfl "read" "trace" 1 ())
  have hposted : Moves cramped _ _ :=
    (Moves.single (.post ⟨10.0, "a"⟩ () rfl rfl)).snoc (.post ⟨20.0, "b"⟩ () rfl rfl)
  have hhanded := ((hposted.snoc (.hangUp rfl)).snoc (.resolve (.ok "done") rfl rfl)).snoc
    (.hand rfl)
  have hheard := ((hhanded.snoc (.wait none)).snoc (.receive rfl)).snoc (.hear rfl rfl)
  have hmoves : Moves cramped bursting _ := hheard.snoc (.hearLast (.inr rfl))
  obtain ⟨last, hresolves, -, hlast, -, -, -, hfirst⟩ :=
    hmoves.delivery hschedule (by simp [bursting]) .finish
  obtain rfl : last = Meter.completed "trace" "done" := by
    simpa [bursting] using hresolves
  exact ⟨_, _, hschedule, hmoves, .finish, hlast,
    hfirst (bursting.take 3) (bursting.drop 4) rfl rfl⟩

end Scene

end TimelineStore
