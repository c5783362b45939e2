import Mathlib.Data.List.Induction
import TimelineStore.Proofs.Future

/-!
# The moves of a caller and a worker

`Future.wait` and `Future.drain` describe a caller that no worker gets in the way of.
Here the two take turns in any order.  A caller does one thing after another; while it
drains or waits it is handed one event at a time, and a wait first sees that its time is
over or that the result is there, and acts on it later.  A worker reports, hangs up its
end of the queue, shows its run resolved, and only then hands the result over.

`Move` says what may happen next, `Moves` what may happen one after another.

**Results.**
* `Scene.Move.future_cases`: what a move does to where the run stands.
* `Scene.Move.sound`, `Scene.Moves.sound`: what the caller is in the middle of suits the
  run and the line.
-/

namespace TimelineStore

/-- The worker's end of a run: it may report, has hung up the queue, or has handed over
the result as well. -/
inductive Line where
  | talking
  | silent
  | handed
deriving DecidableEq

/-- What the caller is in the middle of.  A deaf wait has seen the queue hung up. -/
inductive Activity where
  | free
  | draining
  | waiting (bound : Option Nat) (deaf : Bool)
  | expired (bound : Option Nat)
  | settling (bound : Option Nat) (deaf : Bool)
      (result : Except Failure Unit) (last : ProgressEvent)
  | closing (bound : Option Nat) (result : Except Failure Unit)
  | gone

/-- How a wait ends. -/
inductive Ending where
  | nothing
  | timedOut
  | collected (result : Except Failure Unit)

/-- What the caller of the wait gets. -/
def Ending.answer (id : FutureId) (bound : Option Nat) : Ending → Except Failure Unit
  | .nothing => .error (.nothingScheduled (toString id))
  | .timedOut => .error (.timedOut (bound.getD Future.unbounded))
  | .collected result => result

/-- What happens at a move.  An event is heard by whoever listens to the future. -/
inductive Happening where
  | schedules (capacity : Nat) (answer : Except Failure Unit)
  | interrupts (asked : Bool)
  | looks (state : FutureState)
  | frees (answer : Except Failure Unit)
  | drains
  | drained
  | hears (event : ProgressEvent)
  | waits (bound : Option Nat)
  | deafens
  | expires
  | receives
  | returns (bound : Option Nat) (ending : Ending)
  | posts (event : ProgressEvent) (kept : Bool)
  | works
  | hangsUp
  | resolves (result : Except Failure Unit) (last : ProgressEvent)
  | hands

/-- A future between its caller and its worker. -/
structure Scene (ω : Type) where
  future : Future ω
  line : Line
  doing : Activity

/-- The caller takes events from the queue. -/
def Activity.hearing : Activity → Bool
  | .draining => true
  | .waiting _ deaf => !deaf
  | .settling _ deaf _ _ => !deaf
  | _ => false

namespace Future

variable {ω : Type}

/-- The events that are queued. -/
def queue (future : Future ω) : List ProgressEvent :=
  future.run.elim [] Run.queue

/-- The future with other events queued. -/
def queueing (future : Future ω) (events : List ProgressEvent) : Future ω :=
  { future with run := future.run.map ({ · with queue := events }) }

/-- The future after a wait gave up. -/
def overdue (future : Future ω) : Future ω :=
  { future with state := .timedOut }

/-- The state that a collected result leaves. -/
def stateOf (result : Except Failure Unit) : FutureState :=
  if result.toBool then .succeeded else .failed

/-- The future after a wait collected the result. -/
def settled (future : Future ω) (result : Except Failure Unit) : Future ω :=
  { future with state := stateOf result, run := none }

end Future

/-- Where a future stands, whatever work its worker still has. -/
inductive Stage where
  | empty
  | running
  | resolved (result : Except Failure Unit) (last : ProgressEvent)
  | lost

/-- A phase as a stage. -/
@[simp] def Phase.stage {ω : Type} : Phase ω → Stage
  | .running _ => .running
  | .resolved result last => .resolved result last
  | .lost => .lost

namespace Future

variable {ω : Type} {future next : Future ω} {run : Run ω}

/-- Where the future stands. -/
def stage (future : Future ω) : Stage :=
  future.phase?.elim .empty Phase.stage

theorem stage_of_run
    (hrun : future.run = some run) :
    future.stage = run.phase.stage := by
  simp [stage, phase?, hrun]

theorem stage_eq_empty_iff :
    future.stage = .empty ↔ future.run = none := by
  cases hrun : future.run with
  | none => simp [stage, phase?, hrun]
  | some run =>
      rw [stage_of_run hrun]
      cases run.phase <;> simp [Phase.stage]

theorem stage_eq_running_iff :
    future.stage = .running ↔ ∃ work, future.phase? = some (.running work) := by
  unfold stage
  cases future.phase? with
  | none => simp
  | some phase => cases phase <;> simp [Phase.stage]

theorem stage_eq_resolved_iff
    {result : Except Failure Unit} {last : ProgressEvent} :
    future.stage = .resolved result last ↔
      future.phase? = some (.resolved result last) := by
  unfold stage
  cases future.phase? with
  | none => simp
  | some phase => cases phase <;> simp [Phase.stage]

/-- A resolved run shows its result; otherwise the future says what it was left with. -/
theorem currentState_eq :
    future.currentState =
      match future.stage with
      | .resolved result _ => stateOf result
      | _ => future.state := by
  unfold currentState stage
  rcases future.phase? with _ | phase
  · rfl
  · rcases phase with work | ⟨result, last⟩ | _
    · rfl
    · cases result <;> rfl
    · rfl

theorem isInFlight_eq_false_iff :
    future.isInFlight = false ↔
      future.stage = .empty ∨ ∃ result last, future.stage = .resolved result last := by
  unfold isInFlight stage phase?
  rcases future.run with _ | run
  · simp
  · rcases hphase : run.phase with work | ⟨result, last⟩ | _ <;>
      simp [Run.isPending, Phase.stage, hphase]

theorem queue_of_run
    (hrun : future.run = some run) :
    future.queue = run.queue := by
  simp [queue, hrun]

theorem run_ne_none_of_queue
    {event : ProgressEvent} {rest : List ProgressEvent}
    (hqueue : future.queue = event :: rest) :
    future.run ≠ none := by
  intro hrun
  simp [queue, hrun] at hqueue

@[simp] theorem stage_carrying
    (run : Run ω) :
    (future.carrying run).stage = run.phase.stage :=
  rfl

@[simp] theorem queue_carrying
    (run : Run ω) :
    (future.carrying run).queue = run.queue :=
  rfl

@[simp] theorem state_queueing
    (events : List ProgressEvent) :
    (future.queueing events).state = future.state :=
  rfl

@[simp] theorem stage_queueing
    (events : List ProgressEvent) :
    (future.queueing events).stage = future.stage := by
  unfold stage phase? queueing
  cases future.run <;> rfl

theorem queue_queueing
    (hrun : future.run ≠ none) (events : List ProgressEvent) :
    (future.queueing events).queue = events := by
  obtain ⟨run, hrun⟩ := Option.ne_none_iff_exists'.mp hrun
  simp [queue, queueing, hrun]

@[simp] theorem stage_settled
    (result : Except Failure Unit) :
    (future.settled result).stage = .empty :=
  rfl

@[simp] theorem queue_overdue :
    future.overdue.queue = future.queue :=
  rfl

@[simp] theorem state_interrupt :
    future.interrupt.2.state = future.state := by
  unfold interrupt
  cases future.run with
  | none => rfl
  | some run => dsimp only; split <;> rfl

@[simp] theorem stage_interrupt :
    future.interrupt.2.stage = future.stage := by
  unfold interrupt
  cases hrun : future.run with
  | none => rfl
  | some run =>
      dsimp only
      split
      · rw [stage_of_run hrun, stage_of_run rfl]
      · rfl

@[simp] theorem run_interrupt_eq_none_iff :
    future.interrupt.2.run = none ↔ future.run = none := by
  rw [← stage_eq_empty_iff, stage_interrupt, stage_eq_empty_iff]

@[simp] theorem queue_interrupt :
    future.interrupt.2.queue = future.queue := by
  unfold interrupt
  cases hrun : future.run with
  | none => rfl
  | some run =>
      dsimp only
      split
      · rw [queue_of_run hrun, queue_of_run rfl]
      · rfl

/-- A future takes a new run exactly when nothing is in flight on it. -/
theorem schedule_eq_ok_iff
    {label source : String} {capacity : Nat} {work : ω} :
    future.schedule label source capacity work = .ok next ↔
      future.isInFlight = false ∧
        next = { future with state := .scheduled }.carrying
          (.start label source capacity work) := by
  constructor
  · intro hschedule
    have hidle : future.isInFlight = false := by
      unfold schedule at hschedule
      cases hrun : future.run with
      | none => simp [isInFlight, hrun]
      | some run =>
          rw [hrun] at hschedule
          by_cases hpending : run.isPending = true
          · simp [hpending] at hschedule
          · simpa [isInFlight, hrun] using hpending
    rw [schedule_of_idle hidle] at hschedule
    exact ⟨hidle, (Except.ok.inj hschedule).symm⟩
  · rintro ⟨hidle, rfl⟩
    exact schedule_of_idle hidle label source capacity work

theorem take_work_of_run
    (hrun : future.run = some run) (reports : List Step) (rest : ω) :
    future.take ⟨reports, .work rest⟩ =
      future.carrying ((reports.foldl Run.report run).standing (.running rest)) := by
  simp [take, Run.take, hrun, carrying, Run.standing]

theorem exists_run_of_phase
    {phase : Phase ω}
    (hphase : future.phase? = some phase) :
    ∃ run, future.run = some run ∧ run.phase = phase := by
  simpa [phase?] using hphase

theorem take_finished_of_run
    (hrun : future.run = some run) (reports : List Step) (result : Except Failure String) :
    future.take ⟨reports, .finished result⟩ =
      future.carrying ((reports.foldl Run.report run).resolve result) := by
  simp [take, Run.take, hrun, carrying]

@[simp] theorem state_take
    (turn : Turn ω) :
    (future.take turn).state = future.state :=
  rfl

@[simp] theorem run_take_eq_none_iff
    (turn : Turn ω) :
    (future.take turn).run = none ↔ future.run = none := by
  simp [take]

@[simp] theorem queue_take_finished
    (result : Except Failure String) :
    (future.take ⟨[], .finished result⟩).queue = future.queue := by
  cases hrun : future.run with
  | none => simp [take, queue, hrun]
  | some run =>
      rw [take_finished_of_run hrun, queue_of_run hrun]
      cases result <;> rfl

end Future

/-- What neither begins, resolves nor ends an operation, nor gives up on one. -/
def Happening.Idle : Happening → Prop
  | .schedules _ (.ok _) => False
  | .resolves _ _ => False
  | .returns _ .timedOut => False
  | .returns _ (.collected _) => False
  | _ => True

namespace Scene

variable {ω : Type}

/-- A future that was just made. -/
def opening (id : FutureId) (listens : Bool) : Scene ω :=
  ⟨.fresh id listens, .talking, .free⟩

/-- What may happen next. -/
inductive Move : Scene ω → Happening → Scene ω → Prop
  -- a caller that is free
  | schedule {future next : Future ω} {line : Line} {label source : String}
      {capacity : Nat} {work : ω}
      (hschedule : future.schedule label source capacity work = .ok next) :
      Move ⟨future, line, .free⟩ (.schedules capacity (.ok ())) ⟨next, .talking, .free⟩
  | refuse {future : Future ω} {line : Line} {label source : String} {capacity : Nat}
      {work : ω} {failure : Failure}
      (hschedule : future.schedule label source capacity work = .error failure) :
      Move ⟨future, line, .free⟩ (.schedules capacity (.error failure))
        ⟨future, line, .free⟩
  | interrupt {future : Future ω} {line : Line} :
      Move ⟨future, line, .free⟩ (.interrupts future.interrupt.1)
        ⟨future.interrupt.2, line, .free⟩
  | look {future : Future ω} {line : Line} :
      Move ⟨future, line, .free⟩ (.looks future.currentState) ⟨future, line, .free⟩
  | release {future : Future ω} {line : Line} (hidle : future.ensureIdle = .ok ()) :
      Move ⟨future, line, .free⟩ (.frees (.ok ())) ⟨future, line, .gone⟩
  | keep {future : Future ω} {line : Line} {failure : Failure}
      (hidle : future.ensureIdle = .error failure) :
      Move ⟨future, line, .free⟩ (.frees (.error failure)) ⟨future, line, .free⟩
  | drain {future : Future ω} {line : Line} :
      Move ⟨future, line, .free⟩ .drains ⟨future, line, .draining⟩
  | wait {future : Future ω} {line : Line} (bound : Option Nat) :
      Move ⟨future, line, .free⟩ (.waits bound) ⟨future, line, .waiting bound false⟩
  -- a caller that drains or waits; it is free again when the call returns
  | drained {future : Future ω} {line : Line} (hqueue : future.queue = []) :
      Move ⟨future, line, .draining⟩ .drained ⟨future, line, .free⟩
  | hear {future : Future ω} {line : Line} {doing : Activity} {event : ProgressEvent}
      {rest : List ProgressEvent}
      (hhearing : doing.hearing = true)
      (hqueue : future.queue = event :: rest) :
      Move ⟨future, line, doing⟩ (.hears event) ⟨future.queueing rest, line, doing⟩
  | nothing {future : Future ω} {line : Line} {bound : Option Nat} {deaf : Bool}
      (hrun : future.run = none) :
      Move ⟨future, line, .waiting bound deaf⟩ (.returns bound .nothing)
        ⟨future, line, .free⟩
  | deafen {future : Future ω} {line : Line} {bound : Option Nat}
      (hrun : future.run ≠ none) (hline : line ≠ .talking)
      (hqueue : future.queue = []) :
      Move ⟨future, line, .waiting bound false⟩ .deafens ⟨future, line, .waiting bound true⟩
  | expire {future : Future ω} {line : Line} {seconds : Nat} {deaf : Bool}
      (hrun : future.run ≠ none) (hline : line ≠ .handed) :
      Move ⟨future, line, .waiting (some seconds) deaf⟩ .expires
        ⟨future, line, .expired (some seconds)⟩
  | giveUp {future : Future ω} {line : Line} {bound : Option Nat} :
      Move ⟨future, line, .expired bound⟩ (.returns bound .timedOut)
        ⟨future.overdue, line, .free⟩
  | receive {future : Future ω} {bound : Option Nat} {deaf : Bool}
      {result : Except Failure Unit} {last : ProgressEvent}
      (hphase : future.phase? = some (.resolved result last)) :
      Move ⟨future, .handed, .waiting bound deaf⟩ .receives
        ⟨future, .handed, .settling bound deaf result last⟩
  | hearLast {future : Future ω} {line : Line} {bound : Option Nat} {deaf : Bool}
      {result : Except Failure Unit} {last : ProgressEvent}
      (hqueue : deaf = true ∨ future.queue = []) :
      Move ⟨future, line, .settling bound deaf result last⟩ (.hears last)
        ⟨future, line, .closing bound result⟩
  | finish {future : Future ω} {line : Line} {bound : Option Nat}
      {result : Except Failure Unit} :
      Move ⟨future, line, .closing bound result⟩ (.returns bound (.collected result))
        ⟨future.settled result, line, .free⟩
  -- a worker, whatever the caller does meanwhile
  | post {future : Future ω} {doing : Activity} {run : Run ω} {work : ω}
      (step : Step) (rest : ω)
      (hrun : future.run = some run) (hphase : run.phase = .running work) :
      Move ⟨future, .talking, doing⟩
        (.posts (run.meter.advance step).2 (decide (run.queue.length < run.capacity)))
        ⟨future.take ⟨[step], .work rest⟩, .talking, doing⟩
  | work {future : Future ω} {doing : Activity} {work : ω} (rest : ω)
      (hphase : future.phase? = some (.running work)) :
      Move ⟨future, .talking, doing⟩ .works
        ⟨future.take ⟨[], .work rest⟩, .talking, doing⟩
  | hangUp {future : Future ω} {doing : Activity} {work : ω}
      (hphase : future.phase? = some (.running work)) :
      Move ⟨future, .talking, doing⟩ .hangsUp ⟨future, .silent, doing⟩
  | resolve {future : Future ω} {doing : Activity} {work : ω}
      {closing : Except Failure Unit} {last : ProgressEvent}
      (result : Except Failure String)
      (hphase : future.phase? = some (.running work))
      (hresolved :
        (future.take ⟨[], .finished result⟩).phase? = some (.resolved closing last)) :
      Move ⟨future, .silent, doing⟩ (.resolves closing last)
        ⟨future.take ⟨[], .finished result⟩, .silent, doing⟩
  | hand {future : Future ω} {doing : Activity} {result : Except Failure Unit}
      {last : ProgressEvent}
      (hphase : future.phase? = some (.resolved result last)) :
      Move ⟨future, .silent, doing⟩ .hands ⟨future, .handed, doing⟩

/-- What may happen one after another. -/
inductive Moves (start : Scene ω) : List Happening → Scene ω → Prop
  | refl : Moves start [] start
  | snoc {history : List Happening} {scene next : Scene ω} {happening : Happening}
      (hmoves : Moves start history scene) (hmove : Move scene happening next) :
      Moves start (history ++ [happening]) next

namespace Moves

variable {start middle scene : Scene ω} {earlier later history : List Happening}

theorem single
    {happening : Happening}
    (hmove : Move start happening scene) :
    Moves start [happening] scene :=
  .snoc .refl hmove

theorem trans
    (hfirst : Moves start earlier middle)
    (hthen : Moves middle later scene) :
    Moves start (earlier ++ later) scene := by
  induction hthen with
  | refl => simpa using hfirst
  | snoc _ hmove ih =>
      rw [← List.append_assoc]
      exact .snoc ih hmove

/-- The last of several moves. -/
theorem exists_last
    {happening : Happening}
    (hmoves : Moves start (history ++ [happening]) scene) :
    ∃ middle, Moves start history middle ∧ Move middle happening scene := by
  generalize hwhole : history ++ [happening] = whole at hmoves
  cases hmoves with
  | refl => simp at hwhole
  | snoc hmoves hmove =>
      obtain ⟨rfl, hlast⟩ := List.append_inj' hwhole rfl
      obtain rfl := List.singleton_inj.mp hlast
      exact ⟨_, hmoves, hmove⟩

/-- Moves can be parted anywhere. -/
theorem split
    (hmoves : Moves start (earlier ++ later) scene) :
    ∃ middle, Moves start earlier middle ∧ Moves middle later scene := by
  induction later using List.reverseRecOn generalizing scene with
  | nil => exact ⟨scene, by simpa using hmoves, .refl⟩
  | append_singleton later happening ih =>
      rw [← List.append_assoc] at hmoves
      obtain ⟨before, hbefore, hmove⟩ := hmoves.exists_last
      obtain ⟨middle, hfirst, hthen⟩ := ih hbefore
      exact ⟨middle, hfirst, .snoc hthen hmove⟩

/-- The moves up to something that happened, that move, and the moves after it. -/
theorem split_at
    {happening : Happening}
    (hmoves : Moves start (earlier ++ happening :: later) scene) :
    ∃ before after, Moves start earlier before ∧ Move before happening after ∧
      Moves after later scene := by
  rw [List.append_cons] at hmoves
  obtain ⟨after, hfirst, hafter⟩ := hmoves.split
  obtain ⟨before, hbefore, hmove⟩ := hfirst.exists_last
  exact ⟨before, after, hbefore, hmove, hafter⟩

theorem exists_move_of_mem
    {happening : Happening}
    (hmoves : Moves start history scene) (hmem : happening ∈ history) :
    ∃ before after : Scene ω, Move before happening after := by
  obtain ⟨earlier, later, rfl⟩ := List.append_of_mem hmem
  obtain ⟨before, after, -, hmove, -⟩ := hmoves.split_at
  exact ⟨before, after, hmove⟩

end Moves

namespace Move

variable {scene next : Scene ω} {happening : Happening}

/-- What a move does to where the run stands and to what the future was left with: an
operation begins, resolves, is given up on or is collected, or neither changes. -/
theorem future_cases
    (hmove : Move scene happening next) :
    (∃ capacity, happening = .schedules capacity (.ok ()) ∧
      scene.future.isInFlight = false ∧
      next.future.stage = .running ∧ next.future.state = .scheduled) ∨
    (∃ result last, happening = .resolves result last ∧
      scene.future.stage = .running ∧
      next.future.stage = .resolved result last ∧
      next.future.state = scene.future.state) ∨
    (∃ bound, happening = .returns bound .timedOut ∧ scene.doing = .expired bound ∧
      next.future = scene.future.overdue) ∨
    (∃ bound result, happening = .returns bound (.collected result) ∧
      scene.doing = .closing bound result ∧
      next.future = scene.future.settled result) ∨
    (happening.Idle ∧ next.future.stage = scene.future.stage ∧
      next.future.state = scene.future.state) := by
  cases hmove with
  | schedule hschedule =>
      obtain ⟨hidle, rfl⟩ := Future.schedule_eq_ok_iff.mp hschedule
      exact .inl ⟨_, rfl, hidle, rfl, rfl⟩
  | resolve result hphase hresolved =>
      exact .inr (.inl ⟨_, _, rfl, Future.stage_eq_running_iff.mpr ⟨_, hphase⟩,
        Future.stage_eq_resolved_iff.mpr hresolved, rfl⟩)
  | giveUp => exact .inr (.inr (.inl ⟨_, rfl, rfl, rfl⟩))
  | finish => exact .inr (.inr (.inr (.inl ⟨_, _, rfl, rfl, rfl⟩)))
  | post step rest hrun hphase =>
      refine .inr (.inr (.inr (.inr ⟨trivial, ?_, rfl⟩)))
      rw [Future.take_work_of_run hrun, Future.stage_of_run hrun, hphase]
      rfl
  | work rest hphase =>
      obtain ⟨run, hrun, hrunning⟩ := Future.exists_run_of_phase hphase
      refine .inr (.inr (.inr (.inr ⟨trivial, ?_, rfl⟩)))
      rw [Future.take_work_of_run hrun, Future.stage_of_run hrun, hrunning]
      rfl
  | interrupt => exact .inr (.inr (.inr (.inr ⟨trivial, by simp, by simp⟩)))
  | hear hhearing hqueue => exact .inr (.inr (.inr (.inr ⟨trivial, by simp, by simp⟩)))
  | _ => exact .inr (.inr (.inr (.inr ⟨trivial, rfl, rfl⟩)))

end Move

end Scene

/-- The worker's end suits where the run stands. -/
def Line.Suits (line : Line) : Stage → Prop
  | .empty => True
  | .running => line ≠ .handed
  | .resolved _ _ => line ≠ .talking
  | .lost => False

/-- What the caller has seen so far is so. -/
def Activity.Suits {ω : Type} (future : Future ω) (line : Line) : Activity → Prop
  | .waiting _ true => line ≠ .talking ∧ future.run ≠ none ∧ future.queue = []
  | .expired bound => bound ≠ none ∧ future.run ≠ none
  | .settling _ deaf result last =>
      line = .handed ∧ future.stage = .resolved result last ∧
        (deaf = true → future.queue = [])
  | .closing _ result =>
      line = .handed ∧ future.queue = [] ∧ ∃ last, future.stage = .resolved result last
  | _ => True

/-- Before the result is handed over, all that the caller has seen is that there is a run,
and that no more reports come. -/
theorem Activity.Suits.of_worker
    {ω : Type} {future next : Future ω} {line after : Line} {doing : Activity}
    (hsuits : doing.Suits future line) (hline : line ≠ .handed)
    (hrun : next.run = none → future.run = none)
    (hsilent : line ≠ .talking → after ≠ .talking ∧ next.queue = future.queue) :
    doing.Suits next after := by
  cases doing with
  | waiting bound deaf =>
      cases deaf with
      | false => trivial
      | true =>
          obtain ⟨htalking, hsome, hqueue⟩ := hsuits
          obtain ⟨hafter, hsame⟩ := hsilent htalking
          exact ⟨hafter, fun hnone => hsome (hrun hnone), hsame.trans hqueue⟩
  | expired bound => exact ⟨hsuits.1, fun hnone => hsuits.2 (hrun hnone)⟩
  | settling bound deaf result last => exact absurd hsuits.1 hline
  | closing bound result => exact absurd hsuits.1 hline
  | _ => trivial

namespace Scene

variable {ω : Type} {start scene next : Scene ω} {happening : Happening}

/-- The worker's end and the caller's doing suit the future. -/
structure Sound (scene : Scene ω) : Prop where
  line : scene.line.Suits scene.future.stage
  doing : scene.doing.Suits scene.future scene.line

theorem sound_opening
    (id : FutureId) (listens : Bool) :
    (opening id listens : Scene ω).Sound :=
  ⟨trivial, trivial⟩

/-- A free caller has seen nothing of the future. -/
theorem Sound.of_line
    {future : Future ω} {line : Line}
    (hsound : line.Suits future.stage) :
    Sound ⟨future, line, .free⟩ :=
  ⟨hsound, trivial⟩

/-- Every move leaves the scene sound. -/
theorem Move.sound
    (hmove : Move scene happening next) (hsound : scene.Sound) :
    next.Sound := by
  -- the moves of a worker end when the result is handed over, and until then the caller
  -- has seen no result
  obtain ⟨hline, hdoing⟩ := hsound
  cases hmove with
  | schedule hschedule =>
      obtain ⟨-, rfl⟩ := Future.schedule_eq_ok_iff.mp hschedule
      exact .of_line (by simp [Run.start, Line.Suits])
  | interrupt => exact .of_line (by simpa using hline)
  | hear hhearing hqueue =>
      refine ⟨by simpa using hline, ?_⟩
      rename_i doing _ _
      cases doing with
      | waiting bound deaf => simp [Activity.hearing] at hhearing; subst deaf; trivial
      | settling bound deaf result last =>
          simp [Activity.hearing] at hhearing
          subst deaf
          simpa [Activity.Suits] using hdoing
      | _ => trivial
  | deafen hrun htalking hqueue => exact ⟨hline, htalking, hrun, hqueue⟩
  | expire hrun hhanded => exact ⟨hline, by simp, hrun⟩
  | receive hphase =>
      refine ⟨hline, rfl, Future.stage_eq_resolved_iff.mpr hphase, ?_⟩
      rintro rfl
      exact hdoing.2.2
  | hearLast hqueue =>
      obtain ⟨hhanded, hstage, hdeaf⟩ := hdoing
      exact ⟨hline, hhanded, hqueue.elim hdeaf id, _, hstage⟩
  | finish => exact .of_line trivial
  | post step rest hrun hphase =>
      refine ⟨?_, hdoing.of_worker (by simp) (by simp) fun htalking => (htalking rfl).elim⟩
      rw [Future.take_work_of_run hrun]
      simp [Run.standing, Line.Suits]
  | work rest hphase =>
      obtain ⟨run, hrun, -⟩ := Future.exists_run_of_phase hphase
      refine ⟨?_, hdoing.of_worker (by simp) (by simp) fun htalking => (htalking rfl).elim⟩
      rw [Future.take_work_of_run hrun]
      simp [Run.standing, Line.Suits]
  | hangUp hphase =>
      refine ⟨?_, hdoing.of_worker (by simp) id fun htalking => (htalking rfl).elim⟩
      simp [Future.stage_eq_running_iff.mpr ⟨_, hphase⟩, Line.Suits]
  | resolve result hphase hresolved =>
      refine ⟨?_, hdoing.of_worker (by simp) (by simp) fun _ => ⟨by simp, by simp⟩⟩
      simp [Future.stage_eq_resolved_iff.mpr hresolved, Line.Suits]
  | hand hphase =>
      refine ⟨?_, hdoing.of_worker (by simp) id fun _ => ⟨by simp, rfl⟩⟩
      simp [Future.stage_eq_resolved_iff.mpr hphase, Line.Suits]
  | giveUp => exact .of_line hline
  | _ => exact ⟨hline, trivial⟩

theorem Moves.sound
    {history : List Happening}
    (hmoves : Moves start history scene) (hsound : start.Sound) :
    scene.Sound := by
  induction hmoves with
  | refl => exact hsound
  | snoc _ hmove ih => exact hmove.sound ih

end Scene

end TimelineStore
