import TimelineStore.Proofs.Future.Delivery

/-!
# Undisturbed callers and workers

`Future.drain` and `Future.wait` are what a caller does while no worker makes a turn, and
`Future.take` is a turn of a worker in which the caller does nothing.  Each is a sequence
of moves.

**Results.**
* `Scene.moves_drain`: a drain hears the queue.
* `Scene.moves_wait`: a wait hears its events and ends with its result.
* `Scene.moves_take_work`, `Scene.moves_take_finished`: a turn of a worker.
-/

namespace TimelineStore

theorem heard_map_hears
    (events : List ProgressEvent) :
    heard (events.map .hears) = events := by
  induction events with
  | nil => rfl
  | cons event events ih =>
      rw [List.map_cons, ← List.singleton_append, heard_append, ih]
      rfl

namespace Future

variable {ω : Type} {future : Future ω} {events : List ProgressEvent}

theorem queueing_queue
    (hqueue : future.queue = events) :
    future.queueing events = future := by
  obtain ⟨id, listens, state, run⟩ := future
  cases run with
  | none => rfl
  | some run =>
      cases hqueue
      rfl

@[simp] theorem queueing_queueing
    (others : List ProgressEvent) :
    (future.queueing others).queueing events = future.queueing events := by
  simp [queueing, Function.comp_def]

@[simp] theorem queue_queueing_nil :
    (future.queueing []).queue = [] := by
  obtain ⟨id, listens, state, run⟩ := future
  cases run <;> rfl

theorem drain_eq :
    future.drain = (future.queue, future.queueing []) := by
  obtain ⟨id, listens, state, run⟩ := future
  cases run <;> rfl

theorem wait_of_empty
    (hrun : future.run = none) (seconds : Option Nat) :
    future.wait seconds =
      ⟨[], .error (.nothingScheduled (toString future.id)), future⟩ := by
  simp [wait, hrun]

theorem wait_of_stage_resolved
    {result : Except Failure Unit} {last : ProgressEvent}
    (hstage : future.stage = .resolved result last) (seconds : Option Nat) :
    future.wait seconds =
      ⟨future.heard (future.queue ++ [last]), result, future.settled result⟩ := by
  have hphase := stage_eq_resolved_iff.mp hstage
  obtain ⟨run, hrun, hresolved⟩ := exists_run_of_phase hphase
  simp [wait, drain, outcome?, hphase, hrun, settled, stateOf, queue]

theorem wait_of_running
    (hstage : future.stage = .running) (seconds : Option Nat) :
    future.wait seconds =
      ⟨future.heard future.queue, .error (.timedOut (seconds.getD unbounded)),
        (future.queueing []).overdue⟩ := by
  obtain ⟨work, hphase⟩ := stage_eq_running_iff.mp hstage
  obtain ⟨run, hrun, hrunning⟩ := exists_run_of_phase hphase
  simp [wait, drain, outcome?, hphase, hrun, overdue, queueing, queue]

/-- A worker that makes part of its reports in a turn of their own comes to the same. -/
theorem take_take
    (earlier later : List Step) (work : ω) (next : Next ω) :
    (future.take ⟨earlier, .work work⟩).take ⟨later, next⟩ =
      future.take ⟨earlier ++ later, next⟩ := by
  simp only [take, Option.map_map]
  congr 2
  funext run
  have htold : later.foldl Run.report (run.take ⟨earlier, .work work⟩) =
      ((earlier ++ later).foldl Run.report run).standing (.running work) := by
    rw [List.foldl_append]
    exact Run.foldl_report_standing _ _ later
  rw [Function.comp_apply, Run.take, htold, Run.take]
  cases next with
  | finished result => exact Run.resolve_standing _ _ result
  | _ => rfl

end Future

namespace Scene

variable {ω : Type} {future : Future ω} {line : Line} {doing : Activity}

/-- A caller that takes events can take all that are queued. -/
theorem moves_hears
    (hhearing : doing.hearing = true) :
    Moves ⟨future, line, doing⟩ (future.queue.map .hears) ⟨future.queueing [], line, doing⟩ := by
  induction hqueue : future.queue generalizing future with
  | nil =>
      rw [Future.queueing_queue hqueue]
      exact .refl
  | cons event rest ih =>
      have hrest := Future.queue_queueing (Future.run_ne_none_of_queue hqueue) rest
      have hmoves := ih hrest
      rw [Future.queueing_queueing] at hmoves
      exact (Moves.single (.hear hhearing hqueue)).trans hmoves

theorem moves_drain :
    Moves ⟨future, line, .free⟩ (.drains :: future.drain.1.map .hears ++ [.drained])
      ⟨future.drain.2, line, .free⟩ := by
  rw [Future.drain_eq]
  have hdrains : Moves ⟨future, line, .free⟩ [.drains] ⟨future, line, .draining⟩ :=
    .single .drain
  exact .snoc (hdrains.trans (moves_hears rfl)) (.drained Future.queue_queueing_nil)

/-- A wait ends as it does when no worker makes a turn in it, whatever the worker did
before. -/
theorem moves_wait
    (hsound : Sound ⟨future, line, .free⟩) (seconds : Option Nat)
    (hpending : future.stage = .running → seconds ≠ none)
    (hhanded : future.stage ≠ .running → future.stage ≠ .empty → line = .handed) :
    ∃ during ending,
      Moves ⟨future, line, .free⟩ (.waits seconds :: during ++ [.returns seconds ending])
        ⟨(future.wait seconds).future, line, .free⟩ ∧
      future.heard (heard during) = (future.wait seconds).events ∧
      ending.answer future.id seconds = (future.wait seconds).result := by
  have hwaits : Moves ⟨future, line, .free⟩ [.waits seconds]
      ⟨future, line, .waiting seconds false⟩ := .single (.wait seconds)
  cases hstage : future.stage with
  | empty =>
      have hrun := Future.stage_eq_empty_iff.mp hstage
      rw [Future.wait_of_empty hrun]
      refine ⟨[], .nothing, hwaits.snoc (.nothing hrun), ?_, rfl⟩
      simp [heard, Future.heard]
  | running =>
      have hline := hsound.line
      rw [hstage] at hline
      obtain ⟨bound, rfl⟩ := Option.ne_none_iff_exists'.mp (hpending hstage)
      rw [Future.wait_of_running hstage]
      refine ⟨future.queue.map .hears ++ [.expires], .timedOut, ?_, ?_, rfl⟩
      · rw [← List.cons_append]
        refine .snoc (.snoc (hwaits.trans (moves_hears rfl)) (.expire ?_ hline)) .giveUp
        simpa [← Future.stage_eq_empty_iff] using by simp [hstage]
      · simp [heard_map_hears]
  | resolved result last =>
      obtain rfl := hhanded (by simp [hstage]) (by simp [hstage])
      rw [Future.wait_of_stage_resolved hstage]
      have hphase := Future.stage_eq_resolved_iff.mp hstage
      refine ⟨.receives :: future.queue.map .hears ++ [.hears last], .collected result,
        ?_, ?_, rfl⟩
      · have hreceives := hwaits.snoc (.receive hphase)
        have hheard := hreceives.trans (moves_hears rfl)
        exact (hheard.snoc (.hearLast (.inr Future.queue_queueing_nil))).snoc .finish
      · rw [List.cons_append, ← List.singleton_append, heard_append, heard_append,
          heard_map_hears]
        simp
  | lost =>
      have hline := hsound.line
      rw [hstage] at hline
      exact hline.elim

/-- A worker that goes on makes its reports one by one. -/
theorem moves_take_work
    (doing : Activity) {work : ω} (hphase : future.phase? = some (.running work))
    (reports : List Step) (rest : ω) :
    ∃ during, Moves ⟨future, .talking, doing⟩ during
      ⟨future.take ⟨reports, .work rest⟩, .talking, doing⟩ := by
  induction reports generalizing future with
  | nil => exact ⟨_, .single (.work rest hphase)⟩
  | cons step reports ih =>
      obtain ⟨run, hrun, hrunning⟩ := Future.exists_run_of_phase hphase
      have hnext : (future.take ⟨[step], .work work⟩).phase? = some (.running work) := by
        rw [Future.take_work_of_run hrun]
        rfl
      obtain ⟨during, hmoves⟩ := ih hnext
      rw [Future.take_take] at hmoves
      exact ⟨_, (Moves.single (.post step work hrun hrunning)).trans hmoves⟩

/-- A worker that is done makes its reports, hangs up and shows the run resolved. -/
theorem moves_take_finished
    (doing : Activity) {work : ω} (hphase : future.phase? = some (.running work))
    (reports : List Step) (result : Except Failure String) :
    ∃ during, Moves ⟨future, .talking, doing⟩ during
      ⟨future.take ⟨reports, .finished result⟩, .silent, doing⟩ := by
  obtain ⟨during, hreports⟩ := moves_take_work doing hphase reports work
  obtain ⟨run, hrun, -⟩ := Future.exists_run_of_phase hphase
  have hgoes : (future.take ⟨reports, .work work⟩).phase? = some (.running work) := by
    rw [Future.take_work_of_run hrun]
    rfl
  obtain ⟨last, hlast⟩ := Run.phase_resolve (reports.foldl Run.report run) result
  have htaken : (future.take ⟨reports, .work work⟩).take ⟨[], .finished result⟩ =
      future.take ⟨reports, .finished result⟩ := by
    rw [Future.take_take, List.append_nil]
  have hresolved : (future.take ⟨reports, .finished result⟩).phase? =
      some (.resolved (result.map fun _ => ()) last) := by
    rw [Future.take_finished_of_run hrun]
    exact congrArg some hlast
  have hmoves := (hreports.snoc (.hangUp hgoes)).snoc (.resolve result hgoes (htaken ▸ hresolved))
  rw [htaken] at hmoves
  exact ⟨_, hmoves⟩

end Scene

end TimelineStore
