import TimelineStore.Proofs.Future.Delivery
import TimelineStore.Proofs.Reading.Story
import TimelineStore.Proofs.Session.Interruption

/-!
# A read that is listened to

Whoever reads a request in a call hears of it in that call.  Whoever gives the read to the
worker of a future hears of it bit by bit, in drains, in waits that give up, and in the wait
that collects the result.

A `Desk` is the worker's: on one side the caller of its future, on the other the trace of its
job, which nobody else changes meanwhile.  What the worker posts is what its job reports, turn
by turn, and what is left to report can be told from the job and the trace.

**Results.**
* `Job.outcome_of_work`, `Job.outcome_of_finished`: what one turn does to what a job comes to.
* `Desk.Move.stands`, `Desk.Moves.stands`: what was posted and what is still to come make up
  the whole.
* `Desk.Moves.hears_all`: with room for all reports, everything is heard.
* `Session.read_story`: what is heard of a read, in a call and on a future.
-/

namespace TimelineStore

/-- A run that was resolved has its closing event after the events of its reports. -/
theorem Reading.events_of_resolved
    {ω : Type} {run : Run ω} {name : String} {done : List Step} {result : Except Failure String}
    {collected : Except Failure Unit} {last : ProgressEvent}
    (trace : Trace)
    (hmeter : run.meter = ((Meter.start name).advanceAll done).1)
    (hresolved : (run.resolve result).phase = .resolved collected last) :
    collected = result.map (fun _ => ()) ∧
      ((Meter.start name).advanceAll done).2 ++ [last] =
        (Reading.mk trace done result).events name fun message => message := by
  cases result with
  | ok text =>
      cases hresolved
      exact ⟨rfl, by simp only [events, ← hmeter]; rfl⟩
  | error failure =>
      cases hresolved
      exact ⟨rfl, by simp only [events, ← hmeter]; rfl⟩

namespace Job

/-- What a job comes to that nobody asks to stop. -/
def outcome : Job → Trace → Reading String
  | .metadata source _, trace => source.loadMetadata trace
  | .detail source _ kind event, trace => source.loadDetail kind event trace
  | .slice source _ request, trace => Session.told (source.loadEach request trace)
  | .inTurn source _ window share totals left _, trace =>
    Session.told (source.loadInTurn window share left totals trace)

section Turns

variable {run : Run Job} {trace after : Trace} {reports : List Step}

/-- A turn ends the job as it comes out, or leaves a rest that comes to what is missing. -/
theorem turn_cases
    (hcalm : run.interrupted = false) (job : Job) (trace : Trace) :
    job.turn run trace = ofReading (job.outcome trace) ∨
      ∃ after reports rest, job.turn run trace = (after, ⟨reports, .work rest⟩) ∧
        job.outcome trace =
          { rest.outcome after with steps := reports ++ (rest.outcome after).steps } := by
  cases job with
  | metadata source id => exact .inl (by simp [turn, outcome, hcalm])
  | detail source id kind event => exact .inl (by simp [turn, outcome, hcalm])
  | slice source id request =>
      cases hresolve : trace.resolve request.tracks with
      | error failure =>
          refine .inl ?_
          simp [turn, outcome, Source.loadEach, hresolve, Session.told, Reading.failed,
            ofReading, Except.map]
      | ok found =>
          refine .inr ⟨trace, [], .inTurn source id request.window
            (Source.trackShare found.length) .zero found false, ?_, ?_⟩
          · simp only [turn, hresolve]
          · simp only [outcome, Source.loadEach, hresolve, List.nil_append]
  | inTurn source id window share totals left started =>
      cases left with
      | nil => exact .inl rfl
      | cons track left =>
          cases started with
          | false =>
              refine .inr ⟨trace, [], .inTurn source id window share totals (track :: left) true,
                ?_, rfl⟩
              simp [turn, hcalm]
          | true =>
              cases hload : source.loadTrack window track trace with
              | error failure =>
                  refine .inl ?_
                  simp [turn, outcome, Source.loadInTurn, hload, Session.told, Reading.failed,
                    ofReading, Except.map]
              | ok made =>
                  refine .inr ⟨made.2, [Source.trackStep share track],
                    .inTurn source id window share (totals.add made.1) left false, ?_, ?_⟩
                  · simp only [turn, hload]
                  · simp only [outcome, Source.loadInTurn, hload]
                    rfl

theorem outcome_of_work
    {job rest : Job}
    (hcalm : run.interrupted = false)
    (hturn : job.turn run trace = (after, ⟨reports, .work rest⟩)) :
    job.outcome trace =
      { rest.outcome after with steps := reports ++ (rest.outcome after).steps } := by
  rcases turn_cases hcalm job trace with hended | ⟨_, _, _, hwork, houtcome⟩
  · rw [hended] at hturn
    cases hturn
  · rw [hwork] at hturn
    cases hturn
    exact houtcome

theorem outcome_of_finished
    {job : Job} {result : Except Failure String}
    (hcalm : run.interrupted = false)
    (hturn : job.turn run trace = (after, ⟨reports, .finished result⟩)) :
    job.outcome trace = ⟨after, reports, result⟩ := by
  rcases turn_cases hcalm job trace with hended | ⟨_, _, _, hwork, -⟩
  · rw [hended] at hturn
    cases hturn
    rfl
  · rw [hwork] at hturn
    cases hturn

end Turns

end Job

/-- A caller does this or comes to it, and neither schedules an operation nor stops one. -/
def Happening.IsCall : Happening → Prop
  | .schedules _ answer => answer ≠ .ok ()
  | .interrupts asked => asked = false
  | .posts _ _ | .works | .hangsUp | .resolves _ _ | .hands => False
  | _ => True

theorem Happening.IsCall.posted?_eq_none
    {happening : Happening}
    (hcall : happening.IsCall) :
    happening.posted? = none := by
  cases happening with
  | posts => exact hcall.elim
  | _ => rfl

theorem Happening.IsCall.ne_resolves
    {happening : Happening}
    (hcall : happening.IsCall) (result : Except Failure Unit) (last : ProgressEvent) :
    .resolves result last ≠ happening := by
  rintro rfl
  exact hcall

theorem Future.stage_of_running
    {ω : Type} {future : Future ω} {run : Run ω} {work : ω}
    (hrun : future.run = some run) (hphase : run.phase = .running work) :
    future.stage = .running := by
  rw [stage_of_run hrun, hphase]
  rfl

/-- A call takes nothing from a run that is going on but what is queued. -/
theorem Scene.Move.run_of_call
    {ω : Type} {scene next : Scene ω} {happening : Happening} {run : Run ω} {work : ω}
    (hmove : Move scene happening next) (hsound : scene.Sound) (hcall : happening.IsCall)
    (hrun : scene.future.run = some run) (hphase : run.phase = .running work) :
    ∃ queue, next.future.run = some { run with queue } := by
  cases hmove with
  | schedule => exact absurd rfl hcall
  | interrupt =>
      dsimp only at hrun
      simp [Happening.IsCall, Future.interrupt, hrun, Run.isPending, hphase] at hcall
  | hear hhearing hqueue =>
      dsimp only at hrun
      exact ⟨_, by simp only [Future.queueing, hrun, Option.map_some]; rfl⟩
  | finish =>
      obtain ⟨-, -, last, hstage⟩ := hsound.doing
      rw [Future.stage_of_run hrun, hphase] at hstage
      cases hstage
  | post => exact hcall.elim
  | work => exact hcall.elim
  | hangUp => exact hcall.elim
  | resolve => exact hcall.elim
  | hand => exact hcall.elim
  | _ => exact ⟨run.queue, hrun⟩

/-- A call sets no run going. -/
theorem Scene.Move.stage_ne_running_of_call
    {ω : Type} {scene next : Scene ω} {happening : Happening}
    (hmove : Move scene happening next) (hcall : happening.IsCall)
    (hstage : scene.future.stage ≠ .running) :
    next.future.stage ≠ .running := by
  rcases hmove.future_cases with
    ⟨capacity, rfl, -⟩ | ⟨result, last, rfl, -⟩ | ⟨bound, -, -, hnext⟩ |
    ⟨bound, result, -, -, hnext⟩ | ⟨-, hnext, -⟩
  · exact absurd rfl hcall
  · exact hcall.elim
  · rw [hnext]
    exact hstage
  · simp [hnext]
  · rwa [hnext]

/-- If every report finds room, all that is posted is kept. -/
theorem kept_eq_posted
    {history : List Happening}
    (hroom : ∀ event found, .posts event found ∈ history → found = true) :
    kept history = posted history := by
  refine List.filterMap_congr fun happening hmem => ?_
  cases happening with
  | posts event found =>
      obtain rfl := hroom event found hmem
      rfl
  | _ => rfl

/-- The desk of a worker, between the caller of its future and the trace of its job. -/
structure Desk where
  scene : Scene Job
  trace : Trace

namespace Desk

/-- What may happen next while nobody asks the worker to stop.  A turn of the job makes at most
one report, and one that ends the job leaves the trace as it is. -/
inductive Move : Desk → Happening → Desk → Prop
  | call {scene next : Scene Job} {trace : Trace} {happening : Happening}
      (hmove : scene.Move happening next) (hcall : happening.IsCall) :
      Move ⟨scene, trace⟩ happening ⟨next, trace⟩
  | post {future : Future Job} {doing : Activity} {run : Run Job} {job rest : Job}
      {trace after : Trace} {step : Step}
      (hrun : future.run = some run) (hphase : run.phase = .running job)
      (hturn : job.turn run trace = (after, ⟨[step], .work rest⟩)) :
      Move ⟨⟨future, .talking, doing⟩, trace⟩
        (.posts (run.meter.advance step).2 (decide (run.queue.length < run.capacity)))
        ⟨⟨future.take ⟨[step], .work rest⟩, .talking, doing⟩, after⟩
  | work {future : Future Job} {doing : Activity} {run : Run Job} {job rest : Job}
      {trace after : Trace}
      (hrun : future.run = some run) (hphase : run.phase = .running job)
      (hturn : job.turn run trace = (after, ⟨[], .work rest⟩)) :
      Move ⟨⟨future, .talking, doing⟩, trace⟩ .works
        ⟨⟨future.take ⟨[], .work rest⟩, .talking, doing⟩, after⟩
  | hangUp {future : Future Job} {doing : Activity} {run : Run Job} {job : Job} {trace : Trace}
      {result : Except Failure String}
      (hrun : future.run = some run) (hphase : run.phase = .running job)
      (hturn : job.turn run trace = (trace, ⟨[], .finished result⟩)) :
      Move ⟨⟨future, .talking, doing⟩, trace⟩ .hangsUp ⟨⟨future, .silent, doing⟩, trace⟩
  | resolve {future : Future Job} {doing : Activity} {run : Run Job} {job : Job} {trace : Trace}
      {result : Except Failure String} {closing : Except Failure Unit} {last : ProgressEvent}
      (hrun : future.run = some run) (hphase : run.phase = .running job)
      (hturn : job.turn run trace = (trace, ⟨[], .finished result⟩))
      (hresolved : (future.take ⟨[], .finished result⟩).phase? = some (.resolved closing last)) :
      Move ⟨⟨future, .silent, doing⟩, trace⟩ (.resolves closing last)
        ⟨⟨future.take ⟨[], .finished result⟩, .silent, doing⟩, trace⟩
  | hand {future : Future Job} {doing : Activity} {trace : Trace}
      {result : Except Failure Unit} {last : ProgressEvent}
      (hphase : future.phase? = some (.resolved result last)) :
      Move ⟨⟨future, .silent, doing⟩, trace⟩ .hands ⟨⟨future, .handed, doing⟩, trace⟩

/-- What may happen one after another. -/
inductive Moves (start : Desk) : List Happening → Desk → Prop
  | refl : Moves start [] start
  | snoc {history : List Happening} {desk next : Desk} {happening : Happening}
      (hmoves : Moves start history desk) (hmove : Move desk happening next) :
      Moves start (history ++ [happening]) next

section Moves

variable {start desk next : Desk} {happening : Happening} {history : List Happening}

/-- At a desk nothing happens that may not happen between any caller and any worker. -/
theorem Move.scene
    (hmove : Move desk happening next) :
    desk.scene.Move happening next.scene := by
  cases hmove with
  | call hmove => exact hmove
  | post hrun hphase => exact .post _ _ hrun hphase
  | work hrun hphase => exact .work _ (by simpa [Future.phase?, hrun] using hphase)
  | hangUp hrun hphase => exact .hangUp (by simpa [Future.phase?, hrun] using hphase)
  | resolve hrun hphase _ hresolved =>
      exact .resolve _ (by simpa [Future.phase?, hrun] using hphase) hresolved
  | hand hphase => exact .hand hphase

theorem Move.begins_nothing
    (hmove : Move desk happening next) (capacity : Nat) :
    happening ≠ .schedules capacity (.ok ()) := by
  rintro rfl
  cases hmove with
  | call _ hcall => exact hcall rfl

theorem Moves.scene
    (hmoves : Moves start history desk) :
    start.scene.Moves history desk.scene ∧
      ∀ capacity, .schedules capacity (.ok ()) ∉ history := by
  induction hmoves with
  | refl => exact ⟨.refl, fun _ hmem => by cases hmem⟩
  | snoc _ hmove ih =>
      refine ⟨ih.1.snoc hmove.scene, fun capacity hmem => ?_⟩
      rcases List.mem_append.1 hmem with hmem | hmem
      · exact ih.2 capacity hmem
      · exact hmove.begins_nothing capacity (List.mem_singleton.1 hmem).symm

end Moves

/-- How the desk stands of a worker whose job comes to a whole reading: it has posted what its
job has reported so far and the rest of the job comes to the rest, or it has posted all and
the result is there. -/
inductive Stands (name : String) (whole : Reading String) (history : List Happening)
    (desk : Desk) : Prop
  | underway {run : Run Job} {job : Job} {done : List Step}
      (hrun : desk.scene.future.run = some run) (hphase : run.phase = .running job)
      (hcalm : run.interrupted = false)
      (hmeter : run.meter = ((Meter.start name).advanceAll done).1)
      (hposted : posted history = ((Meter.start name).advanceAll done).2)
      (hwhole : whole = { job.outcome desk.trace with
        steps := done ++ (job.outcome desk.trace).steps })
      (hsilent : ∀ result last, .resolves result last ∉ history)
  | resolved
      (hstage : desk.scene.future.stage ≠ .running)
      (htrace : desk.trace = whole.trace)
      (htold : ∀ result last, .resolves result last ∈ history →
        result = whole.result.map (fun _ => ()) ∧
          posted history ++ [last] = whole.events name fun message => message)

section Stands

variable
  {start desk next : Desk} {happening : Happening} {history : List Happening} {name : String}
  {whole : Reading String}

/-- A turn that leaves work goes on with the whole. -/
theorem Stands.of_work
    {future : Future Job} {line : Line} {doing : Activity} {run : Run Job} {job rest : Job}
    {trace after : Trace} {done reports : List Step}
    (hrun : future.run = some run)
    (hcalm : run.interrupted = false)
    (hmeter : run.meter = ((Meter.start name).advanceAll done).1)
    (hwhole : whole = { job.outcome trace with steps := done ++ (job.outcome trace).steps })
    (hturn : job.turn run trace = (after, ⟨reports, .work rest⟩))
    (hroom : run.queue.length ≤ run.capacity)
    (hposted : posted history = ((Meter.start name).advanceAll (done ++ reports)).2)
    (hsilent : ∀ result last, .resolves result last ∉ history) :
    Stands name whole history ⟨⟨future.take ⟨reports, .work rest⟩, line, doing⟩, after⟩ := by
  have hnext : (future.take ⟨reports, .work rest⟩).run =
      some ((reports.foldl Run.report run).standing (.running rest)) := by
    rw [Future.take_work_of_run hrun]
    rfl
  refine .underway hnext rfl ?_ ?_ hposted ?_ hsilent
  · simpa [Run.standing] using hcalm
  · rw [Meter.advanceAll_append, ← hmeter]
    exact (Run.meter_queue_foldl_report hroom reports).1
  · rw [hwhole, Job.outcome_of_work hcalm hturn, List.append_assoc]

/-- **What was posted and what is still to come make up the whole**, whatever happens next. -/
theorem Move.stands
    (hmove : Move desk happening next) (hsound : desk.scene.Sound)
    (hfits : desk.scene.future.stage = .running →
      desk.scene.future.queue.length ≤ desk.scene.future.room)
    (hstands : Stands name whole history desk) :
    Stands name whole (history ++ [happening]) next := by
  cases hstands with
  | resolved hstage htrace htold =>
      cases hmove with
      | call hmove hcall =>
          refine .resolved (hmove.stage_ne_running_of_call hcall hstage) htrace
            fun result last hmem => ?_
          rw [posted_append, posted_singleton, hcall.posted?_eq_none]
          simpa using htold result last (by simpa [hcall.ne_resolves] using hmem)
      | hand =>
          refine .resolved hstage htrace fun result last hmem => ?_
          simpa using htold result last (by simpa using hmem)
      -- every other move is one of a worker at its job
      | post hrun hphase => exact absurd (Future.stage_of_running hrun hphase) hstage
      | work hrun hphase => exact absurd (Future.stage_of_running hrun hphase) hstage
      | hangUp hrun hphase => exact absurd (Future.stage_of_running hrun hphase) hstage
      | resolve hrun hphase => exact absurd (Future.stage_of_running hrun hphase) hstage
  | @underway run job done hrun hphase hcalm hmeter hposted hwhole hsilent =>
      replace hfits := hfits (Future.stage_of_running hrun hphase)
      rw [Future.queue_of_run hrun, Future.room_of_run hrun] at hfits
      cases hmove with
      | call hmove hcall =>
          obtain ⟨queue, hnext⟩ := hmove.run_of_call hsound hcall hrun hphase
          refine .underway hnext hphase hcalm hmeter ?_ hwhole ?_
          · rw [posted_append, posted_singleton, hcall.posted?_eq_none, hposted]
            exact List.append_nil _
          · simpa [hcall.ne_resolves] using hsilent
      | @post _ _ other _ _ _ _ step hother hrunning hturn =>
          obtain rfl : other = run := Option.some.inj (hother.symm.trans hrun)
          cases hrunning.symm.trans hphase
          refine .of_work hother hcalm hmeter hwhole hturn hfits ?_ (by simpa)
          rw [Meter.advanceAll_append, ← hmeter, posted_append, hposted]
          rfl
      | @work _ _ other _ _ _ _ hother hrunning hturn =>
          obtain rfl : other = run := Option.some.inj (hother.symm.trans hrun)
          cases hrunning.symm.trans hphase
          exact .of_work hother hcalm hmeter hwhole hturn hfits (by simpa) (by simpa)
      | hangUp =>
          exact .underway hrun hphase hcalm hmeter (by simpa using hposted) hwhole (by simpa)
      | @resolve _ _ other _ _ result closing last hother hrunning hturn hresolved =>
          obtain rfl : other = run := Option.some.inj (hother.symm.trans hrun)
          cases hrunning.symm.trans hphase
          dsimp only at hwhole
          rw [Job.outcome_of_finished hcalm hturn, List.append_nil] at hwhole
          subst hwhole
          refine .resolved (by simp [Future.stage_eq_resolved_iff.mpr hresolved]) rfl
            fun answer final hmem => ?_
          obtain ⟨rfl, rfl⟩ : answer = closing ∧ final = last := by
            simpa [hsilent] using hmem
          rw [Future.take_finished_of_run hother] at hresolved
          rw [posted_append, hposted]
          simpa using Reading.events_of_resolved _ hmeter (Option.some.inj hresolved)
      | hand hresolved =>
          dsimp only at hrun
          simp [Future.phase?, hrun, hphase] at hresolved

theorem Moves.stands
    {capacity : Nat}
    (hmoves : Moves start history desk) (hsound : start.scene.Sound)
    (hledger : start.scene.Ledger capacity [])
    (hstands : Stands name whole [] start) :
    Stands name whole history desk := by
  induction hmoves with
  | refl => exact hstands
  | snoc hmoves hmove ih =>
      obtain ⟨hscene, hbegins⟩ := hmoves.scene
      have hsofar := hscene.sound hsound
      refine hmove.stands hsofar (fun hrunning => ?_) ih
      obtain ⟨hroom, -, hfits⟩ := (hscene.ledger hsound hbegins hledger).of_running hsofar hrunning
      rwa [hroom]

/-- **With room for all reports of a job, everything is heard** by the time that its result is
collected, as if the job had been done in a call. -/
theorem Moves.hears_all
    {capacity : Nat} {before after : Scene Job} {bound : Option Nat}
    {result : Except Failure Unit}
    (hschedule : before.Move (.schedules capacity (.ok ())) start.scene)
    (hstands : Stands name whole [] start)
    (hroom : whole.steps.length ≤ capacity)
    (hmoves : Moves start history desk)
    (hreturns : desk.scene.Move (.returns bound (.collected result)) after) :
    heard history = whole.events name (fun message => message) ∧
      result = whole.result.map (fun _ => ()) ∧ desk.trace = whole.trace := by
  obtain ⟨hsound, hledger⟩ := hschedule.ledger_of_schedules
  obtain ⟨hscene, hbegins⟩ := hmoves.scene
  obtain ⟨last, hresolves, -, hheard, -, -, hdropped, -⟩ :=
    hscene.delivery hschedule hbegins hreturns
  cases hmoves.stands hsound hledger hstands with
  | underway _ _ _ _ _ _ hsilent => exact absurd hresolves (hsilent _ _)
  | resolved _ htrace htold =>
      obtain ⟨hresult, hevents⟩ := htold _ _ hresolves
      have hcount : (posted history).length ≤ capacity := by
        have hlength := congrArg List.length hevents
        simp only [Reading.events, List.length_append, Meter.length_advanceAll,
          List.length_singleton] at hlength
        omega
      have hkept : kept history = posted history := by
        refine kept_eq_posted fun event found hposts => ?_
        -- before this report fewer were made than there is room for
        obtain ⟨earlier, later, rfl⟩ := List.append_of_mem hposts
        have hfew := (kept_sublist_posted earlier).length_le
        have hdrop := hdropped earlier event found later rfl
        rw [posted_append, ← List.singleton_append, posted_append, posted_singleton] at hcount
        simp only [Happening.posted?, Option.toList_some, List.length_append,
          List.length_singleton] at hcount
        by_contra hfound
        have hfull := hdrop.1 (by simpa using hfound)
        omega
      exact ⟨by rw [hheard, hkept, hevents], hresult, htrace⟩

end Stands

end Desk

namespace Session

/-- What is heard of a read that a worker did is what is heard of the read. -/
theorem events_told
    (reading : Reading ChunkTotals) (name : String) :
    (told reading).events name (fun message => message) =
      reading.events name ChunkTotals.completion := by
  simp only [Reading.events, told]
  cases reading.result <;> rfl

/-- **What is heard of a job that a worker has ended**, if there was room for its reports. -/
theorem Worked.events_eq
    {before after : Session} {id : FutureId} {future : Future Job} {run : Run Job}
    {trace : TraceId} {held : HeldTrace} {reading : Reading String} {name : String}
    (hworked : Worked before after id future run trace held reading)
    (hid : future.id = id) (hcalm : run.interrupted = false)
    (hmeter : run.meter = .start name) (hqueue : run.queue = [])
    (hroom : reading.steps.length ≤ run.capacity)
    (seconds : Option Nat) :
    (after.wait id seconds).events =
      future.heard (reading.events name fun message => message) := by
  obtain ⟨asked, hflagged⟩ := hworked.unflagged hcalm
  obtain ⟨last, hphase, -, hevents, -⟩ := hflagged.wait_eq hid seconds
  have hfits : run.queue.length ≤ run.capacity := by simp [hqueue]
  obtain ⟨hadvanced, hqueued⟩ := Run.meter_queue_foldl_report hfits reading.steps
  rw [hmeter] at hadvanced hqueued
  rw [hevents, hqueued, hqueue, List.nil_append,
    List.take_of_length_le (by rwa [Meter.length_advanceAll]),
    (Reading.events_of_resolved reading.trace hadvanced hphase).2]

section Story

variable
  {session : Session} {database : DatabaseId} {attached : Attached} {trace : Trace}
  {request : Request}

/-- A read reports at most once for each track. -/
theorem length_steps_loadEach
    (source : Source) (request : Request) (trace : Trace) :
    (source.loadEach request trace).steps.length ≤ request.tracks.length := by
  have hload : source.loadEach request trace = (Course.calm source).load .each request trace :=
    (Course.load_calm source .each request trace).symm
  obtain ⟨count, hdone, -⟩ := ((Course.calm source).tells .each request trace source.name).each rfl
  have hlength := congrArg List.length
    (hdone ▸ (Course.calm source).map_message_steps .each request trace)
  rw [hload]
  simp only [List.length_map, List.length_take] at hlength
  omega

/-- The desk of a worker that is to begin with a read. -/
def readDesk
    (session : Session) (attached : Attached) (trace : Trace) (request : Request)
    (future : Future Job) : Desk :=
  ⟨⟨session.readFuture attached trace.id request future, .talking, .free⟩, trace⟩

/-- **What is heard of a read.**  In a call it is one busy event for each track that was
stored, or one for a batch that succeeded, and then one closing event: success with the totals
if the read succeeded, else the text of its failure.  This holds of whatever course the read
takes.

Given to the worker of a future that has room for an event of each track, and not asked to
stop, the same read is heard as in a call that reads track by track: whatever the caller
drains before and however often it gives up a wait, by the end of the wait that collects the
result it has heard the same events. -/
theorem read_story
    (request : Request)
    (hdatabase : session.database database = .ok attached)
    (hserved : session.servedTrace database attached = .ok trace) :
    (∀ (course : Course) (mode : ReadMode),
      course.Tells mode request trace attached.source.name) ∧
    (∀ mode : ReadMode,
      let reading := (Course.calm attached.source).load mode request trace
      (session.read database request mode).events =
          reading.events attached.source.name ChunkTotals.completion ∧
        (session.read database request mode).result = reading.result) ∧
    ∀ {config : Config} {id : FutureId} {future : Future Job},
      Reachable config session → session.future id = .ok future → future.isInFlight = false →
      request.tracks.length ≤ session.config.progressCapacity →
        let each := session.read database request .each
        ∃ scheduled : Session,
          session.scheduleRead database request id = .ok scheduled ∧
          scheduled.future id = .ok (session.readDesk attached trace request future).scene.future ∧
          (∀ seconds : Option Nat,
            ((scheduled.complete id).wait id seconds).events = future.heard each.events) ∧
          ∀ {history : List Happening} {desk : Desk} {after : Scene Job} {bound : Option Nat}
            {result : Except Failure Unit},
            (session.readDesk attached trace request future).Moves history desk →
            desk.scene.Move (.returns bound (.collected result)) after →
              heard history = each.events ∧ result = each.result.map (fun _ => ()) ∧
                each.session = session.putTrace desk.trace := by
  refine ⟨fun course mode => course.tells mode request trace _, fun mode => ?_, ?_⟩
  · simp only [read_eq hdatabase hserved, Course.load_calm, and_self]
  · intro config id future hreach hfuture hidle hroom
    obtain ⟨number, held, hheld, rfl⟩ := held_of_servedTrace hserved
    have hnumbered := numbered_of_reachable hreach
    have hworking := working_scheduled request attached hnumbered hheld hfuture
    have hsteps := (length_steps_loadEach attached.source request held.trace).trans hroom
    refine ⟨_, scheduleRead_eq request hdatabase hserved hfuture hidle,
      future_eq_ok_iff.2 hworking.carried, fun seconds => ?_, ?_⟩
    · have hworked := worked_complete hworking
      rw [hworked.events_eq hworking.carriedId rfl rfl rfl (hsteps.trans (Nat.le_max_right _ _)),
        events_told, read_eq hdatabase hserved]
      rfl
    · intro history desk after bound result hmoves hreturns
      have hschedule : Scene.Move ⟨future, .talking, .free⟩
          (.schedules session.config.progressCapacity (.ok ()))
          (session.readDesk attached held.trace request future).scene :=
        .schedule (Future.schedule_of_idle hidle _ _ _ _)
      have hstands : (session.readDesk attached held.trace request future).Stands
          attached.source.name (told (attached.source.loadEach request held.trace)) [] := by
        have hmeter : (session.readRun attached held.trace.id request).meter =
            ((Meter.start attached.source.name).advanceAll []).1 := rfl
        exact .underway rfl rfl rfl hmeter rfl rfl nofun
      obtain ⟨hheard, hresult, htrace⟩ :=
        hmoves.hears_all hschedule hstands hsteps hreturns
      rw [read_eq hdatabase hserved, hheard, events_told, hresult, htrace]
      refine ⟨rfl, ?_, rfl⟩
      simp only [told, Source.load]
      cases (attached.source.loadEach request held.trace).result <;> rfl

end Story

section Example

/-- A wait gives up after the first track, and another collects the result. -/
theorem read_story_capture :
    ((Course.cutShort.load .each both loaded).events "capture" ChunkTotals.completion).map
        ProgressEvent.says =
      [("capture", .busy, "track#1 loaded"), ("capture", .error, "interrupted: capture")] ∧
      ∃ history desk after,
        (ready.readDesk ⟨capture.toSource, .empty, some ⟨0⟩⟩ loaded both (.fresh ⟨0⟩ true)).Moves
          history desk ∧
        desk.scene.Move (.returns none (.collected (.ok ()))) after ∧
        .returns (some 0) .timedOut ∈ history ∧
        heard history = (ready.read ⟨0⟩ both .each).events ∧
        (heard history).map ProgressEvent.says =
          [("capture", .busy, "track#1 loaded"), ("capture", .busy, "track#0 loaded"),
            ("capture", .success, "2 chunks loaded, 3 records")] := by
  have hserved : ready.servedTrace ⟨0⟩ ⟨capture.toSource, .empty, some ⟨0⟩⟩ = .ok loaded := rfl
  have hfuture : ready.future ⟨0⟩ = .ok (.fresh ⟨0⟩ true) := rfl
  obtain ⟨htells, hreads, hfutures⟩ := read_story both rfl hserved
  obtain ⟨scheduled, -, -, -, hheard⟩ := hfutures reachable_ready hfuture rfl (by decide)
  have hfirst : Desk.Moves (ready.readDesk ⟨capture.toSource, .empty, some ⟨0⟩⟩ loaded both
      (.fresh ⟨0⟩ true)) _ _ :=
    ((Desk.Moves.refl.snoc (.work rfl rfl rfl)).snoc (.work rfl rfl rfl)).snoc (.post rfl rfl rfl)
  have hgiven := (((hfirst.snoc (.call (.wait (some 0)) trivial)).snoc
    (.call (.hear rfl rfl) trivial)).snoc
    (.call (.expire (Option.some_ne_none _) nofun) trivial)).snoc (.call .giveUp trivial)
  have hsecond := ((hgiven.snoc (.work rfl rfl rfl)).snoc (.post rfl rfl rfl)).snoc
    (.hangUp rfl rfl rfl)
  have hresolved := ((hsecond.snoc (.resolve rfl rfl rfl rfl)).snoc (.hand rfl)).snoc
    (.call (.wait none) trivial)
  have hcollected := ((hresolved.snoc (.call (.receive rfl) trivial)).snoc
    (.call (.hear rfl rfl) trivial)).snoc (.call (.hearLast (.inr rfl)) trivial)
  have hevents := (hheard hcollected .finish).1
  have hresult : ((Course.calm capture.toSource).load .each both loaded).result =
      .ok ⟨2, 3, 256⟩ := by
    have hbatch := (hreads .batch).2.symm.trans result_read_ready
    rw [Course.load_calm] at hbatch ⊢
    exact (Source.result_loadEach rfl).trans hbatch
  refine ⟨(htells .cutShort .each).events.trans ?_, _, _, _, hcollected, .finish, by simp, hevents,
    ?_⟩
  · obtain ⟨steps, hload⟩ := Course.load_cutShort
    rw [hload]
    rfl
  · rw [hevents, (hreads .each).1, (htells (.calm capture.toSource) .each).events, hresult]
    rfl

end Example

end Session

end TimelineStore
