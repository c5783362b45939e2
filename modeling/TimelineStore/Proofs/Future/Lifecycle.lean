import TimelineStore.Proofs.Future.Moves

/-!
# The life of a future

Everything a future says is settled by what happened since an operation was last
scheduled on it: whether that operation was resolved, whether a wait has returned its
result, and whether a wait gave up on it before.

**Results.**
* `Scene.Moves.tells`: the run and the state tell what happened since.
* `Scene.yields_of_resolved`: a wait without bound on a resolved operation returns its
  result, whatever happens in between.
* `Scene.Moves.lifecycle`: what schedules, waits and looks answer after any moves.
-/

namespace TimelineStore

/-- An operation is scheduled. -/
def Happening.begins : Happening → Bool
  | .schedules _ (.ok _) => true
  | _ => false

/-- The caller is in a wait without bound. -/
def Activity.endless : Activity → Bool
  | .waiting bound _ => bound.isNone
  | .settling bound _ _ _ => bound.isNone
  | .closing bound _ => bound.isNone
  | _ => false

/-- How many moves the caller's wait on a resolved run still has at most, the queue
aside. -/
def Activity.left : Activity → Nat
  | .waiting _ false => 4
  | .waiting _ true => 3
  | .settling _ _ _ _ => 2
  | .closing _ _ => 1
  | _ => 0

/-- What happened since an operation was last scheduled, if one ever was. -/
def sinceScheduled : List Happening → Option (List Happening)
  | [] => none
  | happening :: rest =>
    (sinceScheduled rest).or (if happening.begins then some rest else none)

/-- One more happening either begins an operation or is one more since the last. -/
theorem sinceScheduled_concat
    (history : List Happening) (happening : Happening) :
    sinceScheduled (history ++ [happening]) =
      if happening.begins then some []
      else (sinceScheduled history).map (· ++ [happening]) := by
  induction history with
  | nil => simp [sinceScheduled]
  | cons first history ih =>
      rw [List.cons_append, sinceScheduled, ih, sinceScheduled]
      cases happening.begins with
      | true => simp
      | false => cases sinceScheduled history <;> cases first.begins <;> simp

/-- The operation that was scheduled last was not resolved. -/
def Unresolved (history : List Happening) : Prop :=
  ∃ since, sinceScheduled history = some since ∧ ∀ result last, .resolves result last ∉ since

/-- The operation that was scheduled last was resolved with the result. -/
def ResolvedWith (history : List Happening) (result : Except Failure Unit) : Prop :=
  ∃ since last, sinceScheduled history = some since ∧ .resolves result last ∈ since

/-- A wait on the operation that was scheduled last gave up. -/
def GivenUp (history : List Happening) : Prop :=
  ∃ since bound, sinceScheduled history = some since ∧ .returns bound .timedOut ∈ since

/-- Nothing was scheduled since a wait last returned a result, or ever. -/
def NothingLeft (history : List Happening) : Prop :=
  ∀ since, sinceScheduled history = some since →
    ∃ bound result, .returns bound (.collected result) ∈ since

namespace Happening.Idle

variable {happening : Happening}

theorem begins_eq_false
    (hidle : happening.Idle) :
    happening.begins = false := by
  unfold Happening.Idle at hidle
  unfold Happening.begins
  split <;> simp_all

theorem ne_resolves
    (hidle : happening.Idle) (result : Except Failure Unit) (last : ProgressEvent) :
    .resolves result last ≠ happening := by
  rintro rfl
  exact hidle

theorem ne_collected
    (hidle : happening.Idle) (bound : Option Nat) (result : Except Failure Unit) :
    .returns bound (.collected result) ≠ happening := by
  rintro rfl
  exact hidle

theorem ne_timedOut
    (hidle : happening.Idle) (bound : Option Nat) :
    .returns bound .timedOut ≠ happening := by
  rintro rfl
  exact hidle

end Happening.Idle

namespace Scene

variable {ω : Type} {start scene next : Scene ω} {happening : Happening}

/-- What a future tells of the happenings since an operation was last scheduled. -/
inductive Tells (future : Future ω) : Option (List Happening) → Prop
  | unused
      (hrun : future.run = none) (hstate : future.state = .idle) :
      Tells future none
  | pending {since : List Happening}
      (hstage : future.stage = .running)
      (hresolves : ∀ result last, .resolves result last ∉ since)
      (hreturns : ∀ bound result, .returns bound (.collected result) ∉ since)
      (hstate :
        future.state = .scheduled ∧ (∀ bound, .returns bound .timedOut ∉ since) ∨
        future.state = .timedOut ∧ ∃ bound, .returns bound .timedOut ∈ since) :
      Tells future (some since)
  | resolved {since : List Happening} {result : Except Failure Unit} {last : ProgressEvent}
      (hstage : future.stage = .resolved result last)
      (hresolves :
        ∀ other event, .resolves other event ∈ since ↔ other = result ∧ event = last)
      (hreturns : ∀ bound other, .returns bound (.collected other) ∉ since) :
      Tells future (some since)
  | collected {since : List Happening} {result : Except Failure Unit}
      (hrun : future.run = none) (hstate : future.state = Future.stateOf result)
      (hresolves : ∃ last,
        ∀ other event, .resolves other event ∈ since ↔ other = result ∧ event = last)
      (hreturns : ∃ bound, .returns bound (.collected result) ∈ since) :
      Tells future (some since)

namespace Tells

variable {future after : Future ω} {told : Option (List Happening)}

theorem of_running
    (htells : Tells future told) (hrunning : future.stage = .running) :
    ∃ since, told = some since ∧
      (∀ result last, .resolves result last ∉ since) ∧
      (∀ bound result, .returns bound (.collected result) ∉ since) ∧
      (future.state = .scheduled ∧ (∀ bound, .returns bound .timedOut ∉ since) ∨
        future.state = .timedOut ∧ ∃ bound, .returns bound .timedOut ∈ since) := by
  cases htells with
  | unused hrun => simp [Future.stage_eq_empty_iff.mpr hrun] at hrunning
  | pending _ hresolves hreturns hstate => exact ⟨_, rfl, hresolves, hreturns, hstate⟩
  | resolved hstage => simp [hstage] at hrunning
  | collected hrun => simp [Future.stage_eq_empty_iff.mpr hrun] at hrunning

theorem of_resolved
    {result : Except Failure Unit} {last : ProgressEvent}
    (htells : Tells future told) (hresolved : future.stage = .resolved result last) :
    ∃ since, told = some since ∧
      (∀ other event, .resolves other event ∈ since ↔ other = result ∧ event = last) ∧
      ∀ bound other, .returns bound (.collected other) ∉ since := by
  cases htells with
  | unused hrun => simp [Future.stage_eq_empty_iff.mpr hrun] at hresolved
  | pending hstage => simp [hstage] at hresolved
  | resolved hstage hresolves hreturns =>
      rw [hstage] at hresolved
      cases hresolved
      exact ⟨_, rfl, hresolves, hreturns⟩
  | collected hrun => simp [Future.stage_eq_empty_iff.mpr hrun] at hresolved

/-- What goes on without beginning, resolving or ending an operation is not told. -/
theorem idle
    (htells : Tells future told) (hidle : happening.Idle)
    (hstage : after.stage = future.stage) (hstate : after.state = future.state) :
    Tells after (told.map (· ++ [happening])) := by
  have hrun : future.run = none → after.run = none := by
    rw [← Future.stage_eq_empty_iff, ← Future.stage_eq_empty_iff, hstage]
    exact id
  cases htells with
  | unused hnone hidle => exact .unused (hrun hnone) (hstate.trans hidle)
  | pending hrunning hresolves hreturns htimed =>
      refine .pending (hstage.trans hrunning) ?_ ?_ ?_
      · simpa [hidle.ne_resolves] using hresolves
      · simpa [hidle.ne_collected] using hreturns
      · simpa [hidle.ne_timedOut, hstate] using htimed
  | resolved hresolved hresolves hreturns =>
      refine .resolved (hstage.trans hresolved) ?_ ?_
      · simpa [hidle.ne_resolves] using hresolves
      · simpa [hidle.ne_collected] using hreturns
  | collected hnone hleft hresolves hreturns =>
      refine .collected (hrun hnone) (hstate.trans hleft) ?_ ?_
      · simpa [hidle.ne_resolves] using hresolves
      · simpa [hidle.ne_collected] using hreturns

/-- A wait that gives up leaves the run, and its mark while the run is pending. -/
theorem overdue
    (htells : Tells future told) (hrun : future.run ≠ none) (bound : Option Nat) :
    Tells future.overdue (told.map (· ++ [.returns bound .timedOut])) := by
  cases htells with
  | unused hnone => exact absurd hnone hrun
  | pending hstage hresolves hreturns =>
      exact .pending hstage (by simpa using hresolves) (by simpa using hreturns)
        (.inr ⟨rfl, bound, by simp⟩)
  | resolved hstage hresolves hreturns =>
      exact .resolved hstage (by simpa using hresolves) (by simpa using hreturns)
  | collected hnone => exact absurd hnone hrun

end Tells

/-- Each move leaves the future telling what has happened now. -/
theorem Move.tells
    {history : List Happening}
    (hmove : Move scene happening next) (hsound : scene.Sound)
    (htells : Tells scene.future (sinceScheduled history)) :
    Tells next.future (sinceScheduled (history ++ [happening])) := by
  rw [sinceScheduled_concat]
  rcases hmove.future_cases with
    ⟨capacity, rfl, -, hstage, hstate⟩ | ⟨result, last, rfl, hrunning, hstage, hstate⟩ |
    ⟨bound, rfl, hdoing, hfuture⟩ | ⟨bound, result, rfl, hdoing, hfuture⟩ |
    ⟨hidle, hstage, hstate⟩
  · exact .pending hstage (by simp) (by simp) (.inl ⟨hstate, by simp⟩)
  · obtain ⟨since, htold, hresolves, hreturns, -⟩ := htells.of_running hrunning
    rw [htold]
    exact .resolved hstage (by simp [hresolves]) (by simp [hreturns])
  · have hsuits := hsound.doing
    rw [hdoing] at hsuits
    rw [hfuture]
    exact htells.overdue hsuits.2 bound
  · have hsuits := hsound.doing
    rw [hdoing] at hsuits
    obtain ⟨-, -, last, hresolved⟩ := hsuits
    obtain ⟨since, htold, hresolves, -⟩ := htells.of_resolved hresolved
    rw [hfuture, htold]
    exact .collected rfl rfl ⟨last, by simpa using hresolves⟩ ⟨bound, by simp⟩
  · simpa [hidle.begins_eq_false] using htells.idle hidle hstage hstate

/-- After any moves from the start, the future tells what has happened. -/
theorem Moves.tells
    {id : FutureId} {listens : Bool} {history : List Happening}
    (hmoves : Moves (opening id listens) history scene) :
    Tells scene.future (sinceScheduled history) := by
  induction hmoves with
  | refl => exact .unused rfl rfl
  | snoc hmoves hmove ih => exact hmove.tells (hmoves.sound (sound_opening id listens)) ih

/-- Whatever happens, the wait goes on until it returns the result. -/
inductive Yields (bound : Option Nat) (result : Except Failure Unit) : Scene ω → Prop
  | intro {scene : Scene ω}
      (hsome : ∃ happening next, Move scene happening next)
      (hall : ∀ happening next, Move scene happening next →
        happening ≠ .returns bound (.collected result) → Yields bound result next) :
      Yields bound result scene

/-- How many moves a wait on a resolved run still has at most. -/
def left (scene : Scene ω) : Nat :=
  scene.doing.left + scene.future.queue.length + if scene.line = .handed then 0 else 1

variable {result : Except Failure Unit} {last : ProgressEvent}

/-- A wait without bound on a resolved run is never stuck. -/
theorem exists_move
    (hsound : scene.Sound) (hstage : scene.future.stage = .resolved result last)
    (hendless : scene.doing.endless = true) :
    ∃ happening next, Move scene happening next := by
  have hline := hsound.line
  rw [hstage] at hline
  obtain ⟨future, line, doing⟩ := scene
  have hphase := Future.stage_eq_resolved_iff.mp hstage
  cases doing with
  | waiting bound deaf =>
      cases line with
      | talking => exact absurd rfl hline
      | silent => exact ⟨_, _, .hand hphase⟩
      | handed => exact ⟨_, _, .receive hphase⟩
  | settling bound deaf other event =>
      cases deaf with
      | true => exact ⟨_, _, .hearLast (.inl rfl)⟩
      | false =>
          cases hqueue : future.queue with
          | nil => exact ⟨_, _, .hearLast (.inr hqueue)⟩
          | cons event rest => exact ⟨_, _, .hear rfl hqueue⟩
  | closing bound other => exact ⟨_, _, .finish⟩
  | _ => simp [Activity.endless] at hendless

/-- Every move of such a wait returns the result or brings the wait nearer to its end. -/
theorem Move.left_lt
    (hmove : Move scene happening next)
    (hsound : scene.Sound) (hstage : scene.future.stage = .resolved result last)
    (hendless : scene.doing.endless = true) :
    happening = .returns none (.collected result) ∨
      next.future.stage = .resolved result last ∧ next.doing.endless = true ∧
        next.left < scene.left := by
  have hnone : scene.future.run ≠ none := by
    rw [ne_eq, ← Future.stage_eq_empty_iff, hstage]
    simp
  -- of the moves of a worker only the last is left, to hand the result over
  have hrunning : ∀ work, scene.future.phase? ≠ some (.running work) := by
    intro work hphase
    rw [Future.stage_eq_running_iff.mpr ⟨work, hphase⟩] at hstage
    cases hstage
  cases hmove with
  | hear hhearing hqueue =>
      refine .inr ⟨by simpa using hstage, hendless, ?_⟩
      simp [left, Future.queue_queueing hnone, hqueue]
  | nothing hrun => exact absurd hrun hnone
  | deafen => exact .inr ⟨hstage, hendless, by simp [left, Activity.left]⟩
  | expire => simp [Activity.endless] at hendless
  | @receive _ _ deaf =>
      refine .inr ⟨hstage, hendless, ?_⟩
      cases deaf <;> simp [left, Activity.left]
  | hearLast => exact .inr ⟨hstage, hendless, by simp [left, Activity.left]⟩
  | finish =>
      obtain ⟨-, -, event, hresolved⟩ := hsound.doing
      cases hstage.symm.trans hresolved
      exact .inl (by simpa [Activity.endless] using hendless)
  | post step rest hrun hphase =>
      exact absurd (by rw [Future.phase?, hrun, Option.map_some, hphase]) (hrunning _)
  | work rest hphase => exact absurd hphase (hrunning _)
  | hangUp hphase => exact absurd hphase (hrunning _)
  | resolve _ hphase => exact absurd hphase (hrunning _)
  | hand => exact .inr ⟨hstage, hendless, by simp [left]⟩
  | _ => simp [Activity.endless] at hendless

/-- A wait without bound on a resolved run returns its result, whatever happens. -/
theorem yields_of_resolved
    (hsound : scene.Sound) (hstage : scene.future.stage = .resolved result last)
    (hendless : scene.doing.endless = true) :
    Yields none result scene := by
  -- by induction on how many moves the wait still has at most
  induction hleft : scene.left using Nat.strongRecOn generalizing scene with
  | ind left ih =>
      refine .intro (exists_move hsound hstage hendless) fun happening next hmove hreturn => ?_
      rcases hmove.left_lt hsound hstage hendless with hreturned | ⟨hnext, hgoes, hless⟩
      · exact absurd hreturned hreturn
      · exact ih _ (hleft ▸ hless) (hmove.sound hsound) hnext hgoes rfl

namespace Tells

variable {future : Future ω} {history : List Happening}

theorem isInFlight_eq_false_iff
    (htells : Tells future (sinceScheduled history)) :
    future.isInFlight = false ↔ ¬ Unresolved history := by
  rw [Future.isInFlight_eq_false_iff, Unresolved]
  generalize sinceScheduled history = told at htells
  cases htells with
  | unused hrun => simp [Future.stage_eq_empty_iff.mpr hrun]
  | pending hstage hresolves => simp [hstage, hresolves]
  | resolved hstage hresolves => simp [hstage, hresolves]
  | collected hrun _ hresolves =>
      obtain ⟨last, hresolves⟩ := hresolves
      simp [Future.stage_eq_empty_iff.mpr hrun, hresolves]

theorem run_eq_none_iff
    (htells : Tells future (sinceScheduled history)) :
    future.run = none ↔ NothingLeft history := by
  rw [← Future.stage_eq_empty_iff, NothingLeft]
  generalize sinceScheduled history = told at htells
  cases htells with
  | unused hrun => simp [Future.stage_eq_empty_iff.mpr hrun]
  | pending hstage _ hreturns => simp [hstage, hreturns]
  | resolved hstage _ hreturns => simp [hstage, hreturns]
  | collected hrun _ _ hreturns =>
      obtain ⟨bound, hreturns⟩ := hreturns
      simpa [Future.stage_eq_empty_iff.mpr hrun] using ⟨bound, _, hreturns⟩

theorem resolvedWith_of_stage
    {result : Except Failure Unit} {last : ProgressEvent}
    (htells : Tells future (sinceScheduled history))
    (hstage : future.stage = .resolved result last) :
    ResolvedWith history result := by
  obtain ⟨since, htold, hresolves, -⟩ := htells.of_resolved hstage
  exact ⟨since, last, htold, (hresolves result last).mpr ⟨rfl, rfl⟩⟩

/-- What an operation was resolved with shows until its result is collected. -/
theorem exists_stage_of_resolvedWith
    {result : Except Failure Unit}
    (htells : Tells future (sinceScheduled history))
    (hresolved : ResolvedWith history result) (hrun : future.run ≠ none) :
    ∃ last, future.stage = .resolved result last := by
  obtain ⟨since, last, htold, hmem⟩ := hresolved
  rw [htold] at htells
  cases htells with
  | pending _ hresolves => exact absurd hmem (hresolves result last)
  | resolved hstage hresolves =>
      obtain ⟨rfl, rfl⟩ := (hresolves result last).mp hmem
      exact ⟨_, hstage⟩
  | collected hnone => exact absurd hnone hrun

theorem currentState_iff
    (htells : Tells future (sinceScheduled history)) :
    (future.currentState = .idle ↔ sinceScheduled history = none) ∧
    (future.currentState = .scheduled ↔ Unresolved history ∧ ¬ GivenUp history) ∧
    (future.currentState = .timedOut ↔ Unresolved history ∧ GivenUp history) ∧
    (future.currentState = .succeeded ↔ ResolvedWith history (.ok ())) ∧
    (future.currentState = .failed ↔
      ∃ failure, ResolvedWith history (.error failure)) := by
  rw [Future.currentState_eq, Unresolved, GivenUp]
  unfold ResolvedWith
  generalize sinceScheduled history = told at htells
  cases htells with
  | unused hrun hstate => simp [Future.stage_eq_empty_iff.mpr hrun, hstate]
  | pending hstage hresolves _ hstate =>
      rcases hstate with ⟨hstate, hgave⟩ | ⟨hstate, hgave⟩
      · simp [hstage, hstate, hresolves, hgave]
      · simp [hstage, hstate, hresolves, hgave]
  | @resolved _ result _ hstage hresolves =>
      cases result <;> simp [hstage, hresolves, Future.stateOf, Except.toBool]
  | @collected _ result hrun hstate hresolves =>
      obtain ⟨last, hresolves⟩ := hresolves
      cases result <;>
        simp [Future.stage_eq_empty_iff.mpr hrun, hstate, hresolves, Future.stateOf,
          Except.toBool]

end Tells

/-- How a wait can return: there is no run, its time is over, or it has the result of the
run. -/
theorem Move.returns_cases
    {bound : Option Nat} {ending : Ending}
    (hmove : Move scene (.returns bound ending) next) (hsound : scene.Sound) :
    (ending = .nothing ∧ scene.future.run = none) ∨
    (ending = .timedOut ∧ bound ≠ none ∧ scene.future.run ≠ none ∧
      next.future.run = scene.future.run ∧ next.line = scene.line) ∨
    ∃ result last, ending = .collected result ∧ scene.future.stage = .resolved result last := by
  have hdoing := hsound.doing
  cases hmove with
  | nothing hrun => exact .inl ⟨rfl, hrun⟩
  | giveUp => exact .inr (.inl ⟨rfl, hdoing.1, hdoing.2, rfl, rfl⟩)
  | finish =>
      obtain ⟨-, -, last, hstage⟩ := hdoing
      exact .inr (.inr ⟨_, last, rfl, hstage⟩)

/-- While there is a run, a wait without bound ends with a result only. -/
theorem Move.endless
    (hmove : Move scene happening next)
    (hrun : scene.future.run ≠ none) (hendless : scene.doing.endless = true) :
    next.doing.endless = true ∨ ∃ result, happening = .returns none (.collected result) := by
  cases hmove with
  | nothing hnone => exact absurd hnone hrun
  | @finish _ _ bound result =>
      have hbound : bound = none := by simpa [Activity.endless] using hendless
      exact .inr ⟨result, by rw [hbound]⟩
  | wait => simp [Activity.endless] at hendless
  | expire => simp [Activity.endless] at hendless
  | giveUp => simp [Activity.endless] at hendless
  | _ => exact .inl hendless

/-- After any moves of a caller and a worker, what the future answers is settled by what
happened since an operation was last scheduled. -/
theorem Moves.lifecycle
    {id : FutureId} {listens : Bool} {history : List Happening}
    (hmoves : Moves (opening id listens) history scene) :
    (∀ label source capacity work,
      (∃ after, scene.future.schedule label source capacity work = .ok after) ↔
        ¬ Unresolved history) ∧
    (∀ capacity failure next,
      Move scene (.schedules capacity (.error failure)) next → next = scene) ∧
    (∀ bound ending next, Move scene (.returns bound ending) next →
      (ending = .nothing ↔ NothingLeft history) ∧
      (∀ result, ending = .collected result →
        ResolvedWith history result ∧ ¬ NothingLeft history) ∧
      (ending = .timedOut →
        bound ≠ none ∧ ¬ NothingLeft history ∧
          next.future.run = scene.future.run ∧ next.line = scene.line)) ∧
    (¬ NothingLeft history → scene.doing.endless = true →
      (∀ happening next, Move scene happening next →
        next.doing.endless = true ∨ ∃ result, happening = .returns none (.collected result)) ∧
      ∀ result, ResolvedWith history result → Yields none result scene) ∧
    (scene.future.currentState = .idle ↔ sinceScheduled history = none) ∧
    (scene.future.currentState = .scheduled ↔ Unresolved history ∧ ¬ GivenUp history) ∧
    (scene.future.currentState = .timedOut ↔ Unresolved history ∧ GivenUp history) ∧
    (scene.future.currentState = .succeeded ↔ ResolvedWith history (.ok ())) ∧
    (scene.future.currentState = .failed ↔
      ∃ failure, ResolvedWith history (.error failure)) := by
  have hsound := hmoves.sound (sound_opening id listens)
  have htells := hmoves.tells
  refine ⟨fun label source capacity work => ?_, ?_, fun bound ending next hmove => ?_,
    fun hleft hendless => ⟨fun happening next hmove => ?_, fun result hresolved => ?_⟩,
    htells.currentState_iff⟩
  · simp [Future.schedule_eq_ok_iff, htells.isInFlight_eq_false_iff]
  · rintro capacity failure next ⟨⟩
    rfl
  · rcases hmove.returns_cases hsound with
      ⟨rfl, hrun⟩ | ⟨rfl, hbound, hrun, hkept, hline⟩ | ⟨result, last, rfl, hstage⟩
    · simp [htells.run_eq_none_iff.mp hrun]
    · have hleft := mt htells.run_eq_none_iff.mpr hrun
      simp [hleft, hbound, hkept, hline]
    · have hrun : scene.future.run ≠ none := by
        rw [ne_eq, ← Future.stage_eq_empty_iff, hstage]
        simp
      have hleft := mt htells.run_eq_none_iff.mpr hrun
      simpa [hleft] using htells.resolvedWith_of_stage hstage
  · exact hmove.endless (mt htells.run_eq_none_iff.mp hleft) hendless
  · obtain ⟨last, hstage⟩ :=
      htells.exists_stage_of_resolvedWith hresolved (mt htells.run_eq_none_iff.mp hleft)
    exact yields_of_resolved hsound hstage hendless

/-- A poll gives up before the operation is resolved, and then a wait has no bound. -/
def polling : List Happening :=
  [.schedules 1 (.ok ()), .waits (some 0), .expires, .returns (some 0) .timedOut, .hangsUp,
    .resolves (.ok ()) (Meter.completed "trace" "done"), .hands, .waits none]

/-- The wait without bound that begins after it. -/
def polled : Scene Unit where
  future :=
    ⟨⟨0⟩, true, .timedOut, some ((Run.start "read" "trace" 1 ()).resolve (.ok "done"))⟩
  line := .handed
  doing := .waiting none false

theorem moves_polled :
    Moves (opening ⟨0⟩ true) polling polled := by
  have hbegun : Moves (opening ⟨0⟩ true) _ _ :=
    .single (.schedule (Future.schedule_of_idle rfl "read" "trace" 1 ()))
  have hgone := ((hbegun.snoc (.wait (some 0))).snoc
    (.expire (by simp [Future.carrying]) (by simp))).snoc .giveUp
  have hresolved := (hgone.snoc (.hangUp rfl)).snoc (.resolve (.ok "done") rfl rfl)
  exact (hresolved.snoc (.hand rfl)).snoc (.wait none)

theorem lifecycle_polled :
    Moves (opening ⟨0⟩ true) polling polled ∧
      polled.future.currentState = .succeeded ∧ Yields none (.ok ()) polled := by
  obtain ⟨-, -, -, hyields, -, -, -, hsucceeded, -⟩ := Moves.lifecycle moves_polled
  have hresolved : ResolvedWith polling (.ok ()) :=
    ⟨_, Meter.completed "trace" "done", rfl, by simp⟩
  have hleft : ¬ NothingLeft polling := by
    intro hnothing
    obtain ⟨bound, result, hmem⟩ := hnothing _ rfl
    simp at hmem
  exact ⟨moves_polled, hsucceeded.mpr hresolved, (hyields hleft rfl).2 _ hresolved⟩

end Scene

end TimelineStore
