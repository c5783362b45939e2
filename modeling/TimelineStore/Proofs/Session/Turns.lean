import TimelineStore.Proofs.Session.Isolation
import TimelineStore.Proofs.Session.Residence

/-!
# Turns of workers

While a caller waits, workers make turns in some order.  The worker of a read of detail needs
one turn, after which its future is idle; turns of others change nothing of that future.  No
turn and no wait allocates a future or gives one up.

**Results.**
* `Session.futures_turnAll_of_idle`, `Session.job?_turnAll`: turns that change nothing of a
  future.
* `Session.exists_resolved_turnAll`: a read of detail whose worker made a turn.
* `Session.SameFutures`: what turns and waits leave allocated.
-/

namespace TimelineStore

namespace Session

variable {session next : Session} {config : Config} {id : FutureId} {ids : List FutureId}

theorem turnAll_eq_afterAll
    (session : Session) (ids : List FutureId) :
    session.turnAll ids = session.afterAll (ids.map .turn) := by
  rw [turnAll, afterAll, List.foldl_map]
  rfl

theorem reachable_turnAll
    (hreach : Reachable config session) (ids : List FutureId) :
    Reachable config (session.turnAll ids) := by
  rw [turnAll_eq_afterAll]
  exact reachable_afterAll hreach _

/-- Turns evict no detail, and delete no trace. -/
theorem exists_held_turnAll
    {held : HeldTrace}
    (handle : DetailHandle) (ids : List FutureId)
    (hreach : Reachable config session)
    (hheld : session.traces.get? handle.trace.index = some held) :
    ∃ after : HeldTrace, (session.turnAll ids).traces.get? handle.trace.index = some after ∧
      after.listed = held.listed ∧
      ((held.trace.detail? handle.kind handle.event).isSome = true →
        (after.trace.detail? handle.kind handle.event).isSome = true) := by
  rw [turnAll_eq_afterAll]
  exact exists_held_afterAll hreach hheld (by simp [Call.Forfeits])

/-- Turns create no trace. -/
theorem get?_turnAll_of_none
    {number : Nat}
    (hnone : session.traces.get? number = none)
    (ids : List FutureId) :
    (session.turnAll ids).traces.get? number = none := by
  induction ids generalizing session with
  | nil => exact hnone
  | cons worker ids ih =>
      refine ih ?_
      rcases session.turn_cases worker with hnext | ⟨_, _, _, _, -, -, -, -, hnext⟩
      · rwa [hnext]
      · rw [hnext, traces_putFuture, get?_putTrace, hnone]
        split <;> rfl

section Futures

variable {future : Future Job} {job : Job}

/-- A future on which nothing is in flight is left alone by the turns of all workers. -/
theorem futures_turnAll_of_idle
    (hnumbered : session.Numbered)
    (hfuture : session.futures.get? id.index = some future)
    (hidle : future.isInFlight = false)
    (ids : List FutureId) :
    (session.turnAll ids).futures.get? id.index = some future := by
  induction ids generalizing session with
  | nil => exact hfuture
  | cons worker ids ih =>
      refine ih (hnumbered.turn worker) ?_
      rcases session.turn_cases worker with hnext |
        ⟨working, run, job, held, hworking, hrun, hphase, -, hnext⟩
      · rwa [hnext]
      · have hid : working.id.index = worker.index := by rw [hnumbered.futures _ _ hworking]
        have hother : id.index ≠ worker.index := by
          intro hsame
          rw [← hsame, hfuture] at hworking
          cases hworking
          simp [Future.isInFlight, Run.isPending, hrun, hphase] at hidle
        rw [hnext, get?_putFuture]
        exact (if_neg (hid ▸ hother)).trans hfuture

/-- A job goes on while only other workers make turns. -/
theorem job?_turnAll
    (hnumbered : session.Numbered)
    (hothers : id ∉ ids) :
    (session.turnAll ids).job? id = session.job? id := by
  induction ids generalizing session with
  | nil => rfl
  | cons worker ids ih =>
      have hother : worker ≠ id := fun hsame => hothers (hsame ▸ List.mem_cons_self)
      have hrest : id ∉ ids := fun hmem => hothers (List.mem_cons_of_mem worker hmem)
      exact (ih (hnumbered.turn worker) hrest).trans (job?_turn_of_ne hnumbered hother)

/-- A worker that has a job after a turn had one on the same trace before it. -/
theorem exists_job?_of_turn
    (hnumbered : session.Numbered)
    (hjob : (session.turn id).job? id = some job) :
    ∃ before, session.job? id = some before ∧ job.trace = before.trace := by
  rcases session.turn_cases id with hnext | ⟨future, run, before, held, hfuture, hrun, hphase, -, -⟩
  · exact ⟨job, hnext ▸ hjob, rfl⟩
  · have hbefore : session.job? id = some before :=
      job?_eq_some_iff.2 ⟨future, hfuture, by simp [Future.phase?, hrun, hphase]⟩
    exact ⟨before, hbefore, trace_of_job?_after hnumbered (.turn id) hbefore hjob⟩

theorem job?_of_idle
    (hfuture : session.futures.get? id.index = some future)
    (hidle : future.isInFlight = false) :
    session.job? id = none := by
  by_contra hworking
  obtain ⟨job, hjob⟩ := Option.ne_none_iff_exists'.1 hworking
  obtain ⟨_, hsame, hrunning⟩ := job?_eq_some_iff.1 hjob
  cases hsame.symm.trans hfuture
  cases hidle.symm.trans (isInFlight_of_running hrunning)

theorem isInFlight_of_resolved
    {result : Except Failure Unit} {last : ProgressEvent}
    (hphase : future.phase? = some (.resolved result last)) :
    future.isInFlight = false := by
  obtain ⟨run, hrun, hresolved⟩ := Option.map_eq_some_iff.1 hphase
  simp [Future.isInFlight, Run.isPending, hrun, hresolved]

section Details

variable {source : Source} {target : TraceId} {kind : DetailKind} {event : EventId}

/-- A worker that has a read of detail ends it in one turn.  The detail is resident if the read
succeeded, and no trace has changed if it failed. -/
theorem exists_resolved_turn
    (hnumbered : session.Numbered)
    (hwork : session.AtWork)
    (hjob : session.job? id = some (.detail source target kind event)) :
    ∃ future result last, (session.turn id).futures.get? id.index = some future ∧
      future.phase? = some (.resolved result last) ∧
      (result = .ok () → ∃ held : HeldTrace,
        (session.turn id).traces.get? target.index = some held ∧
          (held.trace.detail? kind event).isSome = true) ∧
      (∀ failure, result = .error failure → session.SameTraces (session.turn id)) := by
  obtain ⟨future, hfuture, hrunning⟩ := job?_eq_some_iff.1 hjob
  obtain ⟨run, hrun, hphase⟩ := Option.map_eq_some_iff.1 hrunning
  obtain ⟨held, hheld, -⟩ := hwork id _ hjob
  obtain ⟨⟨after, last, hafter, hresolved⟩, htraces⟩ :=
    turn_detail hnumbered hfuture hrun hphase hheld
  refine ⟨after, _, last, hafter, hresolved, fun hok => ?_, fun failure hfailed => ?_⟩
  · cases hasked : run.interrupted with
    | true => simp [hasked, Reading.failed, Except.map] at hok
    | false =>
        simp only [hasked, Bool.false_eq_true, if_false] at hok htraces
        cases hread : (source.loadDetail kind event held.trace).result with
        | error failure => simp [hread, Except.map] at hok
        | ok text =>
            obtain ⟨acts, hundergoes, -⟩ := Trace.undergoes_loadDetail source kind event held.trace
            have hid : target.index =
                (source.loadDetail kind event held.trace).trace.id.index := by
              rw [hundergoes.id_eq, hnumbered.traces _ _ hheld]
              rfl
            refine ⟨{ held with trace := (source.loadDetail kind event held.trace).trace }, ?_,
              Source.isSome_detail?_loadDetail hread⟩
            rw [htraces, get?_putTrace]
            exact (if_pos hid).trans (congrArg (Option.map _) hheld)
  · refine sameTraces_of_putTrace hnumbered hheld (htraces.trans ?_)
    cases hasked : run.interrupted with
    | true => rfl
    | false =>
        simp only [hasked, Bool.false_eq_true, if_false] at hfailed ⊢
        cases hread : (source.loadDetail kind event held.trace).result with
        | error failure => rw [Source.trace_loadDetail_of_error hread]
        | ok text => simp [hread, Except.map] at hfailed

/-- A read of detail whose worker made a turn has ended, and the detail is resident if it
succeeded. -/
theorem exists_resolved_turnAll
    (hreach : Reachable config session)
    (hjob : session.job? id = some (.detail source target kind event))
    (hturn : id ∈ ids) :
    ∃ future result last, (session.turnAll ids).futures.get? id.index = some future ∧
      future.phase? = some (.resolved result last) ∧
      (result = .ok () → ∃ held : HeldTrace,
        (session.turnAll ids).traces.get? target.index = some held ∧
          (held.trace.detail? kind event).isSome = true) := by
  induction ids generalizing session with
  | nil => cases hturn
  | cons worker ids ih =>
      have hnumbered := numbered_of_reachable hreach
      have hnext := hreach.step (.turn session worker)
      by_cases hown : worker = id
      · subst hown
        obtain ⟨future, result, last, hfuture, hresolved, hok, -⟩ :=
          exists_resolved_turn hnumbered (atWork_of_reachable hreach) hjob
        refine ⟨future, result, last, futures_turnAll_of_idle (hnumbered.turn worker) hfuture
          (isInFlight_of_resolved hresolved) ids, hresolved, fun hsucceeded => ?_⟩
        obtain ⟨held, hheld, hresident⟩ := hok hsucceeded
        obtain ⟨kept, hkept, -, hstays⟩ := exists_held_turnAll ⟨target, kind, event⟩ ids hnext hheld
        exact ⟨kept, hkept, hstays hresident⟩
      · have hrest : id ∈ ids := (List.mem_cons.1 hturn).resolve_left (Ne.symm hown)
        refine ih hnext ?_ hrest
        rw [job?_turn_of_ne hnumbered hown]
        exact hjob

end Details

end Futures

/-- The same futures are allocated in both sessions. -/
def SameFutures (session next : Session) : Prop :=
  ∀ id : FutureId, (next.futures.get? id.index).isSome = (session.futures.get? id.index).isSome

section SameFutures

theorem SameFutures.trans
    {later : Session}
    (hfirst : session.SameFutures next)
    (hsecond : next.SameFutures later) :
    session.SameFutures later :=
  fun id => (hsecond id).trans (hfirst id)

theorem Treats.sameFutures
    (htreats : session.Treats next) :
    session.SameFutures next := by
  intro id
  rcases htreats with hnext | ⟨_, _, after, -, -, hnext⟩
  · rw [hnext]
  · rw [hnext, get?_putFuture]
    split <;> simp

theorem sameFutures_turnAll
    (session : Session) (ids : List FutureId) :
    session.SameFutures (session.turnAll ids) := by
  induction ids generalizing session with
  | nil => exact fun _ => rfl
  | cons worker ids ih => exact (treats_turn worker).sameFutures.trans (ih (session.turn worker))

end SameFutures

/-- Turns of one worker leave every trace alone that its job is not on. -/
theorem agrees_turnAll
    {other : TraceId} {held : HeldTrace}
    (hreach : Reachable config session)
    (hheld : session.traces.get? other.index = some held)
    (honly : ∀ worker ∈ ids, worker = id)
    (helsewhere : ∀ job, session.job? id = some job → job.trace ≠ other) :
    session.Agrees (session.turnAll ids) other := by
  induction ids generalizing session with
  | nil => exact .refl session other
  | cons worker ids ih =>
      obtain rfl := honly worker List.mem_cons_self
      have hspares : (Call.turn worker).target? session ≠ some other := by
        intro htarget
        obtain ⟨job, hjob, hon⟩ := Option.map_eq_some_iff.1 htarget
        exact helsewhere job hjob hon
      refine (agrees_after hreach hheld hspares).trans
        (ih (hreach.step (.turn session worker)) (held_after hreach hheld hspares)
          (fun worker hworker => honly worker (List.mem_cons_of_mem _ hworker)) ?_)
      intro rest hrest
      obtain ⟨job, hjob, htrace⟩ := exists_job?_of_turn (numbered_of_reachable hreach) hrest
      rw [htrace]
      exact helsewhere job hjob

end Session

end TimelineStore
