import TimelineStore.Client
import TimelineStore.Proofs.Session.Turns

/-!
# Reads of detail that wait

A read of detail of the checked surface allocates a future, schedules a read on it, waits for
it within the default time, and gives the future up.  Workers make turns until the wait ends,
and again until the future is given up; the worker of the read itself may be among them.

The future can be given up only if that worker has made its turn, so a wait that is over before
leaves the future behind, and the failure tells of the giving up.  The read goes into the trace
that the database serves, while the handle is made of the trace that the caller names.

**Results.**
* `Client.readDetailAmid_accounts_iff`: when no future is left behind and failures tell of the
  call that failed.
* `Client.readDetailAmid_handle`: when the handle is valid.
-/

namespace TimelineStore

namespace Session

variable {session next freed : Session} {id : FutureId} {future : Future Job}

/-- The future that is allocated next. -/
def nextFuture (session : Session) : FutureId :=
  ⟨session.futures.next⟩

theorem get?_nextFuture
    (session : Session) :
    session.futures.get? session.nextFuture.index = none := by
  cases hfuture : session.futures.get? session.nextFuture.index with
  | none => rfl
  | some future => exact absurd (Arena.lt_next_of_get? hfuture) (Nat.lt_irrefl _)

theorem free_of_idle
    (hfuture : session.futures.get? id.index = some future)
    (hidle : future.isInFlight = false) :
    ∃ freed, session.free id = .ok freed := by
  refine ⟨_, Outcome.bind_eq_ok_iff.2 ⟨future, future_eq_ok_iff.2 hfuture,
    Outcome.bind_eq_ok_iff.2 ⟨(), ?_, rfl⟩⟩⟩
  simp [Future.ensureIdle, hidle]

theorem free_of_working
    {job : Job}
    (hjob : session.job? id = some job) :
    ∃ failure, session.free id = .error failure ∧ failure.code = .resourceBusy := by
  obtain ⟨future, hfuture, hrunning⟩ := job?_eq_some_iff.1 hjob
  have hbusy : future.ensureIdle =
      .error (.alreadyInUse s!"{future.id} has an operation in flight") := by
    simp [Future.ensureIdle, isInFlight_of_running hrunning]
  refine ⟨.alreadyInUse s!"{future.id} has an operation in flight", ?_, rfl⟩
  rw [free, future_eq_ok_iff.2 hfuture]
  change (future.ensureIdle >>= fun _ => pure _) = _
  rw [hbusy]
  rfl

/-- A future that is allocated and given up again leaves the others allocated. -/
theorem sameFutures_of_free
    (hsame : (session.allocate false).2.SameFutures next)
    (hfree : next.free session.nextFuture = .ok freed) :
    session.SameFutures freed := by
  intro other
  have hfreed : freed.futures.get? other.index =
      if other.index = session.nextFuture.index then none else next.futures.get? other.index := by
    rw [eq_of_free hfree]
    exact next.futures.get?_erase _ _
  rw [hfreed]
  by_cases hown : other.index = session.nextFuture.index
  · rw [if_pos hown, hown, get?_nextFuture]
  · rw [if_neg hown, hsame other]
    exact congrArg Option.isSome ((session.futures.get?_add _ _).trans (if_neg hown))

/-- What a wait for a future comes to. -/
theorem wait_of_future
    (hfuture : session.futures.get? id.index = some future)
    (seconds : Option Nat) :
    session.wait id seconds = ⟨(future.wait seconds).events, (future.wait seconds).result,
      session.putFuture (future.wait seconds).future⟩ := by
  simp only [wait, future_eq_ok_iff.2 hfuture]

end Session

namespace Client

open Session

variable {session scheduled : Session} {config : Config} {database : DatabaseId}
  {trace : TraceId} {kind : DetailKind} {event : EventId} {meanwhile later : List FutureId}
  {failure : Failure}

/-- What the scheduling comes to in a read of detail. -/
def scheduling (session : Session) (database : DatabaseId) (kind : DetailKind) (event : EventId) :
    Except Failure Session :=
  (session.allocate false).2.scheduleDetail database kind event session.nextFuture

/-- What the wait comes to in a read of detail that was scheduled. -/
def waiting (session scheduled : Session) (meanwhile : List FutureId) :
    Told (Except Failure Unit) :=
  (scheduled.turnAll meanwhile).wait session.nextFuture (some session.config.waitSeconds)

/-- The session in which a read of detail that was scheduled gives its future up. -/
def worked (session scheduled : Session) (meanwhile later : List FutureId) : Session :=
  (waiting session scheduled meanwhile).session.turnAll later

section Outcome

theorem readDetailAmid_of_kept
    (trace : TraceId)
    (hscheduling : scheduling session database kind event = .ok scheduled)
    (hfree : (worked session scheduled meanwhile later).free session.nextFuture = .error failure) :
    readDetailAmid session database trace kind event meanwhile later =
      (.error (.call "future_free" failure.code), worked session scheduled meanwhile later) := by
  unfold readDetailAmid awaitDetail
  simp only [scheduling, nextFuture, allocate] at hscheduling hfree ⊢
  simp only [hscheduling]
  simp only [worked, waiting, nextFuture] at hfree ⊢
  simp only [hfree, checked]

theorem readDetailAmid_of_freed
    {freed : Session}
    (trace : TraceId)
    (hscheduling : scheduling session database kind event = .ok scheduled)
    (hfree : (worked session scheduled meanwhile later).free session.nextFuture = .ok freed) :
    readDetailAmid session database trace kind event meanwhile later =
      ((checked "future_wait" (waiting session scheduled meanwhile).result).map
        fun _ => ⟨trace, kind, event⟩, freed) := by
  unfold readDetailAmid awaitDetail
  simp only [scheduling, nextFuture, allocate] at hscheduling hfree ⊢
  simp only [hscheduling]
  simp only [worked, waiting, nextFuture] at hfree ⊢
  simp only [hfree]

/-- A read that cannot be scheduled gives its future up at once. -/
theorem readDetailAmid_of_refused
    (trace : TraceId) (meanwhile later : List FutureId)
    (hreach : Reachable config session)
    (hscheduling : scheduling session database kind event = .error failure) :
    ∃ freed, ((session.allocate false).2.turnAll later).free session.nextFuture = .ok freed ∧
      readDetailAmid session database trace kind event meanwhile later =
        (.error (.call "read_event_property_async" failure.code), freed) := by
  have hopened := hreach.step (.allocate session false)
  have hfuture : (session.allocate false).2.futures.get? session.nextFuture.index =
      some (.fresh session.nextFuture false) :=
    (session.futures.get?_add _ _).trans (if_pos rfl)
  obtain ⟨freed, hfree⟩ := free_of_idle
    (futures_turnAll_of_idle (numbered_of_reachable hopened) hfuture rfl later) rfl
  refine ⟨freed, hfree, ?_⟩
  unfold readDetailAmid awaitDetail
  simp only [scheduling, nextFuture, allocate] at hscheduling hfree ⊢
  simp only [hscheduling, hfree, checked]
  rfl

end Outcome

section Scheduled

/-- The worker of a read that was scheduled has its operation on the trace that the database
serves. -/
theorem exists_job?_of_scheduling
    (hreach : Reachable config session)
    (hscheduling : scheduling session database kind event = .ok scheduled) :
    ∃ source served, Reachable config scheduled ∧ session.served? database = some served ∧
      scheduled.job? session.nextFuture = some (.detail source served kind event) ∧
      scheduled.traces = session.traces := by
  have hopened := hreach.step (.allocate session false)
  have hnumbered := numbered_of_reachable hopened
  obtain ⟨attached, found, hattached, hserved, hjob, htraces⟩ :=
    job?_of_scheduleDetail hnumbered hscheduling
  refine ⟨attached.source, found.id, hopened.step (.scheduleDetail hscheduling), ?_, hjob, htraces⟩
  -- the trace was as alive before the future was allocated
  obtain ⟨hbound, hlive⟩ := liveTrace?_of_servedTrace hnumbered hserved
  obtain ⟨listed, hheld, -⟩ := liveTrace?_eq_some_iff.1 hlive
  have hsame : (session.after (.allocate false)).liveTrace? found.id = session.liveTrace? found.id :=
    liveTrace?_after hreach hheld nofun
  have hbefore : session.boundTrace? attached = some found := by
    rw [boundTrace?, hbound]
    exact hsame.symm.trans hlive
  have hdatabase : session.database database = .ok attached := hattached
  simp only [served?, hdatabase, hbefore, Option.map_some]

theorem sameFutures_worked
    (hscheduling : scheduling session database kind event = .ok scheduled) :
    (session.allocate false).2.SameFutures (worked session scheduled meanwhile later) := by
  have hschedule : (session.allocate false).2.schedule database session.nextFuture
      (fun source trace => .detail source trace kind event) = .ok scheduled := hscheduling
  have hscheduled := (treats_schedule hschedule).sameFutures
  have hwaited : scheduled.SameFutures (waiting session scheduled meanwhile).session :=
    (sameFutures_turnAll scheduled meanwhile).trans (treats_wait _ _).sameFutures
  exact (hscheduled.trans hwaited).trans (sameFutures_turnAll _ later)

/-- A wait ends without the worker if the worker makes no turn meanwhile. -/
theorem waiting_of_not_mem
    (hreach : Reachable config session)
    (hscheduling : scheduling session database kind event = .ok scheduled)
    (hlate : session.nextFuture ∉ meanwhile) :
    (waiting session scheduled meanwhile).result = .error (.timedOut session.config.waitSeconds) ∧
      (waiting session scheduled meanwhile).session.job? session.nextFuture =
        scheduled.job? session.nextFuture := by
  obtain ⟨source, served, hscheduled, -, hjob, -⟩ := exists_job?_of_scheduling hreach hscheduling
  have hstill := (job?_turnAll (numbered_of_reachable hscheduled) hlate).trans hjob
  obtain ⟨future, hfuture, hrunning⟩ := job?_eq_some_iff.1 hstill
  constructor
  · rw [waiting, wait_of_future hfuture,
      Future.wait_of_running (Future.stage_eq_running_iff.2 ⟨_, hrunning⟩)]
    rfl
  · have hreached := reachable_turnAll hscheduled meanwhile
    rw [hjob]
    have hcall : Call.wait session.nextFuture (some session.config.waitSeconds) ≠
        .turn session.nextFuture := nofun
    exact job?_after (numbered_of_reachable hreached) hcall hstill

theorem reachable_waiting
    (hreach : Reachable config session)
    (hscheduling : scheduling session database kind event = .ok scheduled)
    (meanwhile : List FutureId) :
    Reachable config (waiting session scheduled meanwhile).session := by
  obtain ⟨_, _, hscheduled, -, -, -⟩ := exists_job?_of_scheduling hreach hscheduling
  exact (reachable_turnAll hscheduled meanwhile).step (.wait _ _ _)

/-- What the worker did before the wait was over is collected, and nothing is in flight
thereafter. -/
theorem waiting_of_mem
    (hreach : Reachable config session)
    (hscheduling : scheduling session database kind event = .ok scheduled)
    (hturn : session.nextFuture ∈ meanwhile) :
    ∃ future, (waiting session scheduled meanwhile).session.futures.get?
        session.nextFuture.index = some future ∧ future.isInFlight = false := by
  obtain ⟨source, served, hscheduled, -, hjob, -⟩ := exists_job?_of_scheduling hreach hscheduling
  obtain ⟨future, result, last, hfuture, hresolved, -⟩ :=
    exists_resolved_turnAll hscheduled hjob hturn
  have hid : future.id = session.nextFuture :=
    (numbered_of_reachable (reachable_turnAll hscheduled meanwhile)).futures _ _ hfuture
  refine ⟨future.settled result, ?_, rfl⟩
  rw [waiting, wait_of_future hfuture,
    Future.wait_of_stage_resolved (Future.stage_eq_resolved_iff.2 hresolved), get?_putFuture]
  have hown : session.nextFuture.index = (future.settled result).id.index := by rw [← hid]; rfl
  rw [if_pos hown, hfuture]
  rfl

/-- The future can be given up if its worker has made its turn by then. -/
theorem idle_worked
    (hreach : Reachable config session)
    (hscheduling : scheduling session database kind event = .ok scheduled)
    (hturn : session.nextFuture ∈ meanwhile ++ later) :
    ∃ future, (worked session scheduled meanwhile later).futures.get?
        session.nextFuture.index = some future ∧ future.isInFlight = false := by
  have hwaited := reachable_waiting hreach hscheduling meanwhile
  by_cases hmeanwhile : session.nextFuture ∈ meanwhile
  · obtain ⟨future, hfuture, hidle⟩ := waiting_of_mem hreach hscheduling hmeanwhile
    exact ⟨future, futures_turnAll_of_idle (numbered_of_reachable hwaited) hfuture hidle later,
      hidle⟩
  · have hlater := (List.mem_append.1 hturn).resolve_left hmeanwhile
    obtain ⟨source, served, -, -, hjob, -⟩ := exists_job?_of_scheduling hreach hscheduling
    obtain ⟨-, hstill⟩ := waiting_of_not_mem hreach hscheduling hmeanwhile
    obtain ⟨future, result, last, hfuture, hresolved, -⟩ :=
      exists_resolved_turnAll hwaited (hstill.trans hjob) hlater
    exact ⟨future, hfuture, isInFlight_of_resolved hresolved⟩

/-- Otherwise the worker still has its operation. -/
theorem job?_worked
    (hreach : Reachable config session)
    (hscheduling : scheduling session database kind event = .ok scheduled)
    (hlate : session.nextFuture ∉ meanwhile ++ later) :
    ∃ job, (worked session scheduled meanwhile later).job? session.nextFuture = some job := by
  have hmeanwhile : session.nextFuture ∉ meanwhile := fun hmem =>
    hlate (List.mem_append_left later hmem)
  have hlater : session.nextFuture ∉ later := fun hmem =>
    hlate (List.mem_append_right meanwhile hmem)
  obtain ⟨source, served, -, -, hjob, -⟩ := exists_job?_of_scheduling hreach hscheduling
  obtain ⟨-, hstill⟩ := waiting_of_not_mem hreach hscheduling hmeanwhile
  have hwaited := numbered_of_reachable (reachable_waiting hreach hscheduling meanwhile)
  exact ⟨_, (job?_turnAll hwaited hlater).trans (hstill.trans hjob)⟩

end Scheduled

section Accounts

/-- What a read of detail owes its caller: it leaves the same futures allocated, and when the
scheduling or the wait fails, the failure is of that call and has that code. -/
structure Accounts
    (session : Session) (database : DatabaseId) (kind : DetailKind) (event : EventId)
    (meanwhile : List FutureId) (outcome : Except StoreFailure DetailHandle × Session) :
    Prop where
  futures : session.SameFutures outcome.2
  refused : ∀ failure, scheduling session database kind event = .error failure →
    outcome.1 = .error (.call "read_event_property_async" failure.code)
  failed : ∀ scheduled failure, scheduling session database kind event = .ok scheduled →
    (waiting session scheduled meanwhile).result = .error failure →
      outcome.1 = .error (.call "future_wait" failure.code)

/-- **When a read of detail gives its future up and tells what failed**: unless it was
scheduled and its worker made no turn before the future is given up.  Then the wait timed out,
but the failure is that the future is busy, and the future remains allocated with the
operation in flight. -/
theorem readDetailAmid_accounts_iff
    (hreach : Reachable config session)
    (database : DatabaseId) (trace : TraceId) (kind : DetailKind) (event : EventId)
    (meanwhile later : List FutureId) :
    (Accounts session database kind event meanwhile
        (readDetailAmid session database trace kind event meanwhile later) ↔
      ∀ scheduled, scheduling session database kind event = .ok scheduled →
        session.nextFuture ∈ meanwhile ++ later) ∧
    ∀ scheduled, scheduling session database kind event = .ok scheduled →
      session.nextFuture ∉ meanwhile ++ later →
        (waiting session scheduled meanwhile).result =
          .error (.timedOut session.config.waitSeconds) ∧
        (readDetailAmid session database trace kind event meanwhile later).1 =
          .error (.call "future_free" .resourceBusy) ∧
        ∃ job, (readDetailAmid session database trace kind event meanwhile later).2.job?
          session.nextFuture = some job := by
  have hleft : ∀ scheduled, scheduling session database kind event = .ok scheduled →
      session.nextFuture ∉ meanwhile ++ later →
        (readDetailAmid session database trace kind event meanwhile later).1 =
          .error (.call "future_free" .resourceBusy) ∧
        ∃ job, (readDetailAmid session database trace kind event meanwhile later).2.job?
          session.nextFuture = some job := by
    intro scheduled hscheduling hlate
    obtain ⟨job, hjob⟩ := job?_worked hreach hscheduling hlate
    obtain ⟨failure, hfree, hcode⟩ := free_of_working hjob
    rw [readDetailAmid_of_kept trace hscheduling hfree, hcode]
    exact ⟨rfl, job, hjob⟩
  refine ⟨⟨?_, ?_⟩, fun scheduled hscheduling hlate => ⟨?_, hleft scheduled hscheduling hlate⟩⟩
  · intro haccounts scheduled hscheduling
    by_contra hlate
    obtain ⟨-, job, hjob⟩ := hleft scheduled hscheduling hlate
    obtain ⟨future, hfuture, -⟩ := job?_eq_some_iff.1 hjob
    have hsame := haccounts.futures session.nextFuture
    rw [hfuture, get?_nextFuture] at hsame
    cases hsame
  · intro hturn
    cases hscheduling : scheduling session database kind event with
    | error failure =>
        obtain ⟨freed, hfree, hread⟩ :=
          readDetailAmid_of_refused trace meanwhile later hreach hscheduling
        rw [hread]
        refine ⟨sameFutures_of_free (sameFutures_turnAll _ later) hfree, ?_, ?_⟩
        · intro other hother
          cases hscheduling.symm.trans hother
          rfl
        · intro scheduled other hother
          cases hscheduling.symm.trans hother
    | ok scheduled =>
        obtain ⟨future, hfuture, hidle⟩ :=
          idle_worked hreach hscheduling (hturn scheduled hscheduling)
        obtain ⟨freed, hfree⟩ := free_of_idle hfuture hidle
        rw [readDetailAmid_of_freed trace hscheduling hfree]
        refine ⟨sameFutures_of_free (sameFutures_worked hscheduling) hfree, ?_, ?_⟩
        · intro other hother
          cases hscheduling.symm.trans hother
        · intro again other hother hfailed
          cases hscheduling.symm.trans hother
          rw [hfailed]
          rfl
  · exact (waiting_of_not_mem hreach hscheduling fun hmem =>
      hlate (List.mem_append_left _ hmem)).1

section Example

/-- The links of the call are read, and the worker makes its turn while the caller waits. -/
theorem readDetailAmid_accounts_iff_inTime :
    Accounts prepared ⟨0⟩ .flow call [⟨1⟩] (readDetailAmid prepared ⟨0⟩ ⟨0⟩ .flow call [⟨1⟩] []) := by
  obtain ⟨haccounts, -⟩ :=
    readDetailAmid_accounts_iff reachable_prepared ⟨0⟩ ⟨0⟩ .flow call [⟨1⟩] []
  exact haccounts.2 fun scheduled hscheduled => List.mem_cons_self

/-- The wait is over before the worker makes its turn: it timed out, but the failure is that
the future is busy, and the future stays behind. -/
theorem not_accounts_of_late :
    Reachable .standard prepared ∧
      (readDetail prepared ⟨0⟩ ⟨0⟩ .flow call false).1 =
        .error (.call "future_free" .resourceBusy) ∧
      ¬ Accounts prepared ⟨0⟩ .flow call [] (readDetail prepared ⟨0⟩ ⟨0⟩ .flow call false) := by
  refine ⟨reachable_prepared, rfl, fun haccounts => ?_⟩
  have hsame : true = false := haccounts.futures ⟨1⟩
  cases hsame

end Example

end Accounts

section Handle

variable {handle : DetailHandle} {next : Session}

/-- What a read of detail went through that gave a handle. -/
theorem of_readDetailAmid_eq_ok
    (hreach : Reachable config session)
    (hread : readDetailAmid session database trace kind event meanwhile later =
      (.ok handle, next)) :
    ∃ scheduled, scheduling session database kind event = .ok scheduled ∧
      session.nextFuture ∈ meanwhile ∧ (waiting session scheduled meanwhile).result = .ok () ∧
      (worked session scheduled meanwhile later).free session.nextFuture = .ok next ∧
      handle = ⟨trace, kind, event⟩ := by
  cases hscheduling : scheduling session database kind event with
  | error failure =>
      obtain ⟨freed, -, hrefused⟩ :=
        readDetailAmid_of_refused trace meanwhile later hreach hscheduling
      cases hread.symm.trans hrefused
  | ok scheduled =>
      cases hfree : (worked session scheduled meanwhile later).free session.nextFuture with
      | error failure =>
          have hkept := readDetailAmid_of_kept trace hscheduling hfree
          cases hread.symm.trans hkept
      | ok freed =>
          have hfreed := readDetailAmid_of_freed trace hscheduling hfree
          cases hresult : (waiting session scheduled meanwhile).result with
          | error failure =>
              rw [hresult] at hfreed
              cases hread.symm.trans hfreed
          | ok done =>
              rw [hresult] at hfreed
              cases hread.symm.trans hfreed
              refine ⟨scheduled, rfl, ?_, hresult, hfree, rfl⟩
              by_contra hlate
              obtain ⟨htimedOut, -⟩ := waiting_of_not_mem hreach hscheduling hlate
              cases hresult.symm.trans htimedOut

theorem traces_waiting
    (session scheduled : Session) (meanwhile : List FutureId) :
    (waiting session scheduled meanwhile).session.traces =
      (scheduled.turnAll meanwhile).traces := by
  rcases (scheduled.turnAll meanwhile).wait_cases session.nextFuture
    (some session.config.waitSeconds) with hnext | ⟨future, -, hnext⟩
  · rw [waiting, hnext]
  · rw [waiting, hnext, traces_putFuture]

/-- A read that succeeded left the detail resident in the trace that the database serves,
which is listed if it was. -/
theorem exists_resident_worked
    (hreach : Reachable config session)
    (hscheduling : scheduling session database kind event = .ok scheduled)
    (hturn : session.nextFuture ∈ meanwhile)
    (hok : (waiting session scheduled meanwhile).result = .ok ()) :
    ∃ served before after, session.served? database = some served ∧
      session.traces.get? served.index = some before ∧
      (worked session scheduled meanwhile later).traces.get? served.index = some after ∧
      after.listed = before.listed ∧ (after.trace.detail? kind event).isSome = true := by
  obtain ⟨source, served, hscheduled, hserved, hjob, htraces⟩ :=
    exists_job?_of_scheduling hreach hscheduling
  obtain ⟨future, result, last, hfuture, hresolved, hresident⟩ :=
    exists_resolved_turnAll hscheduled hjob hturn
  have hresult : (waiting session scheduled meanwhile).result = result := by
    rw [waiting, wait_of_future hfuture,
      Future.wait_of_stage_resolved (Future.stage_eq_resolved_iff.2 hresolved)]
  obtain ⟨middle, hmiddle, hstored⟩ := hresident (hresult.symm.trans hok)
  obtain ⟨before, hbefore, -⟩ := atWork_of_reachable hscheduled _ _ hjob
  obtain ⟨_, hsame, hlisted, -⟩ :=
    exists_held_turnAll ⟨served, kind, event⟩ meanwhile hscheduled hbefore
  cases hsame.symm.trans hmiddle
  rw [← traces_waiting session] at hmiddle
  obtain ⟨after, hafter, hlistedAfter, hstays⟩ := exists_held_turnAll ⟨served, kind, event⟩ later
    (reachable_waiting hreach hscheduling meanwhile) hmiddle
  rw [htraces] at hbefore
  exact ⟨served, before, after, hserved, hbefore, hafter, hlistedAfter.trans hlisted,
    hstays hstored⟩

/-- A read during which no other worker makes a turn leaves all other traces alone. -/
theorem get?_worked_of_ne
    {served : TraceId}
    (hreach : Reachable config session)
    (hscheduling : scheduling session database kind event = .ok scheduled)
    (hserved : session.served? database = some served)
    (hother : trace ≠ served)
    (hturn : session.nextFuture ∈ meanwhile)
    (honly : ∀ worker ∈ meanwhile ++ later, worker = session.nextFuture) :
    (worked session scheduled meanwhile later).traces.get? trace.index =
      session.traces.get? trace.index := by
  obtain ⟨source, _, hscheduled, hsame, hjob, htraces⟩ :=
    exists_job?_of_scheduling hreach hscheduling
  cases hsame.symm.trans hserved
  cases hheld : session.traces.get? trace.index with
  | none =>
      refine get?_turnAll_of_none ?_ later
      rw [traces_waiting]
      exact get?_turnAll_of_none (htraces ▸ hheld) meanwhile
  | some held =>
      have hscheduledHeld : scheduled.traces.get? trace.index = some held := htraces ▸ hheld
      have hmiddle := (agrees_turnAll hscheduled hscheduledHeld
        (fun worker hworker => honly worker (List.mem_append_left _ hworker)) fun job hfound => by
          cases hfound.symm.trans hjob
          exact hother.symm).held.trans hscheduledHeld
      rw [← traces_waiting session] at hmiddle
      -- the worker has ended its operation, so that its later turns do nothing
      obtain ⟨future, hfuture, hidle⟩ := waiting_of_mem hreach hscheduling hturn
      exact (agrees_turnAll (reachable_waiting hreach hscheduling meanwhile) hmiddle
        (fun worker hworker => honly worker (List.mem_append_right _ hworker)) fun job hfound => by
          cases hfound.symm.trans (job?_of_idle hfuture hidle)).held.trans hmiddle

/-- **When the handle of a read of detail is valid.**  The detail is resident in the trace that
the database serves.  If the caller names that trace, the handle is valid just if the trace is
listed.  If the caller names another one, the handle is valid just if it was before, as long as
no other worker made a turn.  A valid handle stays valid until the trace is deleted or the
detail is evicted, and finds how much the detail holds. -/
theorem readDetailAmid_handle
    (hreach : Reachable config session)
    (hread : readDetailAmid session database trace kind event meanwhile later =
      (.ok handle, next)) :
    handle = ⟨trace, kind, event⟩ ∧
    (∃ served held, session.served? database = some served ∧
      next.traces.get? served.index = some held ∧
      (held.trace.detail? kind event).isSome = true ∧
      (trace = served → (next.Valid handle ↔ ∃ found, session.trace trace = .ok found)) ∧
      (trace ≠ served → (∀ worker ∈ meanwhile ++ later, worker = session.nextFuture) →
        (next.Valid handle ↔ session.Valid handle))) ∧
    ∀ calls, next.Valid handle → (∀ call ∈ calls, ¬ Call.Forfeits handle call) →
      ∃ detail, (next.afterAll calls).detail handle = .ok detail ∧
        ∀ index, (next.afterAll calls).property? (.detail handle) kind.countKey index =
          some (.natural detail.size) := by
  obtain ⟨scheduled, hscheduling, hturn, hok, hfree, rfl⟩ := of_readDetailAmid_eq_ok hreach hread
  have htraces : next.traces = (worked session scheduled meanwhile later).traces := by
    rw [eq_of_free hfree]
  have hnext : Reachable config next :=
    (reachable_turnAll (reachable_waiting hreach hscheduling meanwhile) later).step (.free hfree)
  refine ⟨rfl, ?_, fun calls hvalid hspares => ?_⟩
  · obtain ⟨served, before, after, hserved, hbefore, hafter, hlisted, hresident⟩ :=
      exists_resident_worked hreach hscheduling hturn hok
    rw [← htraces] at hafter
    refine ⟨served, after, hserved, hafter, hresident, ?_, fun hother honly => ?_⟩
    · rintro rfl
      simp only [valid_iff, trace_eq_ok_iff]
      constructor
      · rintro ⟨found, hfound, -⟩
        cases hafter.symm.trans hfound
        obtain ⟨old, listed⟩ := before
        cases hlisted
        exact ⟨old, hbefore⟩
      · rintro ⟨found, hfound⟩
        cases hbefore.symm.trans hfound
        obtain ⟨new, listed⟩ := after
        cases hlisted
        exact ⟨new, hafter, hresident⟩
    · simp only [valid_iff, htraces,
        get?_worked_of_ne hreach hscheduling hserved hother hturn honly]
  · obtain ⟨detail, hdetail⟩ := valid_afterAll hnext hvalid hspares
    exact ⟨detail, hdetail, fun index =>
      property?_countKey (reachable_afterAll hnext calls) hdetail index⟩

section Example

/-- The links of the call are read into the trace that the caller names. -/
theorem readDetailAmid_handle_served :
    ∃ next, readDetailAmid prepared ⟨0⟩ ⟨0⟩ .flow call [⟨1⟩] [] =
        (.ok ⟨⟨0⟩, .flow, call⟩, next) ∧
      (next.afterAll [.evictAll ⟨0⟩]).property? (.detail ⟨⟨0⟩, .flow, call⟩)
        (.flow .endpointCount) 0 = some (.natural 1) := by
  have hread : readDetailAmid prepared ⟨0⟩ ⟨0⟩ .flow call [⟨1⟩] [] =
      (.ok ⟨⟨0⟩, .flow, call⟩, _) := rfl
  obtain ⟨-, ⟨served, held, hserved, -, -, hsame, -⟩, hstays⟩ :=
    readDetailAmid_handle reachable_prepared hread
  have hown : prepared.served? ⟨0⟩ = some ⟨0⟩ := rfl
  cases hown.symm.trans hserved
  have hvalid := (hsame rfl).2 ⟨_, rfl⟩
  obtain ⟨detail, hdetail, hcount⟩ := hstays [.evictAll ⟨0⟩] hvalid (by simp [Call.Forfeits])
  refine ⟨_, hread, (hcount 0).trans ?_⟩
  cases hdetail
  rfl

/-- The session with a trace that no database serves. -/
def spare : Session :=
  prepared.createTrace.2

/-- The links of the call are read into the trace that the database serves, but the handle
names the trace that the caller names, and finds nothing. -/
theorem exists_invalid_handle :
    Reachable .standard spare ∧ ∃ next,
      readDetail spare ⟨0⟩ ⟨1⟩ .flow call true = (.ok ⟨⟨1⟩, .flow, call⟩, next) ∧
        ¬ next.Valid ⟨⟨1⟩, .flow, call⟩ ∧
        next.property? (.detail ⟨⟨1⟩, .flow, call⟩) (.flow .endpointCount) 0 = none := by
  refine ⟨reachable_prepared.step (.createTrace _), _, rfl, ?_, rfl⟩
  rintro ⟨detail, hdetail⟩
  cases hdetail

end Example

end Handle

end Client

end TimelineStore
