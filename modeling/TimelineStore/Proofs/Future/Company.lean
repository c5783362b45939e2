import Mathlib.Logic.Function.Basic
import TimelineStore.Proofs.Future.Undisturbed

/-!
# Two callers of one future

`Scene.Move` has one caller.  Here two callers wait on one future.  A wait looks which
operation the future holds, listens to what is handed over of that operation, and writes
back what it came to only when it returns.  Between the two the future is not its own: the
other caller may have taken the result, and the first caller, once it has returned, may
have scheduled another operation.

Operations are numbered as they are scheduled.  `Company.Step` says what may happen next,
`Company.Runs` what may happen one after another.  Workers do not get lost here.

**Results.**
* `Company.runs_hears`: a caller that listens can take all that is queued.
* `Company.runs_wait`: a wait that nobody comes between ends as `Future.wait` does.
-/

namespace TimelineStore

/-- One of the two callers of a future. -/
inductive Caller where
  | first
  | second
deriving DecidableEq

namespace Caller

/-- The other of the two. -/
def other : Caller → Caller
  | .first => .second
  | .second => .first

@[simp] theorem other_other
    (caller : Caller) :
    caller.other.other = caller := by
  cases caller <;> rfl

theorem other_ne
    (caller : Caller) :
    caller.other ≠ caller := by
  cases caller <;> decide

theorem eq_other_of_ne
    {caller rival : Caller}
    (hne : rival ≠ caller) :
    rival = caller.other := by
  cases caller <;> cases rival <;> first | rfl | exact absurd rfl hne

end Caller

/-- What there is to receive of an operation: nothing yet, its result, or nothing more. -/
inductive Channel where
  | empty
  | full (result : Except Failure Unit)
  | closed

/-- What a caller is in: no wait, one that listens, one that ran out of time, or one that
has its answer and still has to write it back. -/
inductive Stance where
  | away
  | listening (number : Nat) (bound : Option Nat)
  | expired (number : Nat) (bound : Option Nat)
  | holding (number : Nat) (answer : Except Failure Unit)

namespace Stance

/-- The operation that the caller waits for. -/
def awaited? : Stance → Option Nat
  | .away => none
  | .listening number _ => some number
  | .expired number _ => some number
  | .holding number _ => some number

/-- The caller takes the events of the operation. -/
def Hears (number : Nat) : Stance → Prop
  | .listening awaited _ => awaited = number
  | .holding awaited _ => awaited = number
  | _ => False

end Stance

/-- The answer of a wait that finds nothing more to receive. -/
def Future.loss : Except Failure Unit :=
  .error (.internal lossText)

/-- What happens at a step.  A wait that returns tells which operation it took from the
future. -/
inductive Deed where
  | schedules (number : Nat)
  | declines (failure : Failure)
  | refuses (caller : Caller) (answer : Except Failure Unit)
  | begins (caller : Caller) (number : Nat)
  | hears (caller : Caller) (event : ProgressEvent)
  | receives (caller : Caller) (number : Nat) (result : Except Failure Unit)
  | misses (caller : Caller) (number : Nat)
  | expires (caller : Caller) (number : Nat)
  | returns (caller : Caller) (number : Nat) (answer : Except Failure Unit)
      (removed : Option Nat)
  | works
  | resolves (number : Nat) (result : Except Failure Unit)
  | hands (number : Nat)

/-- A future between two callers and a worker.  The number is that of the operation that
was scheduled last.  What was handed over of an operation can be received even after
another was scheduled. -/
structure Company (ω : Type) where
  future : Future ω
  number : Nat
  channel : Nat → Channel
  stance : Caller → Stance

namespace Company

variable {ω : Type} {company next start : Company ω} {history : List Deed} {deed : Deed}

/-- A future that was just made. -/
def opening (id : FutureId) (listens : Bool) : Company ω :=
  ⟨.fresh id listens, 0, fun _ => .empty, fun _ => .away⟩

/-- The company with another future. -/
def carrying (company : Company ω) (future : Future ω) : Company ω :=
  { company with future }

/-- The company with a caller elsewhere. -/
def placing (company : Company ω) (caller : Caller) (stance : Stance) : Company ω :=
  { company with stance := Function.update company.stance caller stance }

/-- The company with something else to receive of an operation. -/
def filling (company : Company ω) (number : Nat) (channel : Channel) : Company ω :=
  { company with channel := Function.update company.channel number channel }

/-- The company with one more operation, of which there is nothing to receive yet. -/
def scheduling (company : Company ω) (future : Future ω) : Company ω :=
  { (company.carrying future).filling (company.number + 1) .empty with
    number := company.number + 1 }

/-- The operation that the future holds. -/
def current? (company : Company ω) : Option Nat :=
  company.future.run.map fun _ => company.number

/-- No worker is left of what the future holds. -/
def Joined (company : Company ω) : Prop :=
  company.future.run = none ∨ company.channel company.number ≠ .empty

section Frame

variable (company : Company ω) (future : Future ω) (caller : Caller) (stance : Stance)
  (number : Nat) (channel : Channel)

@[simp] theorem future_carrying : (company.carrying future).future = future := rfl

@[simp] theorem number_carrying : (company.carrying future).number = company.number := rfl

@[simp] theorem channel_carrying : (company.carrying future).channel = company.channel := rfl

@[simp] theorem stance_carrying : (company.carrying future).stance = company.stance := rfl

@[simp] theorem future_placing : (company.placing caller stance).future = company.future := rfl

@[simp] theorem number_placing : (company.placing caller stance).number = company.number := rfl

@[simp] theorem channel_placing :
    (company.placing caller stance).channel = company.channel := rfl

@[simp] theorem future_filling : (company.filling number channel).future = company.future := rfl

@[simp] theorem number_filling : (company.filling number channel).number = company.number := rfl

@[simp] theorem stance_filling : (company.filling number channel).stance = company.stance := rfl

@[simp] theorem future_scheduling : (company.scheduling future).future = future := rfl

@[simp] theorem number_scheduling :
    (company.scheduling future).number = company.number + 1 := rfl

@[simp] theorem stance_scheduling : (company.scheduling future).stance = company.stance := rfl

end Frame

@[simp] theorem stance_placing_self
    (company : Company ω) (caller : Caller) (stance : Stance) :
    (company.placing caller stance).stance caller = stance :=
  Function.update_self ..

theorem stance_placing_of_ne
    {caller rival : Caller}
    (hne : rival ≠ caller) (company : Company ω) (stance : Stance) :
    (company.placing caller stance).stance rival = company.stance rival :=
  Function.update_of_ne hne ..

theorem channel_filling
    (company : Company ω) (number : Nat) (channel : Channel) (other : Nat) :
    (company.filling number channel).channel other =
      if other = number then channel else company.channel other :=
  Function.update_apply ..

theorem channel_scheduling
    (company : Company ω) (future : Future ω) (other : Nat) :
    (company.scheduling future).channel other =
      if other = company.number + 1 then .empty else company.channel other :=
  channel_filling ..

/-- What may happen next. -/
inductive Step (company : Company ω) : Deed → Company ω → Prop
  -- the first caller, between its waits
  | schedule {next : Future ω} {label source : String} {capacity : Nat} {work : ω}
      (haway : company.stance .first = .away) (hjoined : company.Joined)
      (hschedule : company.future.schedule label source capacity work = .ok next) :
      Step company (.schedules (company.number + 1)) (company.scheduling next)
  | decline {label source : String} {capacity : Nat} {work : ω} {failure : Failure}
      (haway : company.stance .first = .away)
      (hschedule : company.future.schedule label source capacity work = .error failure) :
      Step company (.declines failure) company
  -- a wait of either caller
  | refuse (caller : Caller)
      (haway : company.stance caller = .away) (hrun : company.future.run = none) :
      Step company
        (.refuses caller (.error (.nothingScheduled (toString company.future.id)))) company
  | wait (caller : Caller) (bound : Option Nat)
      (haway : company.stance caller = .away) (hrun : company.future.run ≠ none) :
      Step company (.begins caller company.number)
        (company.placing caller (.listening company.number bound))
  | hear (caller : Caller) {event : ProgressEvent} {rest : List ProgressEvent}
      (hhears : (company.stance caller).Hears company.number)
      (hqueue : company.future.queue = event :: rest) :
      Step company (.hears caller event) (company.carrying (company.future.queueing rest))
  | receive (caller : Caller) {number : Nat} {bound : Option Nat}
      {result : Except Failure Unit}
      (hlistening : company.stance caller = .listening number bound)
      (hchannel : company.channel number = .full result) :
      Step company (.receives caller number result)
        ((company.filling number .closed).placing caller (.holding number result))
  | miss (caller : Caller) {number : Nat} {bound : Option Nat}
      (hlistening : company.stance caller = .listening number bound)
      (hchannel : company.channel number = .closed) :
      Step company (.misses caller number)
        (company.placing caller (.holding number Future.loss))
  | expire (caller : Caller) {number seconds : Nat}
      (hlistening : company.stance caller = .listening number (some seconds))
      (hchannel : ∀ result, company.channel number ≠ .full result) :
      Step company (.expires caller number)
        (company.placing caller (.expired number (some seconds)))
  | giveUp (caller : Caller) {number : Nat} {bound : Option Nat}
      (hexpired : company.stance caller = .expired number bound) :
      Step company
        (.returns caller number (.error (.timedOut (bound.getD Future.unbounded))) none)
        ((company.carrying company.future.overdue).placing caller .away)
  | settle (caller : Caller) {number : Nat} {answer : Except Failure Unit}
      (hholding : company.stance caller = .holding number answer)
      (hjoined : company.Joined) :
      Step company (.returns caller number answer company.current?)
        ((company.carrying (company.future.settled answer)).placing caller .away)
  -- the worker, whatever the callers do meanwhile
  | work {work : ω} (reports : List TimelineStore.Step) (rest : ω)
      (hphase : company.future.phase? = some (.running work)) :
      Step company .works (company.carrying (company.future.take ⟨reports, .work rest⟩))
  | resolve {work : ω} {closing : Except Failure Unit} {last : ProgressEvent}
      (result : Except Failure String)
      (hphase : company.future.phase? = some (.running work))
      (hresolved : (company.future.take ⟨[], .finished result⟩).phase? =
        some (.resolved closing last)) :
      Step company (.resolves company.number closing)
        (company.carrying (company.future.take ⟨[], .finished result⟩))
  | hand {result : Except Failure Unit} {last : ProgressEvent}
      (hphase : company.future.phase? = some (.resolved result last))
      (hchannel : company.channel company.number = .empty) :
      Step company (.hands company.number) (company.filling company.number (.full result))

/-- What may happen one after another, where each step has to be allowed. -/
inductive Runs (allowed : Company ω → Deed → Prop) (start : Company ω) :
    List Deed → Company ω → Prop
  | refl : Runs allowed start [] start
  | snoc {history : List Deed} {company next : Company ω} {deed : Deed}
      (hruns : Runs allowed start history company) (hstep : Step company deed next)
      (hallowed : allowed company deed) :
      Runs allowed start (history ++ [deed]) next

/-- Every step is allowed. -/
def Anyhow (_ : Company ω) (_ : Deed) : Prop :=
  True

namespace Runs

variable {allowed : Company ω → Deed → Prop}

theorem single
    (hstep : Step start deed next) (hallowed : allowed start deed) :
    Runs allowed start [deed] next :=
  .snoc .refl hstep hallowed

theorem trans
    {earlier later : List Deed}
    (hfirst : Runs allowed start earlier company)
    (hthen : Runs allowed company later next) :
    Runs allowed start (earlier ++ later) next := by
  induction hthen with
  | refl => simpa using hfirst
  | snoc _ hstep hallowed ih =>
      rw [← List.append_assoc]
      exact .snoc ih hstep hallowed

end Runs

/-! ## A wait that nobody comes between -/

/-- A caller that listens can take all that is queued. -/
theorem runs_hears
    {caller : Caller}
    (hhears : (company.stance caller).Hears company.number) :
    Runs Anyhow company (company.future.queue.map (.hears caller))
      (company.carrying (company.future.queueing [])) := by
  induction hqueue : company.future.queue generalizing company with
  | nil =>
      rw [Future.queueing_queue hqueue]
      exact .refl
  | cons event rest ih =>
      have hrest := Future.queue_queueing (Future.run_ne_none_of_queue hqueue) rest
      have hruns := @ih (company.carrying (company.future.queueing rest)) hhears hrest
      rw [carrying, carrying, Future.queueing_queueing] at hruns
      exact (Runs.single (.hear caller hhears hqueue) trivial).trans hruns

/-- What became of a wait that the caller began. -/
def Ended
    (history : List Deed) (caller : Caller) (number : Nat) (answer : Except Failure Unit) :
    Prop :=
  .refuses caller answer ∈ history ∨ ∃ removed, .returns caller number answer removed ∈ history

/-- A caller that began a wait and takes what is queued. -/
theorem runs_wait_hears
    {caller : Caller}
    (haway : company.stance caller = .away) (hrun : company.future.run ≠ none)
    (bound : Option Nat) :
    ∃ during, Runs Anyhow company during
      ((company.carrying (company.future.queueing [])).placing caller
        (.listening company.number bound)) := by
  have hwait : Runs Anyhow company [.begins caller company.number]
      (company.placing caller (.listening company.number bound)) :=
    .single (.wait caller bound haway hrun) trivial
  have hhears : ((company.placing caller (.listening company.number bound)).stance caller).Hears
      company.number := by
    rw [stance_placing_self]
    rfl
  exact ⟨_, hwait.trans (runs_hears hhears)⟩

/-- A wait that nobody comes between ends as it does without another caller. -/
theorem runs_wait
    {caller : Caller}
    (haway : company.stance caller = .away) (seconds : Option Nat)
    (hlost : company.future.stage ≠ .lost)
    (hpending : company.future.stage = .running →
      seconds ≠ none ∧ company.channel company.number = .empty)
    (hhanded : ∀ result last, company.future.stage = .resolved result last →
      company.channel company.number = .full result) :
    ∃ during next, Runs Anyhow company during next ∧
      next.future = (company.future.wait seconds).future ∧
      (∀ rival ≠ caller, next.stance rival = company.stance rival) ∧
      next.stance caller = .away ∧
      Ended during caller company.number (company.future.wait seconds).result := by
  cases hstage : company.future.stage with
  | empty =>
      have hrun := Future.stage_eq_empty_iff.mp hstage
      rw [Future.wait_of_empty hrun]
      exact ⟨_, company, .single (.refuse caller haway hrun) trivial, rfl, fun _ _ => rfl, haway,
        .inl (List.mem_singleton_self _)⟩
  | running =>
      obtain ⟨hseconds, hchannel⟩ := hpending hstage
      obtain ⟨bound, rfl⟩ := Option.ne_none_iff_exists'.mp hseconds
      have hrun : company.future.run ≠ none :=
        mt Future.stage_eq_empty_iff.mpr (by simp [hstage])
      obtain ⟨during, hruns⟩ := runs_wait_hears haway hrun (some bound)
      have hexpired := hruns.snoc
        (.expire caller (stance_placing_self ..) fun result => by simp [hchannel]) trivial
      have hreturned := hexpired.snoc (.giveUp caller (stance_placing_self ..)) trivial
      rw [Future.wait_of_running hstage]
      refine ⟨_, _, hreturned, rfl, fun rival hne => ?_, stance_placing_self .., .inr ⟨none, ?_⟩⟩
      · simp [stance_placing_of_ne hne]
      · exact List.mem_append_right _ (List.mem_singleton_self _)
  | resolved result last =>
      have hchannel := hhanded result last hstage
      have hrun : company.future.run ≠ none :=
        mt Future.stage_eq_empty_iff.mpr (by simp [hstage])
      obtain ⟨during, hruns⟩ := runs_wait_hears haway hrun seconds
      have hreceived := hruns.snoc (.receive caller (stance_placing_self ..) hchannel) trivial
      have hreturned := hreceived.snoc (.settle caller (stance_placing_self ..)
        (.inr (by simp [channel_filling]))) trivial
      rw [Future.wait_of_stage_resolved hstage]
      refine ⟨_, _, hreturned, rfl, fun rival hne => ?_, stance_placing_self .., .inr ?_⟩
      · simp [stance_placing_of_ne hne]
      · exact ⟨_, List.mem_append_right _ (List.mem_singleton_self _)⟩
  | lost => exact absurd hstage hlost

end Company

end TimelineStore
