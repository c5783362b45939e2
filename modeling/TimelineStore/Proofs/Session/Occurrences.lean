import TimelineStore.Proofs.Session.Targets

/-!
# What happens to a session while its sources change

A source answers from files that someone else may write to.  So between the calls of a
session the source of a database may turn into another one, and so may the source that a
worker is reading.  A run is then a list of occurrences, each of them a call, a turn of a
worker or such a change.

No occurrence brings a trace back that was deleted, and nothing but its deletion takes a trace
away.  A database that is closed and a future that is given up leave a number behind that
nothing is found under any more.

**Results.**
* `Session.Orderly.upon`: what every occurrence preserves.
* `Session.exists_keeps`: what an occurrence does to a trace.
* `Session.databases_vacant_upon`, `Session.futures_vacant_upon`: what it does to a number
  that was left behind.
-/

namespace TimelineStore

namespace Job

variable {source : Source} {job : Job}

/-- The job with another source behind it. -/
def withSource (source : Source) : Job → Job
  | .metadata _ trace => .metadata source trace
  | .detail _ trace kind event => .detail source trace kind event
  | .slice _ trace request => .slice source trace request
  | .inTurn _ trace window share totals left started =>
    .inTurn source trace window share totals left started

@[simp] theorem trace_withSource :
    (job.withSource source).trace = job.trace := by
  cases job <;> rfl

theorem Fits.withSource
    {trace : Trace}
    (hfits : job.Fits trace) :
    (job.withSource source).Fits trace := by
  cases job <;> exact hfits

end Job

/-- The run with another source behind the job that its worker is on, if there is one. -/
def Run.withSource (source : Source) (run : Run Job) : Run Job :=
  match run.phase with
  | .running job => { run with phase := .running (job.withSource source) }
  | _ => run

/-- The future with another source behind its run. -/
def Future.withSource (source : Source) (future : Future Job) : Future Job :=
  { future with run := future.run.map (·.withSource source) }

/-- A future that has another source behind it carries a job only if it carried it before,
for the source that it had then. -/
theorem Future.exists_of_withSource
    {source : Source} {future : Future Job} {job : Job}
    (hrunning : (future.withSource source).phase? = some (.running job)) :
    ∃ before, future.phase? = some (.running before) ∧ job = before.withSource source := by
  obtain ⟨after, hafter, hphase⟩ := Option.map_eq_some_iff.1 hrunning
  obtain ⟨run, hrun, rfl⟩ := Option.map_eq_some_iff.1 hafter
  unfold Run.withSource at hphase
  split at hphase
  · rename_i before hbefore
    cases hphase
    exact ⟨before, by rw [Future.phase?, hrun, Option.map_some, hbefore], rfl⟩
  · rename_i hother
    exact absurd hphase (hother job)

namespace Arena

variable {α : Type} {arena : Arena α} {number : Nat}

/-- The number was handed out, and nothing is found under it any more. -/
def Vacant (arena : Arena α) (number : Nat) : Prop :=
  number < arena.next ∧ arena.get? number = none

theorem vacant_erase
    {value : α}
    (hvalue : arena.get? number = some value) :
    (arena.erase number).Vacant number := by
  have hissued : number < arena.next := lt_next_of_get? hvalue
  exact ⟨hissued, (arena.get?_erase number number).trans (if_pos rfl)⟩

namespace Vacant

theorem add
    (hvacant : arena.Vacant number)
    (make : Nat → α) :
    (arena.add make).Vacant number := by
  refine ⟨Nat.lt_succ_of_lt hvacant.1, ?_⟩
  rw [get?_add, if_neg (Nat.ne_of_lt hvacant.1), hvacant.2]

theorem erase
    (hvacant : arena.Vacant number)
    (other : Nat) :
    (arena.erase other).Vacant number := by
  refine ⟨hvacant.1, ?_⟩
  rw [get?_erase, hvacant.2, ite_self]

theorem modify
    (hvacant : arena.Vacant number)
    (other : Nat) (change : α → α) :
    (arena.modify other change).Vacant number := by
  refine ⟨hvacant.1, ?_⟩
  rw [get?_modify, hvacant.2, Option.map_none, ite_self]

end Vacant

end Arena

namespace Session

/-- What can happen to a session: a call or a turn of a worker, and that the source of a
database, or the one that a worker reads, turns into another. -/
inductive Occurrence where
  | call (call : Call)
  | turnsInto (id : DatabaseId) (source : Source)
  | turnsIntoFor (id : FutureId) (source : Source)

/-- The session after an occurrence. -/
def upon (session : Session) : Occurrence → Session
  | .call call => session.after call
  | .turnsInto id source => session.changeDatabase id ({ · with source })
  | .turnsIntoFor id source =>
    { session with futures := session.futures.modify id.index (·.withSource source) }

/-- The session after occurrences, one after the other. -/
def uponAll (session : Session) (run : List Occurrence) : Session :=
  run.foldl upon session

theorem uponAll_cons
    (session : Session) (occurrence : Occurrence) (later : List Occurrence) :
    session.uponAll (occurrence :: later) = (session.upon occurrence).uponAll later :=
  rfl

theorem uponAll_append
    (session : Session) (before later : List Occurrence) :
    session.uponAll (before ++ later) = (session.uponAll before).uponAll later :=
  List.foldl_append

section Orderly

variable {session : Session} {occurrence : Occurrence}

/-- Every trace and every future stands under its own number, and workers are on traces that
the session holds. -/
structure Orderly (session : Session) : Prop where
  numbered : session.Numbered
  atWork : session.AtWork

theorem orderly_empty
    (config : Config) :
    (empty config).Orderly := by
  have hreach : Reachable config (empty config) := .empty
  exact ⟨numbered_of_reachable hreach, atWork_of_reachable hreach⟩

/-- What a session is after every step, it is after every call. -/
theorem after_elim
    {motive : Session → Prop} {call : Call}
    (hbefore : motive session)
    (hstep : ∀ next, Leads session next → motive next) :
    motive (session.after call) := by
  rcases session.after_cases call with hsame | hleads
  · rwa [hsame]
  · exact hstep _ hleads

/-- Jobs whose source turns into another remain on their traces. -/
theorem atWork_turnsIntoFor
    {id : FutureId} {source : Source}
    (hwork : session.AtWork) :
    (session.upon (.turnsIntoFor id source)).AtWork := by
  intro other job hjob
  obtain ⟨after, hafter, hrunning⟩ := job?_eq_some_iff.1 hjob
  have hslot := (session.futures.get?_modify other.index id.index (·.withSource source)).symm.trans
    hafter
  split at hslot
  · obtain ⟨future, hfuture, rfl⟩ := Option.map_eq_some_iff.1 hslot
    obtain ⟨before, hbefore, rfl⟩ := Future.exists_of_withSource hrunning
    have hjobBefore := job?_eq_some_iff.2 ⟨future, hfuture, hbefore⟩
    obtain ⟨held, hheld, hfits⟩ := hwork other before hjobBefore
    exact ⟨held, by rwa [Job.trace_withSource], hfits.withSource⟩
  · exact hwork other job (job?_eq_some_iff.2 ⟨after, hslot, hrunning⟩)

/-- **Every occurrence keeps a session orderly.** -/
theorem Orderly.upon
    (horderly : session.Orderly) (occurrence : Occurrence) :
    (session.upon occurrence).Orderly := by
  cases occurrence with
  | call call =>
      refine after_elim horderly fun next hleads => ?_
      exact ⟨horderly.numbered.step hleads, horderly.atWork.step horderly.numbered hleads⟩
  | turnsInto id source => exact ⟨horderly.numbered.changeDatabase id _, horderly.atWork⟩
  | turnsIntoFor id source =>
      refine ⟨⟨horderly.numbered.traces, ?_⟩, atWork_turnsIntoFor horderly.atWork⟩
      intro number after hafter
      have hslot := (session.futures.get?_modify number id.index (·.withSource source)).symm.trans
        hafter
      split at hslot
      · obtain ⟨future, hfuture, rfl⟩ := Option.map_eq_some_iff.1 hslot
        exact horderly.numbered.futures number future hfuture
      · exact horderly.numbered.futures number after hslot

theorem Orderly.uponAll
    (horderly : session.Orderly) (run : List Occurrence) :
    (session.uponAll run).Orderly := by
  induction run generalizing session with
  | nil => exact horderly
  | cons occurrence run ih => exact ih (horderly.upon occurrence)

end Orderly

section Kept

variable {session : Session} {occurrence : Occurrence}

/-- What an occurrence does to a trace: acts, after which the session holds the trace still.
It lists the trace only if it did before, and does not list it any more only if the occurrence
was the deletion. -/
structure Keeps
    (session : Session) (occurrence : Occurrence) (id : TraceId) (held after : HeldTrace) :
    Prop where
  holds : (session.upon occurrence).traces.get? id.index = some after
  undergoes : ∃ acts, held.trace.Undergoes acts after.trace
  unlisted : held.listed = false → after.listed = false
  listed : held.listed = true → occurrence ≠ .call (.deleteTrace id) → after.listed = true

/-- **An occurrence keeps every trace that the session holds.** -/
theorem exists_keeps
    {id : TraceId} {held : HeldTrace}
    (horderly : session.Orderly)
    (hheld : session.traces.get? id.index = some held)
    (occurrence : Occurrence) :
    ∃ after, session.Keeps occurrence id held after := by
  have hself (hsame : (session.upon occurrence).traces = session.traces) :
      ∃ after, session.Keeps occurrence id held after :=
    ⟨held, by rwa [hsame], ⟨[], .refl⟩, fun hunlisted => hunlisted, fun hlisted _ => hlisted⟩
  cases occurrence with
  | call call =>
      obtain ⟨after, acts, hhandled⟩ :=
        exists_handled horderly.numbered horderly.atWork hheld call
      refine ⟨after, hhandled.holds, ⟨acts, hhandled.undergoes⟩, fun hunlisted => ?_,
        fun hlisted hkept => ?_⟩
      · -- a step lists no trace anew
        rcases session.after_cases call with hsame | hleads
        · have hholds := hhandled.holds
          rw [hsame, hheld] at hholds
          cases hholds
          exact hunlisted
        · obtain ⟨carried, _, hcarries⟩ :=
            hleads.carries horderly.numbered horderly.atWork hheld
          cases hcarries.holds.symm.trans hhandled.holds
          exact Bool.eq_false_iff.2 fun hlisted =>
            absurd (hcarries.listed hlisted) (Bool.eq_false_iff.1 hunlisted)
      · rcases hhandled.listed with hsame | rfl
        · exact hsame.trans hlisted
        · exact absurd rfl hkept
  | turnsInto database source => exact hself rfl
  | turnsIntoFor future source => exact hself rfl

/-- A number that a closed database left behind is never used again. -/
theorem databases_vacant_upon
    {number : Nat}
    (hvacant : session.databases.Vacant number)
    (occurrence : Occurrence) :
    (session.upon occurrence).databases.Vacant number := by
  cases occurrence with
  | call call =>
      refine after_elim (motive := fun next => next.databases.Vacant number) hvacant ?_
      intro next hleads
      rcases hleads.databases_cases with ⟨_, hnext⟩ | ⟨_, hnext⟩ | ⟨_, _, hnext, -⟩ | hnext
      · rw [hnext]
        exact hvacant.add _
      · rw [hnext]
        exact hvacant.erase _
      · rw [hnext]
        exact hvacant.modify _ _
      · rwa [hnext]
  | turnsInto id source => exact hvacant.modify _ _
  | turnsIntoFor id source => exact hvacant

/-- A number that a future left behind is never used again. -/
theorem futures_vacant_upon
    {number : Nat}
    (hvacant : session.futures.Vacant number)
    (occurrence : Occurrence) :
    (session.upon occurrence).futures.Vacant number := by
  cases occurrence with
  | call call =>
      refine after_elim (motive := fun next => next.futures.Vacant number) hvacant ?_
      intro next hleads
      rcases hleads.futures_cases with ⟨_, hnext⟩ | ⟨_, hnext⟩ | hnext | ⟨_, _, _, -, -, hnext⟩
      · rw [hnext]
        exact hvacant.add _
      · rw [hnext]
        exact hvacant.erase _
      · rwa [hnext]
      · rw [hnext]
        exact hvacant.modify _ _
  | turnsInto id source => exact hvacant
  | turnsIntoFor id source => exact hvacant.modify _ _

end Kept

end Session

end TimelineStore
