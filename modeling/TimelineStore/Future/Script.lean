import TimelineStore.Future

/-!
# Scripted workers

A worker that does what a list of actions says, for trying out futures.  Before
a gate it goes on only with a permit, and a permit that no gate has used yet is
kept.  A script that runs out has succeeded.
-/

namespace TimelineStore

/-- What a scripted worker does. -/
inductive Action where
  | report (step : Step)
  | tellSource
  | checkpoint
  | tellInterrupted
  | gate
  | fail (failure : Failure)
  | vanish
  | succeed (message : String)

/-- The actions that a scripted worker has before it. -/
abbrev Script := List Action

namespace Script

/-- The turn in which the worker does its next action. -/
def turn (run : Run Script) : Script → Turn Script
  | [] => ⟨[], .finished (.ok "")⟩
  | action :: rest =>
    match action with
    | .report step => ⟨[step], .work rest⟩
    | .tellSource => ⟨[⟨0.0, run.meter.source⟩], .work rest⟩
    | .checkpoint =>
      if run.interrupted then ⟨[], .finished (.error run.interruption)⟩ else ⟨[], .work rest⟩
    | .tellInterrupted => ⟨[⟨0.0, s!"interrupted={run.interrupted}"⟩], .work rest⟩
    | .gate => ⟨[], .work rest⟩
    | .fail failure => ⟨[], .finished (.error failure)⟩
    | .vanish => ⟨[], .gone⟩
    | .succeed message => ⟨[], .finished (.ok message)⟩

/-- The worker goes on until it resolves, is lost, or stands before a gate
without a permit.  Gives the permits that are left. -/
def advance (permits : Nat) (run : Run Script) : Script → Nat × Run Script
  | [] => (permits, run.take (turn run []))
  | .gate :: rest =>
    match permits with
    | 0 => (0, run)
    | permits + 1 => advance permits (run.take (turn run (.gate :: rest))) rest
  | action :: rest =>
    let next := run.take (turn run (action :: rest))
    match next.phase with
    | .running _ => advance permits next rest
    | _ => (permits, next)

end Script

/-- The future after its scripted worker went on as far as it can. -/
def Future.advanceScript (permits : Nat) (future : Future Script) : Nat × Future Script :=
  match future.run with
  | none => (permits, future)
  | some run =>
    match run.phase with
    | .running script =>
      let (left, run) := Script.advance permits run script
      (left, { future with run := some run })
    | _ => (permits, future)

/-- A future whose workers follow scripts, the permits for their gates that are left, and
what was heard of it that was not asked for yet. -/
structure Trial where
  future : Future Script
  permits : Nat
  heard : List ProgressEvent

namespace Trial

/-- The worker went on as far as it can. -/
def advance (trial : Trial) : Trial :=
  let (permits, future) := trial.future.advanceScript trial.permits
  { trial with permits, future }

/-- A script was scheduled, and its worker begins. -/
def schedule (trial : Trial) (label source : String) (capacity : Nat) (script : Script) :
    Except Failure Trial := do
  let future ← trial.future.schedule label source capacity script
  return { trial with future }.advance

/-- There is one more permit. -/
def release (trial : Trial) : Trial :=
  { trial with permits := trial.permits + 1 }.advance

/-- Asks the worker to stop, and says whether there is one. -/
def interrupt (trial : Trial) : Bool × Trial :=
  let (asked, future) := trial.future.interrupt
  (asked, { trial with future })

/-- Waits while the worker makes no turn, and keeps what is heard. -/
def wait (trial : Trial) (seconds : Option Nat) : Except Failure Unit × Trial :=
  let waited := trial.future.wait seconds
  (waited.result,
    { trial with future := waited.future, heard := trial.heard ++ waited.events })

/-- Empties the queue, keeps what is heard, and says how many events there were. -/
def drain (trial : Trial) : Nat × Trial :=
  let (queued, future) := trial.future.drain
  (queued.length, { trial with future, heard := trial.heard ++ trial.future.heard queued })

/-- What was heard since it was last asked for. -/
def report (trial : Trial) : List ProgressEvent × Trial :=
  (trial.heard, { trial with heard := [] })

end Trial

end TimelineStore
