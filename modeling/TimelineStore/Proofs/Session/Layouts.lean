import TimelineStore.Proofs.Session.Covering
import TimelineStore.Proofs.Session.Occurrences

/-!
# Traces keep their metadata

The first metadata that is loaded into a trace stays.  Whatever happens until the trace is
deleted, and whatever its sources report from then on, the trace covers the same time and has
the same tracks, each named by its position, so that a handle of a track names the same
descriptor all the while.

**Results.**
* `Session.Loads.exists_held`: what a load of metadata that succeeds leaves.
* `Session.displays_uponAll`: a loaded trace shows the same metadata until it is deleted.
-/

namespace TimelineStore

/-- What a worker does that reads metadata: it stops if it was asked to, and reads otherwise. -/
theorem Job.turn_metadata
    (run : Run Job) (trace : Trace) (source : Source) (id : TraceId) :
    (Job.metadata source id).turn run trace =
      Job.ofReading (if run.interrupted then .failed trace run.interruption
        else source.loadMetadata trace) := by
  cases hasked : run.interrupted <;> simp [Job.turn, hasked, Job.ofReading, Reading.failed]

/-- A load that succeeds leaves the metadata that the source answered, unless the trace has
some. -/
theorem Source.exists_of_loadMetadata
    {source : Source} {trace : Trace} {text : String}
    (hresult : (source.loadMetadata trace).result = .ok text) :
    ∃ metadata, source.metadata.answer = .ok metadata ∧
      (source.loadMetadata trace).trace = trace.loadMetadata metadata := by
  cases hanswer : source.metadata.answer with
  | error failure => simp [loadMetadata, hanswer] at hresult
  | ok metadata => exact ⟨metadata, rfl, by simp [loadMetadata, hanswer]⟩

/-- A future says that its run succeeded if it ended with a result, and only then. -/
theorem Future.result_of_succeeded
    {ω : Type} {future : Future ω} {run : Run ω} {steps : List Step}
    {result : Except Failure String}
    (hsucceeded :
      (future.carrying (run.take ⟨steps, .finished result⟩)).currentState = .succeeded) :
    ∃ text, result = .ok text := by
  obtain ⟨last, hlast⟩ := (steps.foldl Run.report run).phase_resolve result
  have hphase : (future.carrying (run.take ⟨steps, .finished result⟩)).phase? =
      some (.resolved (result.map fun _ => ()) last) :=
    congrArg some hlast
  cases result with
  | ok text => exact ⟨text, rfl⟩
  | error failure => simp [currentState, hphase, Except.map] at hsucceeded

namespace Session

variable {session : Session} {id : TraceId} {held : HeldTrace}

section Loads

/-- A load of metadata into a trace succeeds: a call reads the source of the database that
serves the trace, or the worker of a future ends with a result. -/
inductive Loads (session : Session) : Occurrence → TraceId → Source → Prop
  | called {database : DatabaseId} {attached : Attached} {id : TraceId}
      (hattached : session.database database = .ok attached)
      (hserved : session.served? database = some id)
      (hresult : (session.readMetadata database).result = .ok ()) :
      Loads session (.call (.readMetadata database)) id attached.source
  | worked {future : FutureId} {source : Source} {id : TraceId}
      (hjob : session.job? future = some (.metadata source id))
      (hdone : (session.turn future).stateOf? future = some .succeeded) :
      Loads session (.call (.turn future)) id source

/-- The trace that a database serves is found among the traces. -/
theorem held_of_served?
    {database : DatabaseId} {attached : Attached} {trace : Trace}
    (hnumbered : session.Numbered)
    (hattached : session.database database = .ok attached)
    (hserved : session.servedTrace database attached = .ok trace)
    (hid : session.served? database = some id)
    (hheld : session.traces.get? id.index = some held) :
    held.trace = trace := by
  obtain rfl : id = trace.id :=
    Option.some.inj (hid.symm.trans (served?_of_servedTrace hattached hserved))
  obtain ⟨number, other, hother, rfl⟩ := held_of_servedTrace hserved
  rw [hnumbered.traces number other hother, hother] at hheld
  rw [Option.some.inj hheld]

/-- A load that succeeds leaves the metadata that was answered, unless the trace has some. -/
theorem Loads.exists_held
    {occurrence : Occurrence} {source : Source}
    (horderly : session.Orderly)
    (hloads : session.Loads occurrence id source)
    (hheld : session.traces.get? id.index = some held) :
    ∃ metadata, source.metadata.answer = .ok metadata ∧
      (session.upon occurrence).traces.get? id.index =
        some { held with trace := held.trace.loadMetadata metadata } := by
  have hid : held.trace.id = id := horderly.numbered.traces _ _ hheld
  cases hloads with
  | @called database attached _ hattached hserved hresult =>
      rw [readMetadata, reading, hattached] at hresult
      cases htrace : session.servedTrace database attached with
      | error failure => simp [htrace, refused, Except.map] at hresult
      | ok trace =>
          obtain rfl := held_of_served? horderly.numbered hattached htrace hserved hheld
          cases hread : (attached.source.loadMetadata held.trace).result with
          | error failure => simp [htrace, hread, Except.map] at hresult
          | ok text =>
              obtain ⟨metadata, hanswer, hloaded⟩ := Source.exists_of_loadMetadata hread
              refine ⟨metadata, hanswer, ?_⟩
              have hput : (session.upon (.call (.readMetadata database))).traces =
                  (session.putTrace (held.trace.loadMetadata metadata)).traces := by
                simp only [upon, after, readMetadata, reading, hattached, htrace, hloaded]
              have hkept : (held.trace.loadMetadata metadata).id = id :=
                (Trace.id_perform held.trace (.load metadata)).trans hid
              rw [hput, get?_putTrace, hkept, if_pos rfl, hheld]
              rfl
  | @worked worker _ _ hjob hdone =>
      obtain ⟨future, hfuture, hrunning⟩ := job?_eq_some_iff.1 hjob
      obtain ⟨run, hrun, hphase⟩ := Option.map_eq_some_iff.1 hrunning
      have hbusy : session.Busy worker future run (.metadata source id) held :=
        ⟨hfuture, horderly.numbered.futures _ _ hfuture, hrun, hphase, hheld, hid⟩
      have hturn := Job.turn_metadata run held.trace source id
      have hkept : (if run.interrupted then Reading.failed held.trace run.interruption
          else source.loadMetadata held.trace).trace.id = held.trace.id := by
        split
        · rfl
        · obtain ⟨acts, hundergoes, -⟩ := Trace.undergoes_loadMetadata source held.trace
          exact hundergoes.id_eq
      obtain ⟨hafter, hsame⟩ := hbusy.get?_turn hturn hkept
      rw [stateOf?, hafter, Option.map_some, Option.some.injEq] at hdone
      obtain ⟨text, hread⟩ := Future.result_of_succeeded hdone
      -- a worker that was asked to stop does not end with a result
      cases hasked : run.interrupted with
      | true => simp [hasked, Reading.failed] at hread
      | false =>
          simp only [hasked, Bool.false_eq_true, if_false] at hread hsame
          obtain ⟨metadata, hanswer, hloaded⟩ := Source.exists_of_loadMetadata hread
          refine ⟨metadata, hanswer, ?_⟩
          rw [hloaded] at hsame
          exact (hsame id.index).trans (if_pos rfl)

end Loads

section Displays

/-- What can be seen of a listed trace is metadata: its time and its tracks, at each position
the one that is named by the position, with the descriptor that the metadata has there.  A
handle of a track beyond them names nothing. -/
structure Displays (session : Session) (id : TraceId) (metadata : Metadata) : Prop where
  start : session.property? (.trace id) (.trace .startTime) 0 =
    some (.natural metadata.window.start.toNat)
  stop : session.property? (.trace id) (.trace .endTime) 0 =
    some (.natural metadata.window.stop.toNat)
  count : session.property? (.trace id) (.trace .trackCount) 0 =
    some (.natural metadata.tracks.length)
  trackAt : ∀ index, session.trackAt? id index =
    if index < metadata.tracks.length then some ⟨id, ⟨index⟩⟩ else none
  named : ∀ track : TrackId,
    ((session.track ⟨id, track⟩).toOption.map fun found => (found.2.id, found.2.descriptor)) =
      metadata.tracks[track.index]?.map fun descriptor => (track, descriptor)

theorem displays_of_loadedWith
    {trace : Trace} {metadata : Metadata}
    (hheld : session.traces.get? id.index = some ⟨trace, true⟩)
    (hloaded : trace.LoadedWith metadata) :
    session.Displays id metadata := by
  have htrace : session.trace id = .ok trace := trace_eq_ok_iff.2 hheld
  have hfound : (session.trace id).toOption = some trace := by rw [htrace]; rfl
  refine ⟨?_, ?_, ?_, fun index => ?_, fun track => ?_⟩
  · simp [property?, hfound, Trace.property?, hloaded.1]
  · simp [property?, hfound, Trace.property?, hloaded.1]
  · simp [property?, hfound, Trace.property?, hloaded.trackCount]
  · split
    · rename_i hinside
      obtain ⟨track, htrack⟩ := trace.track?_of_lt (hloaded.trackCount ▸ hinside)
      simp [trackAt?, hfound, htrack, Trace.id_of_track? htrack]
    · rename_i houtside
      have hnone : trace.track? ⟨index⟩ = none :=
        List.getElem?_eq_none (hloaded.trackCount.trans_le (Nat.le_of_not_lt houtside))
      simp [trackAt?, hfound, hnone]
  · cases htrack : trace.track? track with
    | some found =>
        have hnamed : session.track ⟨id, track⟩ = .ok (trace, found) :=
          track_eq_ok_iff.2 ⟨htrace, htrack⟩
        rw [hnamed, hloaded.descriptor htrack]
        exact congrArg (fun named => some (named, found.descriptor)) (Trace.id_of_track? htrack)
    | none =>
        have houtside : metadata.tracks.length ≤ track.index :=
          hloaded.trackCount.symm.trans_le (List.getElem?_eq_none_iff.1 htrack)
        rw [List.getElem?_eq_none houtside]
        cases hnamed : session.track ⟨id, track⟩ with
        | error failure => rfl
        | ok found =>
            obtain ⟨hlisted, hpresent⟩ := track_eq_ok_iff.1 hnamed
            cases htrace.symm.trans hlisted
            cases htrack.symm.trans hpresent

/-- **A loaded trace keeps its metadata** until it is deleted. -/
theorem displays_uponAll
    {metadata : Metadata} {later : List Occurrence}
    (horderly : session.Orderly)
    (hheld : session.traces.get? id.index = some held)
    (hlisted : held.listed = true)
    (hloaded : held.trace.LoadedWith metadata)
    (hkept : .call (.deleteTrace id) ∉ later) :
    (session.uponAll later).Displays id metadata := by
  induction later generalizing session held with
  | nil =>
      refine displays_of_loadedWith ?_ hloaded
      rw [uponAll, List.foldl_nil, hheld, ← hlisted]
  | cons occurrence later ih =>
      obtain ⟨hother, hrest⟩ := not_or.1 (mt List.mem_cons.2 hkept)
      obtain ⟨after, hkeeps⟩ := exists_keeps horderly hheld occurrence
      obtain ⟨acts, hundergoes⟩ := hkeeps.undergoes
      exact ih (horderly.upon occurrence) hkeeps.holds
        (hkeeps.listed hlisted fun hsame => hother hsame.symm) (hundergoes.loadedWith hloaded) hrest

/-- The first load that succeeds settles what a trace shows until it is deleted. -/
theorem Loads.displays
    {trace : Trace} {occurrence : Occurrence} {source : Source}
    (horderly : session.Orderly)
    (hloads : session.Loads occurrence id source)
    (htrace : session.trace id = .ok trace)
    (hfirst : trace.isLoaded = false) :
    ∃ metadata, source.metadata.answer = .ok metadata ∧
      ∀ later, .call (.deleteTrace id) ∉ later →
        ((session.upon occurrence).uponAll later).Displays id metadata := by
  obtain ⟨metadata, hanswer, hafter⟩ := hloads.exists_held horderly (trace_eq_ok_iff.1 htrace)
  refine ⟨metadata, hanswer, fun later hkept => ?_⟩
  exact displays_uponAll (horderly.upon occurrence) hafter rfl
    (Trace.loadedWith_loadMetadata hfirst metadata) hkept

end Displays

end Session

end TimelineStore
