import TimelineStore.Proofs.Session.Gone
import TimelineStore.Proofs.Session.Issue
import TimelineStore.Proofs.Session.Layouts

/-!
# Handles are stable, and die for good

While a trace lives, a handle of one of its tracks names the same descriptor.  When the trace is
deleted, its handles and those of all that was on it name nothing, and since no number is handed
out twice they never will again.  The same goes for a database that was closed and for a future
that was given up.

**Results.**
* `Session.handles_stable`: identifiers are new, traces keep their metadata, and what is gone
  is gone for good.
-/

namespace TimelineStore

namespace Session

section Stability

/-- **Handles are stable while what they name lives, and dead afterwards.**  Over every run of
a session that starts out empty, in which any source may turn into another at any time:

* no number is handed out twice to identifiers of one kind, nor is a word of 32 bits as long as
  fewer than 2³² of the kind are handed out;
* from the first load of metadata into a trace that succeeds, by a call or by a worker, the
  trace shows the metadata that the source answered then until it is deleted, with each track
  named by its position and each handle of a track naming the same descriptor;
* once a trace was deleted, a database closed or a future given up, every use that names it, or
  that names a track, a slice or detail on that trace, is denied. -/
theorem handles_stable
    (config : Config) :
    (∀ (run : List Occurrence) (kind : Kind),
      ((empty config).numbers kind run).Nodup ∧
        (((empty config).numbers kind run).length < 2 ^ 32 →
          (((empty config).numbers kind run).map UInt32.ofNat).Nodup)) ∧
    (∀ (before : List Occurrence) (occurrence : Occurrence) (id : TraceId) (source : Source)
      (trace : Trace),
      ((empty config).uponAll before).Loads occurrence id source →
      ((empty config).uponAll before).trace id = .ok trace → trace.isLoaded = false →
        ∃ metadata, source.metadata.answer = .ok metadata ∧
          ∀ later, .call (.deleteTrace id) ∉ later →
            ((empty config).uponAll (before ++ occurrence :: later)).Displays id metadata) ∧
    (∀ (before : List Occurrence) (call : Call) (handle : Handle),
      ((empty config).uponAll before).GivesUp call handle →
        ∀ (later : List Occurrence) (use : Use), handle ∈ use.named →
          ((empty config).uponAll (before ++ .call call :: later)).Denied use) := by
  refine ⟨fun run kind => ?_, ?_, ?_⟩
  · exact ⟨nodup_numbers _ kind run, nodup_words config kind run⟩
  · intro before occurrence id source trace hloads htrace hfirst
    have horderly := (orderly_empty config).uponAll before
    obtain ⟨metadata, hanswer, hdisplays⟩ := hloads.displays horderly htrace hfirst
    refine ⟨metadata, hanswer, fun later hkept => ?_⟩
    rw [uponAll_append, uponAll_cons]
    exact hdisplays later hkept
  · intro before call handle hgives later use hnamed
    have horderly := (orderly_empty config).uponAll before
    rw [uponAll_append, uponAll_cons]
    exact denied_of_gone (hgives.gone.uponAll (horderly.upon (.call call)) later) hnamed

end Stability

section Example

/-- The capture is attached, and bound to a trace. -/
def opening : List Occurrence :=
  [.call (.attach capture.toSource), .call .createTrace, .call (.bind ⟨0⟩ ⟨0⟩)]

/-- The capture turns into one that covers another time and has no tracks, and is read again. -/
def replacement : List Occurrence :=
  [.turnsInto ⟨0⟩ { capture with window := some ⟨50, 60⟩, tracks := [] }.toSource,
    .call (.readMetadata ⟨0⟩)]

/-- The trace shows the capture that was loaded first, also after the replacement was read.
When it is deleted and another one is created, its handles find nothing. -/
theorem handles_stable_replacement :
    (((empty .standard).numbers .trace (opening ++ [.call .createTrace])).map
      UInt32.ofNat).Nodup ∧
    ((empty .standard).uponAll
      (opening ++ .call (.readMetadata ⟨0⟩) :: replacement)).Displays ⟨0⟩ capture.metadata ∧
    ((empty .standard).uponAll
      ((opening ++ .call (.readMetadata ⟨0⟩) :: replacement) ++
        .call (.deleteTrace ⟨0⟩) :: [.call .createTrace])).Denied (.namesOf ⟨⟨0⟩, ⟨1⟩⟩) := by
  obtain ⟨hnew, hstable, hdead⟩ := handles_stable .standard
  have hattached : ((empty .standard).uponAll opening).database ⟨0⟩ =
      .ok ⟨capture.toSource, .empty, some ⟨0⟩⟩ :=
    rfl
  obtain ⟨metadata, hanswer, hdisplays⟩ :=
    hstable opening _ ⟨0⟩ _ _ (.called hattached rfl rfl) rfl rfl
  cases hanswer
  refine ⟨(hnew _ .trace).2 (by decide), hdisplays replacement (by simp [replacement]), ?_⟩
  exact hdead _ _ _ (.deleteTrace rfl) [.call .createTrace] _ (List.mem_singleton.2 rfl)

end Example

end Session

end TimelineStore
