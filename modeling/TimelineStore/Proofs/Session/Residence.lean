import TimelineStore.Proofs.Session.Details
import TimelineStore.Proofs.Session.Targets
import TimelineStore.Session.Query

/-!
# Handles of resident detail

A handle of detail is valid while its trace is listed and the detail is resident.  It stays
valid until the trace is deleted or the detail is evicted, and a lookup on a valid handle finds
how much the detail holds.

**Results.**
* `Session.exists_held_afterAll`: what a run that forfeits nothing of a handle keeps.
* `Session.valid_afterAll`: a handle stays valid.
* `Session.property?_countKey`: what a valid handle finds.
-/

namespace TimelineStore

/-- The key of the number of endpoints, frames or attributes. -/
def DetailKind.countKey : DetailKind → PropertyKey
  | .flow => .flow .endpointCount
  | .stack => .stack .frameCount
  | .attributes => .attributes .recordCount

namespace Trace

variable {trace after : Trace} {kind : DetailKind} {event : EventId}

/-- Detail remains resident through every act but its eviction. -/
theorem isSome_detail?_perform
    {act : Act}
    (hdetail : act ≠ .evictDetail kind event)
    (hdetails : act ≠ .evictDetails kind)
    (hresident : (trace.detail? kind event).isSome = true) :
    ((trace.perform act).detail? kind event).isSome = true := by
  cases act with
  | load metadata => cases hlayout : trace.layout <;> simpa [perform, loadMetadata, hlayout]
  | keep source asked other raw =>
      have hget := trace.details.get?_insert ((Detail.resolve trace.trackOf? raw).kind, other)
        (kind, event) (.resolve trace.trackOf? raw)
      rw [perform, putDetail, detail?, hget]
      split
      · rfl
      · exact hresident
  | evictDetail evicted other =>
      have hother : (kind, event) ≠ (evicted, other) := by
        rintro ⟨⟩
        exact hdetail rfl
      have hget := trace.details.get?_erase (evicted, other) (kind, event)
      rw [perform, Trace.evictDetail, detail?, hget, if_neg hother]
      exact hresident
  | evictDetails evicted =>
      have hother : kind ≠ evicted := by
        rintro rfl
        exact hdetails rfl
      have hget := trace.details.get?_filter (fun key => key.1 ≠ evicted) (kind, event)
      rw [perform, Trace.evictDetails, detail?, hget, if_pos (by simpa using hother)]
      exact hresident
  | _ => exact hresident

theorem Undergoes.isSome_detail?
    {acts : List Act}
    (hundergoes : trace.Undergoes acts after)
    (hkeeps : ∀ act ∈ acts, act ≠ .evictDetail kind event ∧ act ≠ .evictDetails kind)
    (hresident : (trace.detail? kind event).isSome = true) :
    (after.detail? kind event).isSome = true := by
  induction hundergoes with
  | refl => exact hresident
  | snoc _ _ ih =>
      obtain ⟨hdetail, hdetails⟩ := hkeeps _ (List.mem_append_right _ List.mem_cons_self)
      refine isSome_detail?_perform hdetail hdetails (ih fun act hact => ?_)
      exact hkeeps act (List.mem_append_left _ hact)

end Trace

/-- A read of detail that succeeds leaves the detail resident. -/
theorem Source.isSome_detail?_loadDetail
    {source : Source} {kind : DetailKind} {event : EventId} {trace : Trace} {text : String}
    (hread : (source.loadDetail kind event trace).result = .ok text) :
    ((source.loadDetail kind event trace).trace.detail? kind event).isSome = true := by
  unfold loadDetail at hread ⊢
  split
  · rename_i hunloaded
    simp [hunloaded, Reading.failed] at hread
  split
  · rename_i hloaded hinapplicable
    simp [hloaded, hinapplicable, Reading.failed] at hread
  split
  · rename_i hresident
    exact hresident
  · rename_i hloaded happlies hmissing
    simp only [hloaded, happlies, hmissing] at hread
    cases hanswer : source.readDetail kind event with
    | error failure => simp [hanswer, Reading.failed] at hread
    | ok raw =>
        dsimp only
        split
        · rename_i hother
          simp [hanswer, hother, Reading.failed] at hread
        · rename_i hkind
          have hkey : (Detail.resolve trace.trackOf? raw).kind = kind :=
            (Detail.kind_resolve _ raw).trans (by simpa using hkind)
          have hget := trace.details.get?_insert ((Detail.resolve trace.trackOf? raw).kind, event)
            (kind, event) (.resolve trace.trackOf? raw)
          rw [Trace.putDetail, Trace.detail?, hget, if_pos (by rw [hkey])]
          rfl

namespace Session

variable {session : Session} {config : Config} {handle : DetailHandle}

/-- The handle names detail that is resident in a listed trace. -/
def Valid (session : Session) (handle : DetailHandle) : Prop :=
  ∃ detail, session.detail handle = .ok detail

/-- The call deletes the trace that the handle names, or evicts the detail. -/
def Call.Forfeits (handle : DetailHandle) : Call → Prop
  | .deleteTrace id => id = handle.trace
  | .evictDetail id kind event => id = handle.trace ∧ kind = handle.kind ∧ event = handle.event
  | .evictDetails id kind => id = handle.trace ∧ kind = handle.kind
  | _ => False

section Lookup

variable {detail : Detail}

theorem detail_eq_ok_iff :
    session.detail handle = .ok detail ↔
      ∃ trace, session.trace handle.trace = .ok trace ∧
        trace.detail? handle.kind handle.event = some detail := by
  constructor
  · intro hdetail
    obtain ⟨trace, htrace, hfound⟩ := Outcome.bind_eq_ok_iff.1 hdetail
    refine ⟨trace, htrace, ?_⟩
    split at hfound
    · rename_i resident hresident
      cases hfound
      exact hresident
    · cases hfound
  · rintro ⟨trace, htrace, hresident⟩
    refine Outcome.bind_eq_ok_iff.2 ⟨trace, htrace, ?_⟩
    rw [hresident]
    rfl

theorem valid_iff :
    session.Valid handle ↔
      ∃ trace, session.traces.get? handle.trace.index = some ⟨trace, true⟩ ∧
        (trace.detail? handle.kind handle.event).isSome = true := by
  simp only [Valid, detail_eq_ok_iff, trace_eq_ok_iff, Option.isSome_iff_exists]
  constructor
  · rintro ⟨detail, trace, hheld, hdetail⟩
    exact ⟨trace, hheld, detail, hdetail⟩
  · rintro ⟨trace, hheld, detail, hdetail⟩
    exact ⟨detail, trace, hheld, hdetail⟩

/-- Detail is of the kind under which it is resident. -/
theorem kind_of_detail
    (hreach : Reachable config session)
    (hdetail : session.detail handle = .ok detail) :
    detail.kind = handle.kind := by
  obtain ⟨trace, htrace, hresident⟩ := detail_eq_ok_iff.1 hdetail
  obtain ⟨acts, hundergoes⟩ := undergoes_of_reachable hreach (trace_eq_ok_iff.1 htrace)
  obtain ⟨_, raw, -, -, -, hkind, -, rfl⟩ := hundergoes.exists_keep hresident
  exact (Detail.kind_resolve _ raw).trans hkind

/-- A lookup on a valid handle finds how much the detail holds. -/
theorem property?_countKey
    (hreach : Reachable config session)
    (hdetail : session.detail handle = .ok detail)
    (index : UInt64) :
    session.property? (.detail handle) handle.kind.countKey index =
      some (.natural detail.size) := by
  have hkind := kind_of_detail hreach hdetail
  cases hasked : handle.kind <;> rw [hasked] at hkind <;> cases detail <;> cases hkind <;>
    simp only [property?, DetailKind.countKey, hdetail] <;> rfl

end Lookup

section Runs

variable {held : HeldTrace} {call : Call}

/-- Only calls that forfeit the detail evict it. -/
theorem keeps_of_not_forfeits
    {act : Trace.Act}
    (hspares : ¬ call.Forfeits handle)
    (htarget : call.target? session = some handle.trace)
    (hdoes : call.Does act) :
    act ≠ .evictDetail handle.kind handle.event ∧ act ≠ .evictDetails handle.kind := by
  constructor <;> rintro rfl
  · cases call with
    | evictDetail id kind event =>
        obtain ⟨hkind, hevent⟩ := hdoes
        exact hspares ⟨Option.some.inj htarget, hkind.symm, hevent.symm⟩
    | _ => exact hdoes.elim
  · cases call with
    | evictDetails id kind => exact hspares ⟨Option.some.inj htarget, Eq.symm hdoes⟩
    | _ => exact hdoes.elim

/-- What a call that forfeits nothing of a handle keeps: the trace remains listed if it is,
and the detail remains resident if it is. -/
theorem exists_held_after
    (hreach : Reachable config session)
    (hheld : session.traces.get? handle.trace.index = some held)
    (hspares : ¬ call.Forfeits handle) :
    ∃ after : HeldTrace, (session.after call).traces.get? handle.trace.index = some after ∧
      after.listed = held.listed ∧
      ((held.trace.detail? handle.kind handle.event).isSome = true →
        (after.trace.detail? handle.kind handle.event).isSome = true) := by
  obtain ⟨after, acts, hhandled⟩ :=
    exists_handled (numbered_of_reachable hreach) (atWork_of_reachable hreach) hheld call
  refine ⟨after, hhandled.holds, ?_, hhandled.undergoes.isSome_detail? fun act hact => ?_⟩
  · rcases hhandled.listed with hsame | rfl
    · exact hsame
    · exact absurd rfl hspares
  · obtain ⟨htarget, hdoes⟩ := hhandled.does act hact
    exact keeps_of_not_forfeits hspares htarget hdoes

theorem exists_held_afterAll
    {calls : List Call}
    (hreach : Reachable config session)
    (hheld : session.traces.get? handle.trace.index = some held)
    (hspares : ∀ call ∈ calls, ¬ call.Forfeits handle) :
    ∃ after : HeldTrace, (session.afterAll calls).traces.get? handle.trace.index = some after ∧
      after.listed = held.listed ∧
      ((held.trace.detail? handle.kind handle.event).isSome = true →
        (after.trace.detail? handle.kind handle.event).isSome = true) := by
  induction calls generalizing session held with
  | nil => exact ⟨held, hheld, rfl, id⟩
  | cons call calls ih =>
      obtain ⟨middle, hmiddle, hlisted, hkept⟩ :=
        exists_held_after hreach hheld (hspares call List.mem_cons_self)
      obtain ⟨after, hafter, hlistedAfter, hkeptAfter⟩ :=
        ih (reachable_afterAll hreach [call]) hmiddle fun other hother =>
          hspares other (List.mem_cons_of_mem call hother)
      exact ⟨after, hafter, hlistedAfter.trans hlisted, fun hresident =>
        hkeptAfter (hkept hresident)⟩

/-- **A handle stays valid** until the trace is deleted or the detail is evicted. -/
theorem valid_afterAll
    {calls : List Call}
    (hreach : Reachable config session)
    (hvalid : session.Valid handle)
    (hspares : ∀ call ∈ calls, ¬ call.Forfeits handle) :
    (session.afterAll calls).Valid handle := by
  obtain ⟨trace, hheld, hresident⟩ := valid_iff.1 hvalid
  obtain ⟨⟨after, listed⟩, hafter, rfl, hkept⟩ := exists_held_afterAll hreach hheld hspares
  exact valid_iff.2 ⟨after, hafter, hkept hresident⟩

end Runs

end Session

end TimelineStore
