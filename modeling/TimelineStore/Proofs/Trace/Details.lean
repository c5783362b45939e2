import TimelineStore.Proofs.Trace.Acts

/-!
# Resident detail of a trace

What a trace keeps of the detail of an event is what some source answered.  Flow endpoints
that match no descriptor are left out; each of the others is put on the first track that it
matches, in the order of the answer.  Tracks keep their descriptors, so what was right when
the detail was kept remains so.

**Results.**
* `Trace.keeps_resolve`: how detail is stored.
* `Trace.Undergoes.exists_keep`: where resident detail comes from.
* `Source.trace_loadDetail_of_error`, `Source.loadDetail_of_resident`: reads that store
  nothing.
-/

namespace TimelineStore

/-- The endpoint is on a timeline with this descriptor. -/
def Descriptor.Matches (descriptor : Descriptor) (endpoint : RawEndpoint) : Prop :=
  descriptor.category = endpoint.category ∧ descriptor.process = endpoint.process ∧
    descriptor.subprocess = endpoint.subprocess

instance (descriptor : Descriptor) (endpoint : RawEndpoint) :
    Decidable (descriptor.Matches endpoint) :=
  inferInstanceAs (Decidable (_ ∧ _ ∧ _))

theorem Descriptor.names_eq_true_iff
    {descriptor : Descriptor} {endpoint : RawEndpoint} :
    descriptor.names endpoint.category endpoint.process endpoint.subprocess = true ↔
      descriptor.Matches endpoint := by
  simp [Descriptor.names, Descriptor.Matches, and_assoc]

@[simp] theorem Detail.kind_resolve
    (find : RawEndpoint → Option TrackId) (raw : RawDetail) :
    (Detail.resolve find raw).kind = raw.kind := by
  cases raw <;> rfl

namespace Trace

/-- A stored endpoint is the far end that a source named, on the first track of the trace
that it matches. -/
structure Lands (trace : Trace) (raw : RawEndpoint) (stored : Endpoint) : Prop where
  event : stored.event = raw.event
  time : stored.time = raw.time
  onTrack : ∃ track, trace.track? stored.track = some track ∧ track.descriptor.Matches raw
  first : ∀ (id : TrackId) (track : Track), trace.track? id = some track →
    track.descriptor.Matches raw → stored.track.index ≤ id.index

/-- Detail is stored as a source answered it, but for the endpoints that match no track. -/
inductive Keeps (trace : Trace) : RawDetail → Detail → Prop
  | flow {raws : List RawEndpoint} {stored : List Endpoint} :
      List.Forall₂ trace.Lands
        (raws.filter fun raw => ∃ track ∈ trace.tracks, track.descriptor.Matches raw) stored →
      Keeps trace (.flow raws) (.flow stored)
  | stack (frames : List Frame) : Keeps trace (.stack frames) (.stack frames)
  | attributes (records : List Attribute) :
      Keeps trace (.attributes records) (.attributes records)

section Store

variable {trace : Trace} {raw : RawEndpoint}

theorem trackOf?_eq_none_iff :
    trace.trackOf? raw = none ↔ ¬ ∃ track ∈ trace.tracks, track.descriptor.Matches raw := by
  simp [trackOf?, find?, Descriptor.names_eq_true_iff]

theorem lands_of_trackOf?
    {id : TrackId}
    (hfound : trace.trackOf? raw = some id) :
    trace.Lands raw ⟨id, raw.event, raw.time⟩ := by
  obtain ⟨track, hfind, hid⟩ := Option.map_eq_some_iff.1 hfound
  obtain ⟨hnames, place, hplace, hat, hearlier⟩ := List.find?_eq_some_iff_getElem.1 hfind
  have htrack : trace.track? ⟨place⟩ = some track := List.getElem?_eq_some_iff.2 ⟨hplace, hat⟩
  obtain rfl : id = ⟨place⟩ := hid.symm.trans (id_of_track? htrack)
  refine ⟨rfl, rfl, ⟨track, htrack, Descriptor.names_eq_true_iff.1 hnames⟩, ?_⟩
  intro other found hother hmatches
  by_contra hless
  obtain ⟨hinside, rfl⟩ := List.getElem?_eq_some_iff.1 hother
  have hnone := hearlier other.index (Nat.lt_of_not_le hless)
  simp [Descriptor.names_eq_true_iff.2 hmatches] at hnone

/-- What a trace stores of an answer keeps it. -/
theorem keeps_resolve
    (trace : Trace) (answer : RawDetail) :
    trace.Keeps answer (.resolve trace.trackOf? answer) := by
  cases answer with
  | flow raws =>
      refine .flow ?_
      induction raws with
      | nil => exact .nil
      | cons raw raws ih =>
          cases hfound : trace.trackOf? raw with
          | none =>
              have hlost := trackOf?_eq_none_iff.1 hfound
              have hstored : Detail.resolveEndpoint trace.trackOf? raw = none :=
                congrArg (Option.map _) hfound
              rw [List.filter_cons_of_neg (by simpa using hlost),
                List.filterMap_cons_none hstored]
              exact ih
          | some id =>
              have hkept : ∃ track ∈ trace.tracks, track.descriptor.Matches raw := by
                by_contra hlost
                cases hfound.symm.trans (trackOf?_eq_none_iff.2 hlost)
              have hstored : Detail.resolveEndpoint trace.trackOf? raw =
                  some ⟨id, raw.event, raw.time⟩ := congrArg (Option.map _) hfound
              rw [List.filter_cons_of_pos (by simpa using hkept),
                List.filterMap_cons_some hstored]
              exact .cons (lands_of_trackOf? hfound) ih
  | stack frames => exact .stack frames
  | attributes records => exact .attributes records

end Store

section Kept

variable {trace after : Trace} {act : Act} {kind : DetailKind} {event : EventId} {detail : Detail}

/-- Endpoints are on the same tracks whatever happens to a loaded trace. -/
theorem trackOf?_perform
    (act : Act)
    (hloaded : trace.isLoaded = true) :
    (trace.perform act).trackOf? = trace.trackOf? := by
  rcases trace.tracks_perform act with ⟨change, halters, htracks⟩ | ⟨hunloaded, -⟩
  · funext endpoint
    simp only [trackOf?, find?, htracks, List.find?_map, Option.map_map, Function.comp_def,
      halters.descriptor, halters.id]
  · rw [hunloaded] at hloaded
    cases hloaded

/-- Detail that is resident after an act was resident before, or the act kept it. -/
theorem detail?_perform_cases
    (hadmits : trace.Admits act)
    (hdetail : (trace.perform act).detail? kind event = some detail) :
    trace.detail? kind event = some detail ∨
      ∃ source raw, act = .keep source kind event raw ∧
        detail = .resolve trace.trackOf? raw := by
  cases act with
  | load metadata =>
      cases hlayout : trace.layout <;> simp only [perform, loadMetadata, hlayout] at hdetail <;>
        exact .inl hdetail
  | keep source asked other raw =>
      have hget := trace.details.get?_insert ((Detail.resolve trace.trackOf? raw).kind, other)
        (kind, event) (.resolve trace.trackOf? raw)
      rw [Detail.kind_resolve, hadmits.2.2.2] at hget
      simp only [perform, putDetail, detail?, Detail.kind_resolve, hadmits.2.2.2, hget] at hdetail
      split at hdetail
      · rename_i hkey
        cases hkey
        cases hdetail
        exact .inr ⟨source, raw, rfl, rfl⟩
      · exact .inl hdetail
  | evictDetail evicted other =>
      have hget := trace.details.get?_erase (evicted, other) (kind, event)
      rw [perform, Trace.evictDetail, detail?, hget] at hdetail
      split at hdetail
      · cases hdetail
      · exact .inl hdetail
  | evictDetails evicted =>
      have hget := trace.details.get?_filter (fun key => key.1 ≠ evicted) (kind, event)
      rw [perform, Trace.evictDetails, detail?, hget] at hdetail
      split at hdetail
      · exact .inl hdetail
      · cases hdetail
  | _ => exact .inl hdetail

/-- **Resident detail was kept of a source's answer** to what was asked of it, and stored as
the trace stores that answer to this day. -/
theorem Undergoes.exists_keep
    {acts : List Act} {id : TraceId}
    (hundergoes : (fresh id).Undergoes acts trace)
    (hdetail : trace.detail? kind event = some detail) :
    ∃ source raw, .keep source kind event raw ∈ acts ∧ kind.appliesTo event.operation = true ∧
      source.readDetail kind event = .ok raw ∧ raw.kind = kind ∧
        trace.isLoaded = true ∧ detail = .resolve trace.trackOf? raw := by
  induction hundergoes with
  | refl => cases hdetail
  | @snoc acts middle act _ hadmits ih =>
      rcases detail?_perform_cases hadmits hdetail with hbefore | ⟨source, raw, rfl, rfl⟩
      · obtain ⟨source, raw, hact, happlies, hanswer, hkind, hloaded, hstored⟩ := ih hbefore
        refine ⟨source, raw, List.mem_append_left _ hact, happlies, hanswer, hkind,
          isLoaded_perform act hloaded, ?_⟩
        rw [trackOf?_perform act hloaded]
        exact hstored
      · obtain ⟨hloaded, happlies, hanswer, hkind⟩ := hadmits
        refine ⟨source, raw, List.mem_append_right _ List.mem_cons_self, happlies, hanswer, hkind,
          hloaded, ?_⟩
        rw [trackOf?_perform _ hloaded]

end Kept

end Trace

namespace Source

variable {source : Source} {kind : DetailKind} {event : EventId} {trace : Trace}

/-- A read of detail that fails stores nothing. -/
theorem trace_loadDetail_of_error
    {failure : Failure}
    (hfailed : (source.loadDetail kind event trace).result = .error failure) :
    (source.loadDetail kind event trace).trace = trace := by
  unfold loadDetail at hfailed ⊢
  split
  · rfl
  split
  · rfl
  split
  · rfl
  cases hanswer : source.readDetail kind event with
  | error failure => rfl
  | ok raw =>
      dsimp only
      split
      · rfl
      · rename_i hloaded happlies hnone hkind
        simp [hloaded, happlies, hnone, hanswer, hkind] at hfailed

/-- A source is not asked for detail that is resident. -/
theorem loadDetail_of_resident
    (source : Source)
    (hloaded : trace.isLoaded = true)
    (happlies : kind.appliesTo event.operation = true)
    (hresident : (trace.detail? kind event).isSome = true) :
    source.loadDetail kind event trace = ⟨trace, [], .ok s!"{kind} already loaded"⟩ := by
  simp [loadDetail, hloaded, happlies, hresident]

end Source

end TimelineStore
