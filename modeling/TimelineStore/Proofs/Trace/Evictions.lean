import Mathlib.Algebra.BigOperators.Group.List.Basic
import Mathlib.Algebra.GroupWithZero.Nat
import TimelineStore.Proofs.Trace
import TimelineStore.Proofs.Track.Removal

/-!
# Evictions

A trace gives up chunks by their start, by their window or all at once, and detail of one event
or of one kind.  Whatever is asked for, exactly that goes: the number that is reported is the
number of chunks and entries that went, the trace takes less by what they took, and nothing else
about it changes.  So an eviction that is repeated finds nothing, and evictions may come in any
order.

**Results.**
* `Trace.tracks_evict`, `Trace.details_evict`: what an eviction does to tracks and detail.
* `Trace.reports_eq`: an eviction reports the number of what it takes.
* `Trace.footprint_evict`: what the trace takes before and after.
* `Trace.evict_exact`: all that an eviction does, and what a second one does after it.
-/

namespace TimelineStore

section Sums

variable {α : Type} (passes : α → Bool) (values : List α)

theorem countP_eq_sum :
    values.countP passes = (values.map fun value => (passes value).toNat).sum := by
  induction values with
  | nil => rfl
  | cons value values ih =>
      rw [List.countP_cons, ih, List.map_cons, List.sum_cons, Nat.add_comm]
      cases passes value <;> rfl

/-- A sum over a list is the sum over the members that pass a test and the sum over the rest. -/
theorem sum_filter_add_sum_filter
    (size : α → Nat) :
    (values.map size).sum =
      ((values.filter fun value => !passes value).map size).sum +
        ((values.filter passes).map size).sum := by
  have hparts := ((List.filter_append_perm passes values).map size).sum_eq
  rw [List.map_append, List.sum_append] at hparts
  rw [← hparts, Nat.add_comm]

end Sums

/-- What a trace can be asked to give up. -/
inductive Eviction where
  | chunks (removal : Removal)
  | detail (kind : DetailKind) (event : EventId)
  | details (kind : DetailKind)

namespace Eviction

/-- The chunk is asked for. -/
def takesChunk : Eviction → Chunk → Bool
  | .chunks removal, chunk => removal.takes chunk
  | _, _ => false

/-- The detail that is kept under a key is asked for. -/
def takesDetail : Eviction → DetailKind × EventId → Bool
  | .chunks _, _ => false
  | .detail kind event, key => key = (kind, event)
  | .details kind, key => key.1 = kind

/-- The track after the eviction. -/
def onTrack : Eviction → Track → Track
  | .chunks removal, track => track.remove removal
  | _, track => track

variable (eviction other : Eviction) (track : Track)

@[simp] theorem id_onTrack : (eviction.onTrack track).id = track.id := by
  cases eviction <;> simp [onTrack]

@[simp] theorem descriptor_onTrack : (eviction.onTrack track).descriptor = track.descriptor := by
  cases eviction <;> simp [onTrack]

theorem chunks_onTrack :
    (eviction.onTrack track).shelf.chunks =
      track.shelf.chunks.filter fun chunk => !eviction.takesChunk chunk := by
  cases eviction with
  | chunks removal => exact track.chunks_remove removal
  | detail kind event => simp [onTrack, takesChunk]
  | details kind => simp [onTrack, takesChunk]

theorem lastChunk?_onTrack :
    (eviction.onTrack track).lastChunk? =
      track.lastChunk?.filter fun chunk => !eviction.takesChunk chunk := by
  cases eviction with
  | chunks removal => exact track.lastChunk?_remove removal
  | detail kind event => exact Option.ext fun chunk => by simp [onTrack, takesChunk]
  | details kind => exact Option.ext fun chunk => by simp [onTrack, takesChunk]

theorem onTrack_onTrack :
    eviction.onTrack (eviction.onTrack track) = eviction.onTrack track := by
  cases eviction with
  | chunks removal => exact track.remove_remove removal
  | detail kind event => rfl
  | details kind => rfl

theorem onTrack_comm :
    other.onTrack (eviction.onTrack track) = eviction.onTrack (other.onTrack track) := by
  cases eviction with
  | chunks removal =>
      cases other with
      | chunks removal' => exact track.remove_comm removal removal'
      | detail kind event => rfl
      | details kind => rfl
  | detail kind event => rfl
  | details kind => rfl

end Eviction

namespace Trace

/-- The trace after an eviction. -/
def evict (trace : Trace) : Eviction → Trace
  | .chunks (.startingAt start) => trace.evictAt start
  | .chunks (.exactly window) => trace.evictWindow window
  | .chunks .all => trace.evictAll
  | .detail kind event => trace.evictDetail kind event
  | .details kind => trace.evictDetails kind

/-- The number that an eviction reports; for the detail of one event it says whether there was
any. -/
def reports (trace : Trace) : Eviction → Nat
  | .chunks (.startingAt start) => trace.countAt start
  | .chunks (.exactly window) => trace.countWindow window
  | .chunks .all => trace.chunkCount
  | .detail kind event => (trace.detail? kind event).isSome.toNat
  | .details kind => trace.countDetails kind

/-- The resident chunks that an eviction asks for, track by track. -/
def takenChunks (trace : Trace) (eviction : Eviction) : List Chunk :=
  trace.tracks.flatMap fun track => track.shelf.chunks.filter eviction.takesChunk

/-- The resident detail that an eviction asks for. -/
def takenDetails (trace : Trace) (eviction : Eviction) : List Detail :=
  (trace.details.entries.filter fun entry => eviction.takesDetail entry.1).map Prod.snd

section Parts

variable (trace : Trace) (eviction : Eviction)

theorem tracks_evict :
    (trace.evict eviction).tracks = trace.tracks.map eviction.onTrack := by
  cases eviction with
  | chunks removal => cases removal <;> exact trace.tracks_mapTracks _ _
  | detail kind event => exact (List.map_id' _).symm
  | details kind => exact (List.map_id' _).symm

theorem entries_evict :
    (trace.evict eviction).details.entries =
      trace.details.entries.filter fun entry => !eviction.takesDetail entry.1 := by
  cases eviction with
  | chunks removal =>
      cases removal <;> exact (List.filter_eq_self.2 fun _ _ => rfl).symm
  | detail kind event => simp [evict, evictDetail, Keyed.erase, Keyed.filter, Eviction.takesDetail]
  | details kind => simp [evict, evictDetails, Keyed.filter, Eviction.takesDetail]

theorem details_evict :
    (trace.evict eviction).details =
      trace.details.filter fun key => !eviction.takesDetail key := by
  have hentries := trace.entries_evict eviction
  generalize (trace.evict eviction).details = details at hentries
  obtain ⟨entries, distinct⟩ := details
  subst hentries
  rfl

@[simp] theorem id_evict : (trace.evict eviction).id = trace.id := by
  cases eviction with
  | chunks removal => cases removal <;> rfl
  | _ => rfl

@[simp] theorem strings_evict : (trace.evict eviction).strings = trace.strings := by
  cases eviction with
  | chunks removal => cases removal <;> rfl
  | _ => rfl

@[simp] theorem boundTo_evict : (trace.evict eviction).boundTo = trace.boundTo := by
  cases eviction with
  | chunks removal => cases removal <;> rfl
  | _ => rfl

@[simp] theorem window?_evict : (trace.evict eviction).window? = trace.window? := by
  cases eviction with
  | chunks removal => cases removal <;> exact trace.window?_mapTracks _ _
  | _ => rfl

end Parts

section Counts

variable (trace : Trace) (eviction : Eviction)

/-- An eviction of detail takes no chunk. -/
theorem takenChunks_eq_nil
    (hnone : ∀ chunk, eviction.takesChunk chunk = false) :
    trace.takenChunks eviction = [] :=
  List.flatMap_eq_nil_iff.2 fun _ _ => List.filter_eq_nil_iff.2 fun chunk _ => by simp [hnone chunk]

/-- Chunks that are counted track by track are those that go. -/
theorem sum_count
    (removal : Removal) :
    (trace.tracks.map removal.count).sum = (trace.takenChunks (.chunks removal)).length := by
  rw [takenChunks, List.length_flatMap]
  exact congrArg List.sum (List.map_congr_left fun track _ => removal.count_eq track)

theorem length_takenDetails :
    (trace.takenDetails eviction).length =
      trace.details.entries.countP fun entry => eviction.takesDetail entry.1 := by
  rw [takenDetails, List.length_map, List.countP_eq_length_filter]

/-- **An eviction reports the number of what it takes.** -/
theorem reports_eq :
    trace.reports eviction =
      (trace.takenChunks eviction).length + (trace.takenDetails eviction).length := by
  cases eviction with
  | chunks removal =>
      have hdetails : (trace.takenDetails (.chunks removal)).length = 0 := by
        rw [length_takenDetails]
        exact List.countP_eq_zero.2 fun _ _ hnone => Bool.noConfusion hnone
      rw [hdetails, Nat.add_zero, ← sum_count]
      cases removal with
      | startingAt start => exact countP_eq_sum _ _
      | exactly window => exact countP_eq_sum _ _
      | all => exact List.sum_eq_foldl.symm
  | detail kind event =>
      have hchunks := trace.takenChunks_eq_nil (.detail kind event) fun _ => rfl
      have hapart := List.pairwise_map.1 trace.details.distinct
      rw [hchunks, List.length_nil, Nat.zero_add, length_takenDetails, reports, detail?,
        Keyed.get?, Option.isSome_map]
      exact (countP_eq_toNat hapart fun a b hne ha hb =>
        hne ((of_decide_eq_true ha).trans (of_decide_eq_true hb).symm)).symm
  | details kind =>
      have hchunks := trace.takenChunks_eq_nil (.details kind) fun _ => rfl
      rw [hchunks, List.length_nil, Nat.zero_add, length_takenDetails]
      rfl

end Counts

section Footprint

variable (trace : Trace) (eviction : Eviction)

theorem footprint_onTrack
    (track : Track) :
    track.footprint = (eviction.onTrack track).footprint +
      ((track.shelf.chunks.filter eviction.takesChunk).map Chunk.footprint).sum := by
  rw [Track.footprint, Track.footprint, ← List.sum_eq_foldl, ← List.sum_eq_foldl,
    Eviction.chunks_onTrack]
  exact sum_filter_add_sum_filter eviction.takesChunk track.shelf.chunks Chunk.footprint

/-- **The trace takes less by what is given up.** -/
theorem footprint_evict :
    trace.footprint = (trace.evict eviction).footprint +
      ((trace.takenChunks eviction).map Chunk.footprint).sum +
        ((trace.takenDetails eviction).map Detail.footprint).sum := by
  have hchunks : (trace.tracks.map Track.footprint).sum =
      ((trace.evict eviction).tracks.map Track.footprint).sum +
        ((trace.takenChunks eviction).map Chunk.footprint).sum := by
    rw [tracks_evict, takenChunks, List.map_flatMap, List.flatMap, List.sum_flatten, List.map_map,
      List.map_map, ← List.sum_map_add]
    exact congrArg List.sum
      (List.map_congr_left fun track _ => footprint_onTrack eviction track)
  have hdetails : (trace.details.values.map Detail.footprint).sum =
      ((trace.evict eviction).details.values.map Detail.footprint).sum +
        ((trace.takenDetails eviction).map Detail.footprint).sum := by
    simp only [Keyed.values, takenDetails, entries_evict, List.map_map]
    exact sum_filter_add_sum_filter _ _ _
  rw [footprint, footprint, ← List.sum_eq_foldl, ← List.sum_eq_foldl, ← List.sum_eq_foldl,
    ← List.sum_eq_foldl, hchunks, hdetails, strings_evict]
  omega

end Footprint

section Again

variable (trace : Trace) (eviction other : Eviction)

/-- **An eviction that is repeated** changes nothing. -/
theorem evict_evict :
    (trace.evict eviction).evict eviction = trace.evict eviction := by
  refine eq_of_parts (by simp) (by simp) ?_ (by simp) ?_ (by simp)
  · rw [tracks_evict, tracks_evict, List.map_map]
    exact List.map_congr_left fun track _ => eviction.onTrack_onTrack track
  · simp only [details_evict, Keyed.filter_filter, Bool.and_self]

/-- **Evictions may come in either order.** -/
theorem evict_comm :
    (trace.evict eviction).evict other = (trace.evict other).evict eviction := by
  refine eq_of_parts (by simp) (by simp) ?_ (by simp) ?_ (by simp)
  · rw [tracks_evict, tracks_evict, tracks_evict, tracks_evict, List.map_map, List.map_map]
    exact List.map_congr_left fun track _ => eviction.onTrack_comm other track
  · simp only [details_evict, Keyed.filter_filter, Bool.and_comm]

/-- A repeated eviction reports nothing. -/
theorem reports_evict :
    (trace.evict eviction).reports eviction = 0 := by
  have hchunks : (trace.evict eviction).takenChunks eviction = [] := by
    rw [takenChunks, tracks_evict]
    refine List.flatMap_eq_nil_iff.2 fun track htrack => ?_
    obtain ⟨held, -, rfl⟩ := List.mem_map.1 htrack
    rw [Eviction.chunks_onTrack, List.filter_filter]
    exact List.filter_eq_nil_iff.2 fun chunk _ => by simp
  have hdetails : (trace.evict eviction).takenDetails eviction = [] := by
    rw [takenDetails, entries_evict, List.filter_filter]
    exact List.map_eq_nil_iff.2 (List.filter_eq_nil_iff.2 fun entry _ => by simp)
  rw [reports_eq, hchunks, hdetails]
  rfl

end Again

/-- What an eviction does to a trace: what it asks for is gone from the resident chunks, from the
chunks that count as acquired last and from the detail, the trace takes less by just that, and
all else is as it was. -/
structure GivesUp (trace : Trace) (eviction : Eviction) (after : Trace) : Prop where
  chunks : after.tracks.map (·.shelf.chunks) =
    trace.tracks.map fun track => track.shelf.chunks.filter fun chunk => !eviction.takesChunk chunk
  last : after.tracks.map Track.lastChunk? =
    trace.tracks.map fun track => track.lastChunk?.filter fun chunk => !eviction.takesChunk chunk
  detail : ∀ (kind : DetailKind) (event : EventId), after.detail? kind event =
    if eviction.takesDetail (kind, event) then none else trace.detail? kind event
  footprint : trace.footprint = after.footprint +
    ((trace.takenChunks eviction).map Chunk.footprint).sum +
      ((trace.takenDetails eviction).map Detail.footprint).sum
  id : after.id = trace.id
  window : after.window? = trace.window?
  tracks : after.tracks.map (fun track => (track.id, track.descriptor)) =
    trace.tracks.map fun track => (track.id, track.descriptor)
  strings : after.strings = trace.strings
  boundTo : after.boundTo = trace.boundTo

theorem givesUp_evict
    (trace : Trace) (eviction : Eviction) :
    trace.GivesUp eviction (trace.evict eviction) where
  chunks := by
    rw [tracks_evict, List.map_map]
    exact List.map_congr_left fun track _ => eviction.chunks_onTrack track
  last := by
    rw [tracks_evict, List.map_map]
    exact List.map_congr_left fun track _ => eviction.lastChunk?_onTrack track
  detail kind event := by
    rw [detail?, details_evict, Keyed.get?_filter]
    cases eviction.takesDetail (kind, event) <;> rfl
  footprint := trace.footprint_evict eviction
  id := trace.id_evict eviction
  window := trace.window?_evict eviction
  tracks := by
    rw [tracks_evict, List.map_map]
    exact List.map_congr_left fun track _ => by simp
  strings := trace.strings_evict eviction
  boundTo := trace.boundTo_evict eviction

/-- **Evictions take exactly what they ask for.**  What is asked for is given up and counted, and
nothing else changes; a second time there is nothing to give up; and two evictions leave the same
trace in either order. -/
theorem evict_exact
    (trace : Trace) (eviction : Eviction) :
    trace.GivesUp eviction (trace.evict eviction) ∧
      trace.reports eviction =
        (trace.takenChunks eviction).length + (trace.takenDetails eviction).length ∧
      (trace.evict eviction).evict eviction = trace.evict eviction ∧
      (trace.evict eviction).reports eviction = 0 ∧
      ∀ other : Eviction,
        (trace.evict eviction).evict other = (trace.evict other).evict eviction :=
  ⟨trace.givesUp_evict eviction, trace.reports_eq eviction, trace.evict_evict eviction,
    trace.reports_evict eviction, trace.evict_comm eviction⟩

end Trace

end TimelineStore
