import Mathlib.Data.Finset.Card
import TimelineStore.Request

/-!
# What requests are made of

A request has the window that it was made of, and the tracks, each where it was named first.
There is one for every window that covers some time and every list that names some track.

**Results.**
* `Request.parts_of_make`: what a request that was made has.
* `Request.exists_make`: when a request can be made.
* `Request.length_tracks_of_make`: how many tracks are requested.
-/

namespace TimelineStore

namespace Request

variable {window : Window} {ids : List TrackId} {request : Request}

/-- A request has the window and the distinct tracks that it was made of. -/
theorem parts_of_make
    (hmake : make window ids = .ok request) :
    request.window = window ∧ request.tracks = firstOccurrences ids := by
  unfold make at hmake
  split at hmake
  · split at hmake
    · cases hmake
      exact ⟨rfl, rfl⟩
    · cases hmake
  · cases hmake

/-- **A window that covers some time and a list that names some track make a request.** -/
theorem exists_make
    (hcovers : window.isEmpty = false) (hsome : ids ≠ []) :
    ∃ request, make window ids = .ok request := by
  have hselects : firstOccurrences ids ≠ [] := by
    obtain ⟨id, hid⟩ := List.exists_mem_of_ne_nil _ hsome
    exact List.ne_nil_of_mem (mem_firstOccurrences.2 hid)
  exact ⟨_, by rw [make, dif_pos hcovers, dif_pos hselects]⟩

/-- As many tracks are requested as distinct ones were named. -/
theorem length_tracks_of_make
    (hmake : make window ids = .ok request) :
    request.tracks.length = ids.toFinset.card := by
  have hsame : request.tracks.toFinset = ids.toFinset := by
    ext id
    rw [List.mem_toFinset, List.mem_toFinset, (parts_of_make hmake).2, mem_firstOccurrences]
  rw [← hsame, List.toFinset_card_of_nodup request.distinct]

end Request

end TimelineStore
