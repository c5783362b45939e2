import TimelineStore.Proofs.Track

/-!
# Giving up chunks of a track

Chunks are given up by their start, by their window, or all at once.  However it is done, a
track keeps exactly the chunks that are not asked for; giving them up again changes nothing, and
the order of two removals makes no difference.

**Results.**
* `Track.chunks_remove`: what stands on a track after a removal.
* `Track.remove_remove`, `Track.remove_comm`: removals done twice, and done in either order.
* `Track.lastChunk?_remove`: the chunk that was acquired last stays the last, or goes.
* `Removal.count_eq`: a removal counts the chunks that it takes.
-/

namespace TimelineStore

/-- How chunks of a track are given up. -/
inductive Removal where
  | startingAt (start : Timestamp)
  | exactly (window : Window)
  | all
deriving DecidableEq

/-- The chunk is given up. -/
def Removal.takes : Removal → Chunk → Bool
  | .startingAt start, chunk => chunk.start = start
  | .exactly window, chunk => chunk.window = window
  | .all, _ => true

/-- The track after a removal. -/
def Track.remove (track : Track) : Removal → Track
  | .startingAt start => track.evictAt start
  | .exactly window => track.evictWindow window
  | .all => track.evictAll

/-- The number that a removal counts on a track. -/
def Removal.count (track : Track) : Removal → Nat
  | .startingAt start => (track.shelf.startingAt? start).isSome.toNat
  | .exactly window => (track.shelf.exactly? window).isSome.toNat
  | .all => track.chunkCount

/-- A test that no two members of a list pass counts one member at most. -/
theorem countP_eq_toNat
    {α : Type} {apart : α → α → Prop} {values : List α} {passes : α → Bool}
    (hapart : values.Pairwise apart)
    (hone : ∀ a b, apart a b → passes a = true → passes b = true → False) :
    values.countP passes = (values.find? passes).isSome.toNat := by
  induction values with
  | nil => rfl
  | cons value values ih =>
      obtain ⟨hfirst, hapart⟩ := List.pairwise_cons.1 hapart
      cases hpasses : passes value with
      | false =>
          rw [List.countP_cons_of_neg (by simp [hpasses]), List.find?_cons, hpasses]
          exact ih hapart
      | true =>
          have hnone : values.countP passes = 0 :=
            List.countP_eq_zero.2 fun other hother hpass =>
              hone value other (hfirst other hother) hpasses hpass
          rw [List.countP_cons_of_pos hpasses, hnone, List.find?_cons, hpasses]
          rfl

namespace Removal

/-- **A removal counts the chunks that it takes.** -/
theorem count_eq
    (removal : Removal) (track : Track) :
    removal.count track = (track.shelf.chunks.filter removal.takes).length := by
  rw [← List.countP_eq_length_filter]
  cases removal with
  | startingAt start =>
      refine (countP_eq_toNat track.shelf.ordered fun a b hless ha hb => ?_).symm
      have hsame : a.start = b.start := (of_decide_eq_true ha).trans (of_decide_eq_true hb).symm
      exact UInt64.ne_of_lt hless hsame
  | exactly window =>
      refine (countP_eq_toNat track.shelf.ordered fun a b hless ha hb => ?_).symm
      have hsame : a.window = b.window := (of_decide_eq_true ha).trans (of_decide_eq_true hb).symm
      exact UInt64.ne_of_lt hless (congrArg Window.start hsame)
  | all => exact (List.countP_eq_length.2 fun _ _ => rfl).symm

end Removal

namespace Track

variable (track : Track) (removal : Removal)

@[simp] theorem id_remove : (track.remove removal).id = track.id := by
  cases removal <;> rfl

@[simp] theorem descriptor_remove : (track.remove removal).descriptor = track.descriptor := by
  cases removal <;> rfl

/-- **A track keeps the chunks that are not given up.** -/
theorem shelf_remove :
    (track.remove removal).shelf = track.shelf.filter fun chunk => !removal.takes chunk := by
  cases removal with
  | startingAt start => simp [remove, evictAt, Shelf.eraseAt, Removal.takes]
  | exactly window => simp [remove, evictWindow, Shelf.eraseWindow, Removal.takes]
  | all => simp [remove, evictAll, Shelf.empty, Shelf.filter, Removal.takes]

theorem chunks_remove :
    (track.remove removal).shelf.chunks =
      track.shelf.chunks.filter fun chunk => !removal.takes chunk := by
  rw [shelf_remove, Shelf.filter]

/-- Only giving up all chunks makes a track forget where the last one started. -/
theorem lastAcquired_remove :
    (track.remove removal).lastAcquired = if removal = .all then none else track.lastAcquired := by
  cases removal <;> rfl

/-- The chunk that was acquired last is the last still, unless it is given up. -/
theorem lastChunk?_remove :
    (track.remove removal).lastChunk? = track.lastChunk?.filter fun chunk => !removal.takes chunk := by
  rw [lastChunk?, lastChunk?, lastAcquired_remove, shelf_remove]
  split
  · rename_i hall
    subst hall
    cases track.lastAcquired.bind track.shelf.startingAt? <;> rfl
  · cases track.lastAcquired with
    | none => rfl
    | some start => exact track.shelf.startingAt?_filter _ start

variable {track}

theorem eq_of_shelf
    {other : Track}
    (hid : track.id = other.id)
    (hdescriptor : track.descriptor = other.descriptor)
    (hchunks : track.shelf.chunks = other.shelf.chunks)
    (hlast : track.lastAcquired = other.lastAcquired) :
    track = other := by
  obtain ⟨id, descriptor, ⟨chunks, ordered⟩, last⟩ := track
  obtain ⟨otherId, otherDescriptor, ⟨otherChunks, otherOrdered⟩, otherLast⟩ := other
  simp only at hid hdescriptor hchunks hlast
  subst hid hdescriptor hchunks hlast
  rfl

variable (track)

/-- **A removal done twice** takes nothing the second time. -/
theorem remove_remove :
    (track.remove removal).remove removal = track.remove removal := by
  refine eq_of_shelf (by simp) (by simp) ?_ ?_
  · simp [chunks_remove, List.filter_filter]
  · simp only [lastAcquired_remove]
    split <;> rfl

/-- **Two removals** may be done in either order. -/
theorem remove_comm
    (other : Removal) :
    (track.remove removal).remove other = (track.remove other).remove removal := by
  refine eq_of_shelf (by simp) (by simp) ?_ ?_
  · simp only [chunks_remove, List.filter_filter]
    exact List.filter_congr fun chunk _ => Bool.and_comm _ _
  · simp only [lastAcquired_remove]
    split <;> split <;> rfl

end Track

end TimelineStore
