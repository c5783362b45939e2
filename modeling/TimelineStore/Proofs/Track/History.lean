import Mathlib.Data.List.Induction
import TimelineStore.Proofs.Track.Removal

/-!
# Chunks by the history of a track

Which chunks are resident on a track, and which of them counts as acquired last, is settled by
what was done to the track: a chunk is there if it was acquired, and since then no other with its
start was, and no removal took it.  The track keeps a start alone of the chunk that it acquired
last, and keeps it when that chunk is given up by itself; still it never names a wrong chunk.

**Results.**
* `Track.Since.concat_iff`: how what holds since a chunk was acquired goes on with a history.
* `Track.startingAt?_after`, `Track.lastChunk?_after`: what a track has after a history.
* `Track.decided_by_history`: the resident chunks, their order and the last of them.
-/

namespace TimelineStore

namespace Track

/-- One thing that is done to the chunks of a track. -/
inductive Change where
  | acquire (chunk : Chunk)
  | remove (removal : Removal)

/-- The track after a change. -/
def change (track : Track) : Change → Track
  | .acquire chunk => track.acquire chunk
  | .remove removal => track.remove removal

/-- The track after a history of changes, the earliest first. -/
def after (track : Track) (history : List Change) : Track :=
  history.foldl change track

/-- The chunk was acquired, and since then there were only changes of a kind. -/
def Since (kind : Change → Prop) (history : List Change) (chunk : Chunk) : Prop :=
  ∃ earlier later, history = earlier ++ .acquire chunk :: later ∧ ∀ change ∈ later, kind change

/-- The change leaves a chunk where it is: it puts none in its place and does not take it. -/
def Change.Spares (chunk : Chunk) : Change → Prop
  | .acquire other => other.start ≠ chunk.start
  | .remove removal => removal.takes chunk = false

/-- The change takes chunks away, but not this one. -/
def Change.RemovesOthers (chunk : Chunk) (change : Change) : Prop :=
  ∃ removal, change = .remove removal ∧ removal.takes chunk = false

/-- The chunk was acquired, no chunk with its start was acquired later, and none of the later
removals took it. -/
def Remains (history : List Change) (chunk : Chunk) : Prop :=
  Since (Change.Spares chunk) history chunk

/-- The chunk was acquired, no chunk at all was acquired later, and none of the later removals
took it. -/
def RemainsLast (history : List Change) (chunk : Chunk) : Prop :=
  Since (Change.RemovesOthers chunk) history chunk

section Since

variable {kind : Change → Prop} {history : List Change} {chunk : Chunk}

theorem Since.not_nil :
    ¬ Since kind [] chunk := by
  rintro ⟨earlier, later, hnone, -⟩
  exact List.append_ne_nil_of_right_ne_nil _ (List.cons_ne_nil _ _) hnone.symm

/-- A chunk was acquired and followed by changes of a kind: by the last change, or before it if
that is of the kind too. -/
theorem Since.concat_iff
    {change : Change} :
    Since kind (history ++ [change]) chunk ↔
      change = .acquire chunk ∨ Since kind history chunk ∧ kind change := by
  constructor
  · rintro ⟨earlier, later, hsplit, hlater⟩
    rcases List.eq_nil_or_concat later with rfl | ⟨between, last, rfl⟩
    · obtain ⟨-, hlast⟩ := List.append_inj' hsplit rfl
      exact .inl (List.singleton_inj.1 hlast)
    · rw [List.concat_eq_append] at hsplit hlater
      rw [← List.cons_append, ← List.append_assoc] at hsplit
      obtain ⟨hhistory, hlast⟩ := List.append_inj' hsplit rfl
      obtain rfl := List.singleton_inj.1 hlast
      refine .inr ⟨⟨earlier, between, hhistory, fun other hother => ?_⟩, ?_⟩
      · exact hlater other (List.mem_append_left _ hother)
      · exact hlater change (List.mem_append_right _ List.mem_cons_self)
  · rintro (rfl | ⟨⟨earlier, later, rfl, hlater⟩, hlast⟩)
    · exact ⟨history, [], rfl, fun _ hnone => nomatch hnone⟩
    · refine ⟨earlier, later ++ [change], by simp, fun other hother => ?_⟩
      rcases List.mem_append.1 hother with hother | hother
      · exact hlater other hother
      · rwa [List.mem_singleton.1 hother]

end Since

section Steps

variable (track : Track) {history : List Change} {chunk : Chunk} {start : Timestamp}

@[simp] theorem after_concat
    (change : Change) :
    track.after (history ++ [change]) = (track.after history).change change := by
  rw [after, after, List.foldl_append, List.foldl_cons, List.foldl_nil]

/-- What is found at a start after a change: a chunk that it put there, or what was found there
and is spared. -/
theorem startingAt?_change_iff
    (change : Change) :
    (track.change change).shelf.startingAt? start = some chunk ↔
      change = .acquire chunk ∧ chunk.start = start ∨
        track.shelf.startingAt? start = some chunk ∧ change.Spares chunk := by
  cases change with
  | acquire other =>
      have hfound := track.shelf.startingAt?_insert other start
      simp only [Track.change, acquire, hfound, Change.Spares, Change.acquire.injEq]
      split
      · rename_i hstart
        constructor
        · rintro ⟨⟩
          exact .inl ⟨rfl, hstart.symm⟩
        · rintro (⟨rfl, -⟩ | ⟨hbefore, hne⟩)
          · rfl
          · have hat := (Shelf.startingAt?_eq_some_iff.1 hbefore).2
            exact absurd (hstart.symm.trans hat.symm) hne
      · rename_i hstart
        constructor
        · intro hbefore
          have hat := (Shelf.startingAt?_eq_some_iff.1 hbefore).2
          exact .inr ⟨hbefore, fun hsame => hstart (hat.symm.trans hsame.symm)⟩
        · rintro (⟨rfl, hat⟩ | ⟨hbefore, -⟩)
          · exact absurd hat.symm hstart
          · exact hbefore
  | remove removal =>
      simp only [Track.change, shelf_remove, Shelf.startingAt?_filter, Change.Spares,
        Option.filter_eq_some_iff, Bool.not_eq_true', reduceCtorEq, false_and, false_or]

/-- The chunk that was acquired last after a change: the one that it acquired, or the one that
was the last before, if the change takes others only. -/
theorem lastChunk?_change_iff
    (change : Change) :
    (track.change change).lastChunk? = some chunk ↔
      change = .acquire chunk ∨
        track.lastChunk? = some chunk ∧ change.RemovesOthers chunk := by
  cases change with
  | acquire other =>
      have hlast := track.lastChunk?_acquire other
      simp [Track.change, hlast, Change.RemovesOthers]
  | remove removal =>
      simp [Track.change, lastChunk?_remove, Change.RemovesOthers, Option.filter_eq_some_iff]

end Steps

section Histories

variable (id : TrackId) (descriptor : Descriptor) (history : List Change)

/-- The chunk that is found at a start is the one that remains of those with that start. -/
theorem startingAt?_after
    (start : Timestamp) (chunk : Chunk) :
    ((fresh id descriptor).after history).shelf.startingAt? start = some chunk ↔
      chunk.start = start ∧ Remains history chunk := by
  induction history using List.reverseRecOn with
  | nil =>
      refine ⟨fun hnone => ?_, fun ⟨_, hnone⟩ => absurd hnone Since.not_nil⟩
      cases hnone
  | append_singleton history change ih =>
      rw [after_concat, startingAt?_change_iff, ih, Remains, Remains, Since.concat_iff]
      tauto

/-- The chunk that was acquired last is the one that remains with nothing acquired after it. -/
theorem lastChunk?_after
    (chunk : Chunk) :
    ((fresh id descriptor).after history).lastChunk? = some chunk ↔ RemainsLast history chunk := by
  induction history using List.reverseRecOn with
  | nil =>
      refine ⟨fun hnone => ?_, fun hnone => absurd hnone Since.not_nil⟩
      cases hnone
  | append_singleton history change ih =>
      rw [after_concat, lastChunk?_change_iff, ih, RemainsLast, RemainsLast, Since.concat_iff]

/-- A history decides what a track holds.  At a start the track has the chunk that was acquired
last with that start, if no later removal took it, and none otherwise; by position it lists the
chunks that remain, by increasing start; and the chunk that counts as acquired last is the one
that was acquired last of all, if no later removal took it. -/
structure DecidedBy (track : Track) (history : List Change) : Prop where
  resident : ∀ (start : Timestamp) (chunk : Chunk),
    track.shelf.startingAt? start = some chunk ↔ chunk.start = start ∧ Remains history chunk
  listed : ∃ listed : List Chunk,
    listed.Pairwise (fun a b => a.start < b.start) ∧
    (∀ chunk, chunk ∈ listed ↔ Remains history chunk) ∧
    ∀ index, track.shelf.get? index = listed[index]?
  last : ∀ chunk : Chunk, track.lastChunk? = some chunk ↔ RemainsLast history chunk

/-- **The history of a track decides what it holds.** -/
theorem decided_by_history :
    ((fresh id descriptor).after history).DecidedBy history := by
  have hresident := startingAt?_after id descriptor history
  refine ⟨hresident, ?_, lastChunk?_after id descriptor history⟩
  refine ⟨_, ((fresh id descriptor).after history).shelf.ordered, fun chunk => ?_, fun _ => rfl⟩
  have hfound := hresident chunk.start chunk
  rw [Shelf.startingAt?_eq_some_iff] at hfound
  simpa using hfound

end Histories

end Track

end TimelineStore
