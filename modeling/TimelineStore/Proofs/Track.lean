import Mathlib.Data.List.Nodup
import TimelineStore.Track

/-!
# Shelves and tracks

A shelf keeps its chunks by start, so a chunk that starts after all others goes to the
end, and a chunk that was put on the shelf is the one that starts where it starts.

**Results.**
* `Shelf.startingAt?_eq_some_iff`: what is found at a start.
* `Shelf.startingAt?_insert`, `Shelf.startingAt?_filter`: what is found there after a change.
* `Shelf.chunks_insert_of_lt`: a chunk that starts after all others comes last.
* `Track.lastChunk?_acquire`: what a track acquired last is what it acquired.
-/

namespace TimelineStore

namespace Shelf

variable (shelf : Shelf) (chunk : Chunk)

/-- What stands on the shelf after a chunk was put there: the chunk, and what stood there and
starts elsewhere. -/
theorem mem_insert_iff
    {other : Chunk} :
    other ∈ (shelf.insert chunk).chunks ↔
      other = chunk ∨ other ∈ shelf.chunks ∧ other.start ≠ chunk.start := by
  simp only [insert, List.mem_append, List.mem_cons, List.mem_filter, decide_eq_true_eq]
  constructor
  · rintro (⟨hmem, hbefore⟩ | rfl | ⟨hmem, hafter⟩)
    · exact .inr ⟨hmem, UInt64.ne_of_lt hbefore⟩
    · exact .inl rfl
    · exact .inr ⟨hmem, (UInt64.ne_of_lt hafter).symm⟩
  · rintro (rfl | ⟨hmem, hne⟩)
    · exact .inr (.inl rfl)
    · rcases UInt64.lt_or_lt_of_ne hne with hbefore | hafter
      · exact .inl ⟨hmem, hbefore⟩
      · exact .inr (.inr ⟨hmem, hafter⟩)

/-- What stands on the shelf after a chunk was put there is the chunk, or stood there. -/
theorem eq_or_mem_of_mem_insert
    {other : Chunk}
    (hmem : other ∈ (shelf.insert chunk).chunks) :
    other = chunk ∨ other ∈ shelf.chunks :=
  ((mem_insert_iff shelf chunk).1 hmem).imp_right And.left

section Lookup

variable {shelf chunk} {start : Timestamp}

/-- Chunks of one shelf that start together are one chunk. -/
theorem eq_of_start_eq
    {chunk other : Chunk}
    (hchunk : chunk ∈ shelf.chunks)
    (hother : other ∈ shelf.chunks)
    (hstart : chunk.start = other.start) :
    chunk = other := by
  have hapart : (shelf.chunks.map Chunk.start).Nodup :=
    List.pairwise_map.2 (shelf.ordered.imp fun hless => UInt64.ne_of_lt hless)
  exact List.inj_on_of_nodup_map hapart hchunk hother hstart

/-- The chunk that is found at a start is the one that stands on the shelf and starts there. -/
theorem startingAt?_eq_some_iff :
    shelf.startingAt? start = some chunk ↔ chunk ∈ shelf.chunks ∧ chunk.start = start := by
  have hat {other : Chunk} (hfound : shelf.startingAt? start = some other) :
      other ∈ shelf.chunks ∧ other.start = start :=
    ⟨List.mem_of_find?_eq_some hfound, by simpa using List.find?_some hfound⟩
  refine ⟨hat, fun ⟨hmem, hstart⟩ => ?_⟩
  cases hfound : shelf.startingAt? start with
  | none => exact absurd (decide_eq_true hstart) (List.find?_eq_none.1 hfound chunk hmem)
  | some other =>
      obtain ⟨hother, hsame⟩ := hat hfound
      exact congrArg some (eq_of_start_eq hother hmem (hsame.trans hstart.symm))

end Lookup

/-- A chunk that is put on the shelf is found where it starts, and nothing else is found
elsewhere than before. -/
theorem startingAt?_insert
    (start : Timestamp) :
    (shelf.insert chunk).startingAt? start =
      if start = chunk.start then some chunk else shelf.startingAt? start := by
  refine Option.ext fun other => ?_
  rw [startingAt?_eq_some_iff, mem_insert_iff]
  split
  · rename_i hstart
    constructor
    · rintro ⟨rfl | ⟨-, hne⟩, hother⟩
      · rfl
      · exact absurd (hother.trans hstart) hne
    · rintro ⟨⟩
      exact ⟨.inl rfl, hstart.symm⟩
  · rename_i hstart
    rw [startingAt?_eq_some_iff]
    constructor
    · rintro ⟨rfl | ⟨hmem, -⟩, hother⟩
      · exact absurd hother.symm hstart
      · exact ⟨hmem, hother⟩
    · rintro ⟨hmem, rfl⟩
      exact ⟨.inr ⟨hmem, hstart⟩, rfl⟩

/-- What is found where some chunks are kept is what was found, if it is kept. -/
theorem startingAt?_filter
    (keep : Chunk → Bool) (start : Timestamp) :
    (shelf.filter keep).startingAt? start = (shelf.startingAt? start).filter keep := by
  refine Option.ext fun other => ?_
  rw [Option.filter_eq_some_iff, startingAt?_eq_some_iff, startingAt?_eq_some_iff, filter,
    List.mem_filter]
  exact ⟨fun ⟨⟨hmem, hkept⟩, hstart⟩ => ⟨⟨hmem, hstart⟩, hkept⟩,
    fun ⟨⟨hmem, hstart⟩, hkept⟩ => ⟨⟨hmem, hkept⟩, hstart⟩⟩

/-- A chunk that starts after all others comes last. -/
theorem chunks_insert_of_lt
    (hlater : ∀ other ∈ shelf.chunks, other.start < chunk.start) :
    (shelf.insert chunk).chunks = shelf.chunks ++ [chunk] := by
  have hall : shelf.chunks.filter (fun other => other.start < chunk.start) = shelf.chunks := by
    refine List.filter_eq_self.2 fun other hmem => ?_
    exact decide_eq_true (hlater other hmem)
  have hnone : shelf.chunks.filter (fun other => chunk.start < other.start) = [] := by
    refine List.filter_eq_nil_iff.2 fun other hmem => ?_
    simpa using UInt64.le_of_lt (hlater other hmem)
  simp only [insert, hall, hnone]

end Shelf

/-- The chunk that a track acquired last is resident. -/
theorem Track.lastChunk?_acquire
    (track : Track) (chunk : Chunk) :
    (track.acquire chunk).lastChunk? = some chunk := by
  have hfound := track.shelf.startingAt?_insert chunk chunk.start
  rwa [if_pos rfl] at hfound

end TimelineStore
