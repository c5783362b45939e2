import TimelineStore.Proofs.Session.Covering
import TimelineStore.Proofs.Session.Traces
import TimelineStore.Proofs.Trace.Regular

/-!
# What the properties of a track enumerate

A track tells how many chunks are resident on it, and gives a handle of the one at each
position.  A handle names a chunk by its start only, and is looked up by time: it leads back
to its chunk because a chunk covers its own start, and no two chunks of a track start
together.  Since rows stand in order of their times, the first and the last row of each chunk
are enough to know the least and the greatest time on a track.

**Results.**
* `Shelf.covering?_start`: looking up the start of a chunk finds the chunk.
* `Track.spans`: the least and the greatest time of the rows of a track.
* `Session.surface_enumerates`: the properties of a track and of its slices enumerate what is
  resident.
-/

namespace TimelineStore

namespace Shelf

variable {shelf : Shelf} {chunk : Chunk}

/-- Looking up the start of a chunk that covers some time finds the chunk. -/
theorem covering?_start
    (hchunk : chunk ∈ shelf.chunks)
    (hcovers : chunk.window.isEmpty = false) :
    shelf.covering? chunk.start = some chunk := by
  refine covering?_eq_some_iff.2 ⟨hchunk, ?_, fun _ _ hstarted => hstarted⟩
  exact Window.contains_iff.2 ⟨UInt64.le_refl _, Window.isEmpty_eq_false_iff.1 hcovers⟩

/-- Starts increase along a shelf, so that they are no less than the positions. -/
theorem le_start_of_getElem?
    {index : Nat}
    (hat : shelf.chunks[index]? = some chunk) :
    index ≤ chunk.start.toNat := by
  induction index generalizing chunk with
  | zero => exact Nat.zero_le _
  | succ index ih =>
      obtain ⟨hbound, rfl⟩ := List.getElem?_eq_some_iff.1 hat
      have hbefore : index < shelf.chunks.length := Nat.lt_of_succ_lt hbound
      have hreached := ih (List.getElem?_eq_getElem hbefore)
      have hless := List.pairwise_iff_getElem.1 shelf.ordered index (index + 1) hbefore hbound
        index.lt_succ_self
      exact Nat.succ_le_of_lt (lt_of_le_of_lt hreached (UInt64.lt_iff_toNat_lt.1 hless))

theorem exists_position
    (hchunk : chunk ∈ shelf.chunks) :
    ∃ index : UInt64, shelf.get? index.toNat = some chunk := by
  obtain ⟨position, hat⟩ := List.mem_iff_getElem?.1 hchunk
  -- there are no more positions than starts
  have hfits : position < 2 ^ 64 := lt_of_le_of_lt (le_start_of_getElem? hat) chunk.start.toNat_lt
  refine ⟨.ofNat position, ?_⟩
  rw [get?, UInt64.toNat_ofNat_of_lt' hfits, hat]

end Shelf

/-- The least and the greatest time of the rows of chunks, if there are any rows. -/
structure Spans (chunks : List Chunk) (first last : Option Timestamp) : Prop where
  first_none : first = none ↔ ∀ chunk ∈ chunks, chunk.times = []
  last_none : last = none ↔ ∀ chunk ∈ chunks, chunk.times = []
  least : ∀ time, first = some time →
    (∃ chunk ∈ chunks, chunk.times.head? = some time) ∧
      ∀ chunk ∈ chunks, ∀ other ∈ chunk.times, time ≤ other
  greatest : ∀ time, last = some time →
    (∃ chunk ∈ chunks, chunk.times.getLast? = some time) ∧
      ∀ chunk ∈ chunks, ∀ other ∈ chunk.times, other ≤ time

namespace Track

variable {track : Track} {counter : Bool}

/-- **The least and the greatest time of the rows of a track** are found among the first and
the last rows of its chunks. -/
theorem spans
    (hregular : ∀ chunk ∈ track.shelf.chunks, chunk.Regular counter) :
    Spans track.shelf.chunks track.firstTime? track.lastTime? := by
  refine ⟨?_, ?_, fun time hfirst => ?_, fun time hlast => ?_⟩
  · simp [firstTime?, List.min?_eq_none_iff, List.filterMap_eq_nil_iff, Chunk.firstTime?_eq]
  · simp [lastTime?, List.max?_eq_none_iff, List.filterMap_eq_nil_iff, Chunk.lastTime?_eq]
  · obtain ⟨hmem, hleast⟩ := List.min?_eq_some_iff.1 hfirst
    obtain ⟨chunk, hchunk, htime⟩ := List.mem_filterMap.1 hmem
    refine ⟨⟨chunk, hchunk, chunk.firstTime?_eq ▸ htime⟩, fun other hother time hrow => ?_⟩
    obtain ⟨first, hstarts, hle⟩ := Chunk.exists_firstTime?_le (hregular other hother).sorted hrow
    exact UInt64.le_trans (hleast first (List.mem_filterMap.2 ⟨other, hother, hstarts⟩)) hle
  · obtain ⟨hmem, hgreatest⟩ := List.max?_eq_some_iff.1 hlast
    obtain ⟨chunk, hchunk, htime⟩ := List.mem_filterMap.1 hmem
    refine ⟨⟨chunk, hchunk, chunk.lastTime?_eq ▸ htime⟩, fun other hother time hrow => ?_⟩
    obtain ⟨last, hends, hle⟩ := Chunk.exists_le_lastTime? (hregular other hother).sorted hrow
    exact UInt64.le_trans hle (hgreatest last (List.mem_filterMap.2 ⟨other, hother, hends⟩))

end Track

/-- The slice of a track that a chunk is. -/
def TrackHandle.slice (handle : TrackHandle) (chunk : Chunk) : SliceHandle :=
  ⟨handle.trace, handle.track, chunk.start⟩

namespace Session

variable
  {config : Config} {session : Session} {handle : TrackHandle} {trace : Trace} {track : Track}

/-- The slices of a track, in order of their starts, are chunks, and each handle leads back
to its chunk. -/
structure Enumerates (session : Session) (handle : TrackHandle) (chunks : List Chunk) :
    Prop where
  count : ∀ index,
    session.property? (.track handle) (.track .sliceCount) index = some (.natural chunks.length)
  sliceAt : ∀ (index : UInt64) (hbound : index.toNat < chunks.length),
    session.property? (.track handle) (.track .sliceAt) index =
      some (.handle (.slice (handle.slice chunks[index.toNat])))
  beyond : ∀ index : UInt64, chunks.length ≤ index.toNat →
    session.property? (.track handle) (.track .sliceAt) index = none
  ascending : chunks.Pairwise fun chunk later => chunk.start < later.start
  listed : ∀ chunk ∈ chunks, ∃ index,
    session.property? (.track handle) (.track .sliceAt) index =
      some (.handle (.slice (handle.slice chunk)))
  resolves : ∀ chunk ∈ chunks, session.chunk? (handle.slice chunk) = some chunk

/-- The properties of a slice tell how many rows a chunk has, what room it takes, and the
time of each row, in order. -/
structure Shows (session : Session) (slice : SliceHandle) (chunk : Chunk) : Prop where
  recordCount : ∀ index,
    session.property? (.slice slice) (.slice .recordCount) index =
      some (.natural chunk.times.length)
  footprint : ∀ index,
    session.property? (.slice slice) (.slice .footprint) index = some (.natural chunk.footprint)
  timeAt : ∀ (index : UInt64) (hbound : index.toNat < chunk.times.length),
    session.property? (.slice slice) (.slice .timeAt) index =
      some (.natural chunk.times[index.toNat].toNat)
  beyond : ∀ index : UInt64, chunk.times.length ≤ index.toNat →
    session.property? (.slice slice) (.slice .timeAt) index = none
  ascending : chunk.times.Pairwise (· ≤ ·)

/-- The properties of a track tell what its chunks come to: how many rows they have, what
room they take, and the least and the greatest time of a row. -/
structure Totals (session : Session) (handle : TrackHandle) (chunks : List Chunk) : Prop where
  recordCount : ∀ index,
    session.property? (.track handle) (.track .recordCount) index =
      some (.natural (chunks.map fun chunk => chunk.times.length).sum)
  footprint : ∀ index,
    session.property? (.track handle) (.track .footprint) index =
      some (.natural (chunks.map Chunk.footprint).sum)
  times : ∃ first last : Option Timestamp, Spans chunks first last ∧
    (∀ index, session.property? (.track handle) (.track .firstTime) index =
      first.map fun time => .natural time.toNat) ∧
    ∀ index, session.property? (.track handle) (.track .lastTime) index =
      last.map fun time => .natural time.toNat

section Surface

theorem regular_of_track
    (hreach : Reachable config session)
    (htrack : session.track handle = .ok (trace, track)) :
    ∀ chunk ∈ track.shelf.chunks, chunk.Regular track.descriptor.category.isCounter := by
  obtain ⟨hlisted, hheld⟩ := track_eq_ok_iff.1 htrack
  obtain ⟨acts, hundergoes⟩ := undergoes_of_reachable hreach (trace_eq_ok_iff.1 hlisted)
  exact hundergoes.regular (Trace.regular_fresh _) track (List.mem_of_getElem? hheld)

/-- The handle of a chunk that covers some time leads back to it. -/
theorem slice_of_mem
    {chunk : Chunk}
    (htrack : session.track handle = .ok (trace, track))
    (hchunk : chunk ∈ track.shelf.chunks)
    (hcovers : chunk.window.isEmpty = false) :
    session.slice (handle.slice chunk) = .ok (trace, chunk) := by
  have hfound : (track.shelf.covering? (handle.slice chunk).start).filter
      (·.start = (handle.slice chunk).start) = some chunk := by
    simp [TrackHandle.slice, Shelf.covering?_start hchunk hcovers]
  refine Outcome.bind_eq_ok_iff.2 ⟨(trace, track), htrack, ?_⟩
  dsimp only
  rw [hfound]
  rfl

/-- The handles that a track gives name the track and the trace that were asked for. -/
theorem property?_sliceAt
    (hreach : Reachable config session)
    (htrack : session.track handle = .ok (trace, track))
    (index : UInt64) :
    session.property? (.track handle) (.track .sliceAt) index =
      (track.shelf.get? index.toNat).map fun chunk => .handle (.slice (handle.slice chunk)) := by
  obtain ⟨hlisted, hheld⟩ := track_eq_ok_iff.1 htrack
  have hnumber : trace.id = handle.trace :=
    (numbered_of_reachable hreach).traces _ _ (trace_eq_ok_iff.1 hlisted)
  simp only [property?, htrack]
  unfold TrackHandle.slice
  rw [← hnumber, ← Trace.id_of_track? hheld]
  rfl

theorem enumerates_of_track
    (hreach : Reachable config session)
    (htrack : session.track handle = .ok (trace, track)) :
    session.Enumerates handle track.shelf.chunks := by
  have hsliceAt := property?_sliceAt hreach htrack
  refine ⟨fun index => ?_, fun index hbound => ?_, fun index hbeyond => ?_, track.shelf.ordered,
    fun chunk hchunk => ?_, fun chunk hchunk => ?_⟩
  · simp only [property?, htrack]
    rfl
  · rw [hsliceAt, Shelf.get?, List.getElem?_eq_getElem hbound, Option.map_some]
  · rw [hsliceAt, Shelf.get?, List.getElem?_eq_none hbeyond, Option.map_none]
  · obtain ⟨index, hat⟩ := Shelf.exists_position hchunk
    exact ⟨index, by rw [hsliceAt, hat, Option.map_some]⟩
  · have hcovers := (regular_of_track hreach htrack chunk hchunk).covers
    rw [chunk?, slice_of_mem htrack hchunk hcovers]
    rfl

theorem shows_of_slice
    {slice : SliceHandle} {chunk : Chunk} {counter : Bool}
    (hslice : session.slice slice = .ok (trace, chunk))
    (hregular : chunk.Regular counter) :
    session.Shows slice chunk := by
  have htimeAt (index : UInt64) : session.property? (.slice slice) (.slice .timeAt) index =
      chunk.times[index.toNat]?.map fun time => .natural time.toNat := by
    simp only [property?, hslice]
    rw [← Chunk.timeAt?_eq]
    rfl
  refine ⟨fun index => ?_, fun index => ?_, fun index hbound => ?_, fun index hbeyond => ?_,
    hregular.sorted⟩
  · simp only [property?, hslice]
    rw [Chunk.length_times]
    rfl
  · simp only [property?, hslice]
    rfl
  · rw [htimeAt, List.getElem?_eq_getElem hbound, Option.map_some]
  · rw [htimeAt, List.getElem?_eq_none hbeyond, Option.map_none]

theorem totals_of_track
    (hreach : Reachable config session)
    (htrack : session.track handle = .ok (trace, track)) :
    session.Totals handle track.shelf.chunks := by
  refine ⟨fun index => ?_, fun index => ?_, track.firstTime?, track.lastTime?,
    Track.spans (regular_of_track hreach htrack), fun index => ?_, fun index => ?_⟩
  · simp only [property?, htrack, Chunk.length_times, List.sum_eq_foldl]
    rfl
  · simp only [property?, htrack, List.sum_eq_foldl]
    rfl
  · simp only [property?, htrack]
    rfl
  · simp only [property?, htrack]
    rfl

/-- **The properties of a track of a reachable session enumerate what is resident on it.**
There is a handle at each position below the number of slices and at no other, each leads
back to its chunk, and its properties tell the rows of the chunk.  The properties of the
track are the totals of these.  The chunk that was acquired last is one of them. -/
theorem surface_enumerates
    (hreach : Reachable config session)
    (htrack : session.track handle = .ok (trace, track)) :
    session.Enumerates handle track.shelf.chunks ∧
      (∀ chunk ∈ track.shelf.chunks, session.Shows (handle.slice chunk) chunk) ∧
      session.Totals handle track.shelf.chunks ∧
      ∀ slice, session.lastChunk? handle = some slice →
        ∃ chunk ∈ track.shelf.chunks, slice = handle.slice chunk := by
  refine ⟨enumerates_of_track hreach htrack, fun chunk hchunk => ?_,
    totals_of_track hreach htrack, fun slice hlast => ?_⟩
  · have hregular := regular_of_track hreach htrack chunk hchunk
    exact shows_of_slice (slice_of_mem htrack hchunk hregular.covers) hregular
  · obtain ⟨found, hfound, hlast⟩ := Option.bind_eq_some_iff.1 hlast
    rw [htrack] at hfound
    cases hfound
    obtain ⟨chunk, hacquired, hslice⟩ := Option.bind_eq_some_iff.1 hlast
    obtain ⟨start, -, hstarting⟩ := Option.bind_eq_some_iff.1 hacquired
    refine ⟨chunk, List.mem_of_find?_eq_some hstarting, ?_⟩
    exact (Option.some.inj hslice).symm

theorem surface_enumerates_nested :
    ∃ long short : Chunk,
      nested.Enumerates ⟨⟨0⟩, ⟨1⟩⟩ [long, short] ∧
        long.window = ⟨10, 40⟩ ∧ short.window = ⟨13, 20⟩ ∧
        nested.Shows ⟨⟨0⟩, ⟨1⟩, 13⟩ short ∧ nested.Totals ⟨⟨0⟩, ⟨1⟩⟩ [long, short] := by
  obtain ⟨trace, track, long, short, htrack, hchunks, hlong, hshort⟩ := exists_track_nested
  have hreach : Reachable .standard nested := (reachable_ready.step (.read ..)).step (.read ..)
  obtain ⟨henumerates, hshows, htotals, -⟩ := surface_enumerates hreach htrack
  rw [hchunks] at henumerates hshows htotals
  have hslice : TrackHandle.slice ⟨⟨0⟩, ⟨1⟩⟩ short = ⟨⟨0⟩, ⟨1⟩, 13⟩ := by
    rw [TrackHandle.slice, Chunk.start, hshort]
  refine ⟨long, short, henumerates, hlong, hshort, ?_, htotals⟩
  rw [← hslice]
  exact hshows short (by simp)

end Surface

end Session

end TimelineStore
