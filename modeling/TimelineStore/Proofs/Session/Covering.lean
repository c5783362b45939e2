import TimelineStore.Proofs.Session.ReadPaths
import TimelineStore.Proofs.Track
import TimelineStore.Proofs.Window
import TimelineStore.Session.Query

/-!
# Chunks that cover a time

A shelf looks a time up by the starts of its chunks alone: it takes the last chunk that
starts no later than the time, and finds nothing if that chunk has ended by then.  Windows on
one shelf may lie inside one another, and a chunk inside a longer one hides it from its own
end on.

**Results.**
* `Shelf.covering?_eq_some_iff`: what is found covers the time, and nothing that has started
  by then starts later.
* `Shelf.isSome_covering?_of_staggered`: unless windows lie inside one another, a chunk is
  found wherever one covers.
* `Session.covering_lookup`: what the lookup of a track comes to in a reachable session.
-/

namespace TimelineStore

namespace Shelf

section Lookup

variable {shelf : Shelf} {time : Timestamp}

/-- The last of the chunks that start by a time is the one that starts last. -/
theorem getLast?_started_eq_some_iff
    {chunk : Chunk} :
    (shelf.chunks.filter fun chunk => chunk.start ≤ time).getLast? = some chunk ↔
      chunk ∈ shelf.chunks ∧ chunk.start ≤ time ∧
        ∀ other ∈ shelf.chunks, other.start ≤ time → other.start ≤ chunk.start := by
  have hmem : ∀ other : Chunk,
      other ∈ shelf.chunks.filter (fun chunk => chunk.start ≤ time) ↔
        other ∈ shelf.chunks ∧ other.start ≤ time := by
    simp [List.mem_filter]
  have hlast : ∀ last : Chunk,
      (shelf.chunks.filter fun chunk => chunk.start ≤ time).getLast? = some last →
        last ∈ shelf.chunks ∧ last.start ≤ time ∧
          ∀ other ∈ shelf.chunks, other.start ≤ time → other.start ≤ last.start := by
    intro last hlast
    obtain ⟨before, hsplit⟩ := List.getLast?_eq_some_iff.1 hlast
    have hordered : (before ++ [last]).Pairwise fun a b => a.start < b.start := by
      rw [← hsplit]
      exact shelf.ordered.filter _
    have hthere := (hmem last).1 (by rw [hsplit]; simp)
    refine ⟨hthere.1, hthere.2, fun other hother hstarted => ?_⟩
    have hinside := (hmem other).2 ⟨hother, hstarted⟩
    rw [hsplit, List.mem_append, List.mem_singleton] at hinside
    rcases hinside with hbefore | rfl
    · exact UInt64.le_of_lt
        ((List.pairwise_append.1 hordered).2.2 other hbefore last List.mem_cons_self)
    · exact UInt64.le_refl _
  constructor
  · exact hlast chunk
  · rintro ⟨hchunk, hstarted, hgreatest⟩
    cases hfound : (shelf.chunks.filter fun chunk => chunk.start ≤ time).getLast? with
    | none =>
        have hempty := List.getLast?_eq_none_iff.1 hfound
        have hinside := (hmem chunk).2 ⟨hchunk, hstarted⟩
        rw [hempty] at hinside
        cases hinside
    | some last =>
        obtain ⟨hlastMem, hlastStarted, hlastGreatest⟩ := hlast last hfound
        have hstart : last.start = chunk.start :=
          UInt64.le_antisymm (hgreatest last hlastMem hlastStarted)
            (hlastGreatest chunk hchunk hstarted)
        rw [eq_of_start_eq hlastMem hchunk hstart]

/-- What is found covers the time, and no chunk that has started by then starts later. -/
theorem covering?_eq_some_iff
    {chunk : Chunk} :
    shelf.covering? time = some chunk ↔
      chunk ∈ shelf.chunks ∧ chunk.window.contains time = true ∧
        ∀ other ∈ shelf.chunks, other.start ≤ time → other.start ≤ chunk.start := by
  rw [covering?, Option.filter_eq_some_iff, getLast?_started_eq_some_iff]
  simp only [Window.contains, Bool.and_eq_true, decide_eq_true_eq]
  constructor
  · rintro ⟨⟨hmem, hstarted, hgreatest⟩, hbefore⟩
    exact ⟨hmem, ⟨hstarted, hbefore⟩, hgreatest⟩
  · rintro ⟨hmem, ⟨hstarted, hbefore⟩, hgreatest⟩
    exact ⟨⟨hmem, hstarted, hgreatest⟩, hbefore⟩

theorem isSome_covering?_iff :
    (shelf.covering? time).isSome = true ↔
      ∃ chunk ∈ shelf.chunks, chunk.window.contains time = true ∧
        ∀ other ∈ shelf.chunks, other.start ≤ time → other.start ≤ chunk.start := by
  simp only [Option.isSome_iff_exists, covering?_eq_some_iff]

/-- No chunk of the shelf lies inside another: those that start later end no earlier. -/
def Staggered (shelf : Shelf) : Prop :=
  ∀ chunk ∈ shelf.chunks, ∀ later ∈ shelf.chunks,
    chunk.start ≤ later.start → chunk.stop ≤ later.stop

/-- Unless windows lie inside one another, a chunk is found wherever one covers. -/
theorem isSome_covering?_of_staggered
    (hstaggered : shelf.Staggered) :
    (shelf.covering? time).isSome = true ↔
      ∃ chunk ∈ shelf.chunks, chunk.window.contains time = true := by
  constructor
  · intro hfound
    obtain ⟨chunk, hmem, hcovers, -⟩ := isSome_covering?_iff.1 hfound
    exact ⟨chunk, hmem, hcovers⟩
  · rintro ⟨chunk, hmem, hcovers⟩
    obtain ⟨hstarted, hbefore⟩ := Window.contains_iff.1 hcovers
    cases hlast : (shelf.chunks.filter fun chunk => chunk.start ≤ time).getLast? with
    | none =>
        have hempty := List.getLast?_eq_none_iff.1 hlast
        have hinside : chunk ∈ shelf.chunks.filter fun chunk => chunk.start ≤ time :=
          List.mem_filter.2 ⟨hmem, decide_eq_true hstarted⟩
        rw [hempty] at hinside
        cases hinside
    | some last =>
        obtain ⟨hlastMem, hlastStarted, hgreatest⟩ := getLast?_started_eq_some_iff.1 hlast
        -- the last chunk ends no earlier than the one that covers the time
        have hends := hstaggered chunk hmem last hlastMem (hgreatest chunk hmem hstarted)
        have hcoversToo : last.window.contains time = true :=
          Window.contains_iff.2 ⟨hlastStarted, UInt64.lt_of_lt_of_le hbefore hends⟩
        exact isSome_covering?_iff.2 ⟨last, hlastMem, hcoversToo, hgreatest⟩

end Lookup

end Shelf

namespace Session

/-- A handle names a track of a listed trace. -/
theorem track_eq_ok_iff
    {session : Session} {handle : TrackHandle} {trace : Trace} {track : Track} :
    session.track handle = .ok (trace, track) ↔
      session.trace handle.trace = .ok trace ∧ trace.track? handle.track = some track := by
  unfold Session.track
  rw [Outcome.bind_eq_ok_iff]
  constructor
  · rintro ⟨found, hfound, hrest⟩
    cases hheld : found.track? handle.track with
    | none => simp [hheld] at hrest
    | some held =>
        simp only [hheld, pure, Except.pure, Except.ok.injEq, Prod.mk.injEq] at hrest
        obtain ⟨rfl, rfl⟩ := hrest
        exact ⟨hfound, hheld⟩
  · rintro ⟨hlisted, hheld⟩
    refine ⟨trace, hlisted, ?_⟩
    simp [hheld, pure, Except.pure]

/-- **Looking a time up on a track of a reachable session** finds a resident chunk that
covers the time, and finds one exactly if some chunk covers the time and no chunk that has
started by then starts later.  Unless windows of the track lie inside one another, this is
whenever some chunk covers the time.  The property of the track is the handle of what is
found. -/
theorem covering_lookup
    {config : Config} {session : Session} {handle : TrackHandle} {trace : Trace} {track : Track}
    (time : Timestamp)
    (hreach : Reachable config session)
    (htrack : session.track handle = .ok (trace, track)) :
    session.property? (.track handle) (.track .sliceCovering) time =
        (track.shelf.covering? time).map
          (fun chunk => .handle (.slice ⟨handle.trace, handle.track, chunk.start⟩)) ∧
      (∀ chunk, track.shelf.covering? time = some chunk →
        chunk ∈ track.shelf.chunks ∧ chunk.window.contains time = true) ∧
      ((track.shelf.covering? time).isSome = true ↔
        ∃ chunk ∈ track.shelf.chunks, chunk.window.contains time = true ∧
          ∀ other ∈ track.shelf.chunks, other.start ≤ time → other.start ≤ chunk.start) ∧
      (track.shelf.Staggered →
        ((track.shelf.covering? time).isSome = true ↔
          ∃ chunk ∈ track.shelf.chunks, chunk.window.contains time = true)) := by
  refine ⟨?_, ?_, Shelf.isSome_covering?_iff, Shelf.isSome_covering?_of_staggered⟩
  · obtain ⟨hlisted, hheld⟩ := track_eq_ok_iff.1 htrack
    have hnumber : trace.id = handle.trace :=
      (numbered_of_reachable hreach).traces _ _ (trace_eq_ok_iff.1 hlisted)
    simp only [property?, htrack]
    rw [← hnumber, ← Trace.id_of_track? hheld]
    rfl
  · intro chunk hfound
    obtain ⟨hmem, hcovers, -⟩ := Shelf.covering?_eq_some_iff.1 hfound
    exact ⟨hmem, hcovers⟩

section Example

/-- The queue of the capture over all its time. -/
def whole : Request :=
  ⟨⟨10, 40⟩, [⟨1⟩], by decide, by decide, by decide⟩

/-- The queue of the capture over part of its time. -/
def part : Request :=
  ⟨⟨13, 20⟩, [⟨1⟩], by decide, by decide, by decide⟩

/-- The queue was read over all its time, then over part of it. -/
def nested : Session :=
  ((ready.read ⟨0⟩ whole .batch).session.read ⟨0⟩ part .batch).session

/-- Both chunks are resident, in order of their starts. -/
theorem exists_track_nested :
    ∃ (trace : Trace) (track : Track) (long short : Chunk),
      nested.track ⟨⟨0⟩, ⟨1⟩⟩ = .ok (trace, track) ∧
        track.shelf.chunks = [long, short] ∧ long.window = ⟨10, 40⟩ ∧ short.window = ⟨13, 20⟩ := by
  have hserves : ready.Serves ⟨0⟩ ⟨0⟩ capture loaded := ⟨⟨.empty, rfl⟩, rfl, rfl, rfl, rfl⟩
  have hwhole : ∀ id ∈ whole.tracks, id.index < capture.tracks.length := by decide
  have hpart : ∀ id ∈ part.tracks, id.index < capture.tracks.length := by decide
  obtain ⟨_, hfirst, -, hthen⟩ := hserves.read .batch hwhole
  obtain ⟨_, hsecond, -, hlast⟩ := hthen.read .batch hpart
  have hfresh : loaded.track? ⟨1⟩ = some (.fresh ⟨1⟩ ⟨0, .kernel, "main", "queue 1", []⟩) := rfl
  obtain ⟨_, long, -, hlong, hlongMade⟩ :=
    Source.acquires_load_of_ok .batch rfl hfirst (List.mem_singleton_self _) hfresh
  obtain ⟨_, short, -, hshort, hshortMade⟩ :=
    Source.acquires_load_of_ok .batch rfl hsecond (List.mem_singleton_self _) hlong
  have hlongWindow : long.window = ⟨10, 40⟩ := hlongMade.window_eq
  have hshortWindow : short.window = ⟨13, 20⟩ := hshortMade.window_eq
  have hempty : ∀ other ∈ Shelf.empty.chunks, other.start < long.start := by
    intro other hmem
    cases hmem
  have hless : long.start < short.start := by
    rw [Chunk.start, Chunk.start, hlongWindow, hshortWindow]
    decide
  have hchunks : (Shelf.empty.insert long).chunks = [long] :=
    Shelf.empty.chunks_insert_of_lt long hempty
  refine ⟨_, _, long, short, track_eq_ok_iff.2 ⟨hlast.listed, hshort⟩, ?_, hlongWindow,
    hshortWindow⟩
  have hboth := (Shelf.empty.insert long).chunks_insert_of_lt short (by simpa [hchunks] using hless)
  rw [hchunks] at hboth
  exact hboth

theorem covering_lookup_nested :
    ∃ (trace : Trace) (track : Track),
      nested.track ⟨⟨0⟩, ⟨1⟩⟩ = .ok (trace, track) ∧
        (∃ chunk ∈ track.shelf.chunks, chunk.window.contains 30 = true) ∧
        track.shelf.covering? 30 = none ∧
        nested.property? (.track ⟨⟨0⟩, ⟨1⟩⟩) (.track .sliceCovering) 30 = none := by
  obtain ⟨trace, track, long, short, htrack, hchunks, hlong, hshort⟩ := exists_track_nested
  have hreach : Reachable .standard nested := (reachable_ready.step (.read ..)).step (.read ..)
  obtain ⟨hproperty, -, hfound, -⟩ := covering_lookup 30 hreach htrack
  have hcovers : long.window.contains 30 = true := by
    rw [hlong]
    decide
  -- the short chunk starts after the long one and has ended by then
  have hnone : track.shelf.covering? 30 = none := by
    rw [← Option.not_isSome_iff_eq_none, hfound, hchunks]
    rintro ⟨chunk, hmem, hcontains, hlast⟩
    simp only [List.mem_cons, List.not_mem_nil, or_false] at hmem
    rcases hmem with rfl | rfl
    · have hstart := hlast short (by simp) (by rw [Chunk.start, hshort]; decide)
      rw [Chunk.start, Chunk.start, hlong, hshort] at hstart
      exact absurd hstart (by decide)
    · rw [hshort] at hcontains
      exact absurd hcontains (by decide)
  refine ⟨trace, track, htrack, ⟨long, by simp [hchunks], hcovers⟩, hnone, ?_⟩
  rw [hproperty, hnone]
  rfl

end Example

end Session

end TimelineStore
