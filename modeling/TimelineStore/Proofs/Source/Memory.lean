import Mathlib.Data.Nat.Find
import TimelineStore.Proofs.Reading.Modes
import TimelineStore.Proofs.Record
import TimelineStore.Source.Memory

/-!
# Reads of a source in memory

A source in memory answers for the first track that has the descriptor it is asked for.
A track whose descriptor no other track has is `Alone`: it is answered for with its own
rows, and a chunk of it holds exactly the rows that are due.

**Results.**
* `MemorySource.First.readTrack_eq`: what a source answers for a descriptor.
* `MemorySource.exists_load_eq_ok`: every read of known tracks succeeds.
* `MemorySource.load_acquires_due`: the chunk that a read makes of a track that is alone.
-/

namespace TimelineStore

namespace MemorySource

variable
  {source : MemorySource} {index : Nat} {descriptor : Descriptor} {rows : List Row}

/-- Of the tracks with this descriptor, the first stands at the place and has these rows. -/
structure First
    (tracks : List (Descriptor × List Row)) (descriptor : Descriptor) (place : Nat)
    (rows : List Row) : Prop where
  found : tracks[place]? = some (descriptor, rows)
  first : ∀ earlier < place, ∀ others, tracks[earlier]? ≠ some (descriptor, others)

section First

variable {tracks : List (Descriptor × List Row)}

/-- Some track is the first of those with a descriptor that is there. -/
theorem exists_first
    (htrack : tracks[index]? = some (descriptor, rows)) :
    ∃ place own, place ≤ index ∧ First tracks descriptor place own := by
  classical
  have hthere : ∃ place, ∃ own, tracks[place]? = some (descriptor, own) := ⟨index, rows, htrack⟩
  obtain ⟨own, hown⟩ := Nat.find_spec hthere
  refine ⟨Nat.find hthere, own, Nat.find_min' hthere ⟨rows, htrack⟩, hown, ?_⟩
  exact fun earlier hearlier others hothers => Nat.find_min hthere hearlier ⟨others, hothers⟩

theorem First.find?_eq
    (hfirst : First tracks descriptor index rows) :
    tracks.find? (·.1 = descriptor) = some (descriptor, rows) := by
  obtain ⟨hinside, hat⟩ := List.getElem?_eq_some_iff.1 hfirst.found
  refine List.find?_eq_some_iff_getElem.2 ⟨by simp, index, hinside, hat, fun earlier hless => ?_⟩
  have hother := hfirst.first earlier hless tracks[earlier].2
  have hthere := List.getElem?_eq_getElem (hless.trans hinside)
  simp only [Bool.not_eq_true', decide_eq_false_iff_not]
  exact fun hsame => hother (hthere.trans (congrArg some (Prod.ext hsame rfl)))

/-- A source answers for a descriptor with the rows of the first track that has it. -/
theorem First.readTrack_eq
    (hfirst : First source.tracks descriptor index rows)
    (window : Window) :
    source.readTrack descriptor window = .ok (rows.filter (Row.belongsTo window)) := by
  rw [readTrack, rowsOf?, hfirst.find?_eq]
  rfl

end First

/-- The track at a position has this descriptor and these rows, and no other track has the
descriptor. -/
structure Alone
    (source : MemorySource) (index : Nat) (descriptor : Descriptor) (rows : List Row) :
    Prop where
  found : source.tracks[index]? = some (descriptor, rows)
  unique : ∀ (other : Nat) (others : List Row),
    source.tracks[other]? = some (descriptor, others) → other = index

/-- Where descriptors are distinct, every track is alone. -/
theorem alone_of_nodup
    (hdistinct : (source.tracks.map Prod.fst).Nodup)
    (htrack : source.tracks[index]? = some (descriptor, rows)) :
    source.Alone index descriptor rows := by
  refine ⟨htrack, fun other others hother => ?_⟩
  have hinside : other < (source.tracks.map Prod.fst).length := by
    rw [List.length_map]
    exact (List.getElem?_eq_some_iff.1 hother).1
  refine (List.getElem?_inj hinside hdistinct).1 ?_
  rw [List.getElem?_map, List.getElem?_map, hother, htrack]
  rfl

/-- A track that is alone is the first of its descriptor. -/
theorem Alone.first
    (halone : source.Alone index descriptor rows) :
    First source.tracks descriptor index rows where
  found := halone.found
  first earlier hearlier others hothers :=
    Nat.ne_of_lt hearlier (halone.unique earlier others hothers)

/-- The rows of every track that the metadata names can be read. -/
theorem exists_readTrack
    (hmem : descriptor ∈ source.metadata.tracks)
    (window : Window) :
    ∃ rows, source.readTrack descriptor window = .ok rows := by
  obtain ⟨track, htrack, rfl⟩ := List.mem_map.1 hmem
  obtain ⟨index, hindex⟩ := List.mem_iff_getElem?.1 htrack
  obtain ⟨place, rows, -, hfirst⟩ := exists_first hindex
  exact ⟨_, hfirst.readTrack_eq window⟩

section Load

variable {request : Request} {trace : Trace} {held : Track}

theorem Alone.descriptor_eq
    (halone : source.Alone index descriptor rows)
    (hloaded : trace.LoadedWith source.metadata)
    (hheld : trace.track? ⟨index⟩ = some held) :
    held.descriptor = descriptor := by
  have hnamed := hloaded.descriptor hheld
  have hown : source.metadata.tracks[index]? = some descriptor := by
    rw [metadata, List.getElem?_map, halone.found]
    rfl
  exact Option.some.inj (hnamed.symm.trans hown)

theorem trackCount_of_loaded
    (hloaded : trace.LoadedWith source.metadata) :
    trace.trackCount = source.tracks.length := by
  rw [hloaded.trackCount, metadata, List.length_map]

/-- **Every read of known tracks succeeds**, with one chunk for each. -/
theorem exists_load_eq_ok
    (mode : ReadMode)
    (hloaded : trace.LoadedWith source.metadata)
    (hinside : ∀ id ∈ request.tracks, id.index < source.tracks.length) :
    ∃ totals : ChunkTotals,
      (source.toSource.load mode request trace).result = .ok totals ∧
        totals.chunks = request.tracks.length := by
  refine Source.exists_load_eq_ok mode rfl hloaded.isLoaded ?_ ?_
  · intro id hid
    rw [trackCount_of_loaded hloaded]
    exact hinside id hid
  · intro track htrack
    refine exists_readTrack ?_ request.window
    rw [← hloaded.2]
    exact List.mem_map_of_mem htrack

/-- **A chunk of a track that is alone holds exactly the rows that are due.** -/
theorem load_acquires_due
    {totals : ChunkTotals}
    (mode : ReadMode)
    (halone : source.Alone index descriptor rows)
    (hloaded : trace.LoadedWith source.metadata)
    (hread : (source.toSource.load mode request trace).result = .ok totals)
    (hid : (⟨index⟩ : TrackId) ∈ request.tracks)
    (hheld : trace.track? ⟨index⟩ = some held) :
    ∃ chunk : Chunk,
      (source.toSource.load mode request trace).trace.track? ⟨index⟩ =
        some (held.acquire chunk) ∧
      chunk.MadeOf (source.toSource.load mode request trace).trace.strings held request.window
        (rows.filter (Row.belongsTo request.window)) ∧
      chunk.rows (source.toSource.load mode request trace).trace.strings =
        (Row.due descriptor.category.isCounter request.window rows).map fun placed =>
          some placed.1 := by
  obtain ⟨answer, chunk, hanswer, hacquired, hmade⟩ :=
    Source.acquires_load_of_ok mode rfl hread hid hheld
  have hdescriptor := halone.descriptor_eq hloaded hheld
  have hrows : source.readTrack held.descriptor request.window = .ok answer := hanswer
  rw [hdescriptor, halone.first.readTrack_eq, Except.ok.injEq] at hrows
  subst hrows
  refine ⟨chunk, hacquired, hmade, ?_⟩
  have hselected : (rows.filter (Row.belongsTo request.window)).filter
      (Row.fits descriptor.category.isCounter) =
        rows.filter (Row.isDue descriptor.category.isCounter request.window) := by
    rw [List.filter_filter]
    rfl
  rw [hmade.rows_eq, hdescriptor, hselected, ← Row.map_fst_due, List.map_map]
  rfl

end Load

end MemorySource

end TimelineStore
