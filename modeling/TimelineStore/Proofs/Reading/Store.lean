import TimelineStore.Proofs.Chunk.Contents
import TimelineStore.Proofs.Trace
import TimelineStore.Reading

/-!
# Storing row sets

A read in either mode comes down to `Source.storeSets`: one chunk per requested track,
put on its shelf in place of one with the same start.

**Results.**
* `Source.continues_storeSets`: what a read never changes.
* `Source.track?_storeSets_of_not_mem`: other tracks stay as they are.
* `Source.track?_storeSets_of_mem`: a requested track acquires the chunk made of its rows.
-/

namespace TimelineStore

/-- `chunk` was made of rows of a track, and its texts stand in `strings`. -/
def Chunk.MadeOf
    (strings : StringTable) (track : Track) (window : Window) (rows : List Row)
    (chunk : Chunk) : Prop :=
  ∃ table : StringTable,
    chunk = (Chunk.build track.id window track.descriptor.category.isCounter rows table).1 ∧
      (Chunk.build track.id window track.descriptor.category.isCounter rows table).2.Extends
        strings

section MadeOf

variable
  {strings larger : StringTable} {track : Track} {window : Window} {rows : List Row}
  {chunk : Chunk}

theorem Chunk.MadeOf.window_eq
    (hmade : chunk.MadeOf strings track window rows) :
    chunk.window = window := by
  obtain ⟨table, rfl, -⟩ := hmade
  exact Chunk.window_build ..

theorem Chunk.MadeOf.of_extends
    (hmade : chunk.MadeOf strings track window rows)
    (hextends : strings.Extends larger) :
    chunk.MadeOf larger track window rows := by
  obtain ⟨table, hchunk, htable⟩ := hmade
  exact ⟨table, hchunk, htable.trans hextends⟩

/-- A chunk reads back as the rows of its layout that it was made of, by start. -/
theorem Chunk.MadeOf.rows_eq
    (hmade : chunk.MadeOf strings track window rows) :
    chunk.rows strings =
      (Row.sortByTime
        (rows.filter (Row.fits track.descriptor.category.isCounter))).map some := by
  obtain ⟨table, rfl, htable⟩ := hmade
  exact Chunk.rows_of_extends htable (Chunk.rows_build ..)

/-- A chunk that was made of rows is what the present table makes of them. -/
theorem Chunk.MadeOf.eq_build
    (hmade : chunk.MadeOf strings track window rows) :
    chunk = (Chunk.build track.id window track.descriptor.category.isCounter rows strings).1 := by
  obtain ⟨table, rfl, htable⟩ := hmade
  rw [Chunk.build_of_extends htable]

end MadeOf

/-- A track is read as the source answers for it. -/
theorem Source.loadTrack_eq
    (source : Source) (window : Window) (track : Track) (trace : Trace) :
    source.loadTrack window track trace =
      (source.readTrack track.descriptor window).map (trace.materialize track window) := by
  unfold Source.loadTrack
  cases source.readTrack track.descriptor window <;> rfl

/-- What reading rows never changes about a trace: it stays the same session with the same
metadata and detail, and no text loses its place. -/
structure Trace.Continues (before after : Trace) : Prop where
  id : after.id = before.id
  isLoaded : after.isLoaded = before.isLoaded
  window : after.window? = before.window?
  descriptors : after.tracks.map (·.descriptor) = before.tracks.map (·.descriptor)
  details : after.details = before.details
  boundTo : after.boundTo = before.boundTo
  strings : before.strings.Extends after.strings

namespace Trace.Continues

variable {before middle after : Trace}

theorem refl
    (trace : Trace) :
    trace.Continues trace :=
  ⟨rfl, rfl, rfl, rfl, rfl, rfl, .refl _⟩

theorem trans
    (hfirst : before.Continues middle)
    (hsecond : middle.Continues after) :
    before.Continues after where
  id := hsecond.id.trans hfirst.id
  isLoaded := hsecond.isLoaded.trans hfirst.isLoaded
  window := hsecond.window.trans hfirst.window
  descriptors := hsecond.descriptors.trans hfirst.descriptors
  details := hsecond.details.trans hfirst.details
  boundTo := hsecond.boundTo.trans hfirst.boundTo
  strings := hfirst.strings.trans hsecond.strings

theorem trackCount
    (hcontinues : before.Continues after) :
    after.trackCount = before.trackCount := by
  have hlength := congrArg List.length hcontinues.descriptors
  simpa [Trace.trackCount] using hlength

theorem loadedWith
    {metadata : Metadata}
    (hcontinues : before.Continues after)
    (hloaded : before.LoadedWith metadata) :
    after.LoadedWith metadata :=
  ⟨hcontinues.window.trans hloaded.1, hcontinues.descriptors.trans hloaded.2⟩

end Trace.Continues

theorem Trace.continues_materialize
    (trace : Trace) (track : Track) (window : Window) (rows : List Row) :
    trace.Continues (trace.materialize track window rows).2 where
  id := rfl
  isLoaded := trace.isLoaded_materialize track window rows
  window := trace.window?_materialize track window rows
  descriptors := trace.descriptors_materialize track window rows
  details := rfl
  boundTo := rfl
  strings :=
    Chunk.extends_build track.id window track.descriptor.category.isCounter rows trace.strings

theorem Trace.madeOf_materialize
    (trace : Trace) (track : Track) (window : Window) (rows : List Row) :
    (trace.materialize track window rows).1.MadeOf
      (trace.materialize track window rows).2.strings track window rows :=
  ⟨trace.strings, rfl, .refl _⟩

namespace Source

variable (window : Window)

theorem continues_storeSets :
    ∀ (items : List (Track × List Row)) (totals : ChunkTotals) (trace : Trace),
      trace.Continues (storeSets window items totals trace).2
  | [], _, trace => .refl trace
  | (track, rows) :: items, _, trace =>
      (trace.continues_materialize track window rows).trans (continues_storeSets items _ _)

/-- Every row set becomes one chunk. -/
theorem chunks_storeSets :
    ∀ (items : List (Track × List Row)) (totals : ChunkTotals) (trace : Trace),
      (storeSets window items totals trace).1.chunks = totals.chunks + items.length
  | [], _, _ => rfl
  | (track, rows) :: items, totals, trace => by
      have hrest := chunks_storeSets items
        (totals.add (trace.materialize track window rows).1)
        (trace.materialize track window rows).2
      have hone : (totals.add (trace.materialize track window rows).1).chunks =
          totals.chunks + 1 := rfl
      simp only [storeSets, List.length_cons]
      omega

/-- Tracks of which no rows are stored stay as they are. -/
theorem track?_storeSets_of_not_mem
    {id : TrackId} :
    ∀ (items : List (Track × List Row)) (totals : ChunkTotals) (trace : Trace),
      id ∉ items.map (·.1.id) →
        (storeSets window items totals trace).2.track? id = trace.track? id
  | [], _, _, _ => rfl
  | (track, rows) :: items, totals, trace, hid => by
      rw [List.map_cons, List.mem_cons, not_or] at hid
      have hrest := track?_storeSets_of_not_mem items
        (totals.add (trace.materialize track window rows).1)
        (trace.materialize track window rows).2 hid.2
      exact hrest.trans (trace.track?_materialize_of_ne track window rows hid.1)

/-- A track of which rows are stored acquires the chunk that is made of them. -/
theorem track?_storeSets_of_mem
    {track held : Track} {rows : List Row} :
    ∀ (items : List (Track × List Row)) (totals : ChunkTotals) (trace : Trace),
      (items.map (·.1.id)).Nodup → (track, rows) ∈ items →
        trace.track? track.id = some held →
          ∃ chunk : Chunk,
            (storeSets window items totals trace).2.track? track.id =
              some (held.acquire chunk) ∧
            chunk.MadeOf (storeSets window items totals trace).2.strings track window rows
  | (other, otherRows) :: items, totals, trace, hnodup, hmem, hheld => by
      rw [List.map_cons, List.nodup_cons] at hnodup
      obtain ⟨hfresh, hnodup⟩ := hnodup
      rcases List.mem_cons.1 hmem with heq | hmem
      · obtain ⟨rfl, rfl⟩ := Prod.mk.inj heq
        have hkept := track?_storeSets_of_not_mem window items
          (totals.add (trace.materialize track window rows).1)
          (trace.materialize track window rows).2 hfresh
        have hcontinues := continues_storeSets window items
          (totals.add (trace.materialize track window rows).1)
          (trace.materialize track window rows).2
        refine ⟨(trace.materialize track window rows).1, ?_, ?_⟩
        · exact hkept.trans (trace.track?_materialize_self track window rows hheld)
        · exact (trace.madeOf_materialize track window rows).of_extends hcontinues.strings
      · have hne : track.id ≠ other.id := by
          intro heq
          rw [← heq] at hfresh
          exact hfresh (List.mem_map_of_mem (f := fun item : Track × List Row => item.1.id) hmem)
        have hstill : (trace.materialize other window otherRows).2.track? track.id = some held := by
          rw [trace.track?_materialize_of_ne other window otherRows hne]
          exact hheld
        exact track?_storeSets_of_mem items _ _ hnodup hmem hstill

end Source

end TimelineStore
