import Mathlib.Data.List.Permutation
import TimelineStore.Proofs.Chunk.Level
import TimelineStore.Proofs.Source.Memory
import TimelineStore.Proofs.Track

/-!
# Levels under any partition

A client cuts a timeline into windows as it likes.  The level of an event and its order
among other events depend on the rows of the track alone, so they are the same in every
chunk whose window holds the start of the event.

**Results.**
* `MemorySource.level_of_event`: the level of an event in a chunk is its depth in the track.
* `MemorySource.levels_agree`: two chunks that hold an event agree on its level, and on the
  order of two events.
-/

namespace TimelineStore

namespace MemorySource

variable
  {source : MemorySource} {index : Nat} {descriptor : Descriptor} {rows : List Row}
  {request : Request} {trace : Trace}

/-- A trace that is loaded from the source is to be read, and the request asks for the track
at a position, and for no track that is not there. -/
structure Asks (source : MemorySource) (index : Nat) (request : Request) (trace : Trace) :
    Prop where
  loaded : trace.LoadedWith source.metadata
  inside : ∀ id ∈ request.tracks, id.index < source.tracks.length
  selected : (⟨index⟩ : TrackId) ∈ request.tracks

/-- The read succeeds, and `chunk` is what it made of the track at a position. -/
structure Makes
    (source : MemorySource) (index : Nat) (mode : ReadMode) (request : Request) (trace : Trace)
    (chunk : Chunk) : Prop where
  succeeds : ∃ totals : ChunkTotals,
    (source.toSource.load mode request trace).result = .ok totals
  acquired : ((source.toSource.load mode request trace).trace.track? ⟨index⟩).bind
    Track.lastChunk? = some chunk
  window : chunk.window = request.window

/-- The texts of the trace after a read. -/
def stringsAfter (source : MemorySource) (mode : ReadMode) (request : Request) (trace : Trace) :
    StringTable :=
  (source.toSource.load mode request trace).trace.strings

/-- Of two events that start in a window, the earlier one stands first. -/
theorem place_lt_place
    {window : Window} {position other : Nat} {event next : EventRow}
    (hevent : rows[position]? = some (.event event))
    (hnext : rows[other]? = some (.event next))
    (heventIn : window.contains event.time = true)
    (hnextIn : window.contains next.time = true)
    (hearlier : Row.Earlier (.event event, position) (.event next, other)) :
    Row.place false window rows position < Row.place false window rows other := by
  have hplace := Row.due_place false window rows hevent (Window.meets_of_contains heventIn)
  have hplaceNext := Row.due_place false window rows hnext (Window.meets_of_contains hnextIn)
  exact (Row.due_order_iff false window rows hplace hplaceNext).2 hearlier

/-- **The level of an event is its depth in the track**: what is open where it starts. -/
theorem level_of_event
    (mode : ReadMode)
    (halone : source.Alone index descriptor rows)
    (hevents : descriptor.category.isCounter = false)
    (hasks : source.Asks index request trace) :
    ∃ chunk : Chunk,
      source.Makes index mode request trace chunk ∧
      ∀ (position : Nat) (event : EventRow),
        rows[position]? = some (.event event) →
          request.window.contains event.time = true →
            ∃ entry : Entry,
              chunk.records.event? (Row.place false request.window rows position) =
                some entry ∧
              entry.row? (source.stringsAfter mode request trace) = some event ∧
              entry.level = min Chunk.deepest (Row.depth rows (.event event, position)) := by
  obtain ⟨totals, hread, -⟩ := exists_load_eq_ok mode hasks.loaded hasks.inside
  have hcount : index < trace.trackCount := by
    rw [trackCount_of_loaded hasks.loaded]
    exact hasks.inside ⟨index⟩ hasks.selected
  obtain ⟨held, hheld⟩ := Trace.track?_of_lt hcount
  obtain ⟨chunk, hacquired, hmade, -⟩ :=
    load_acquires_due mode halone hasks.loaded hread hasks.selected hheld
  refine ⟨chunk, ⟨⟨totals, hread⟩, ?_, hmade.window_eq⟩, ?_⟩
  · rw [hacquired, Option.bind_some, Track.lastChunk?_acquire]
  · intro position event hrow hcontains
    have hdue : (Row.event event).isDue false request.window = true :=
      Window.meets_of_contains hcontains
    have hplace := Row.due_place false request.window rows hrow hdue
    have hstored : (Row.sortByTime ((rows.filter (Row.belongsTo request.window)).filter
        (Row.fits false))) = (Row.due false request.window rows).map Prod.fst := by
      rw [Row.map_fst_due, List.filter_filter]
      rfl
    have hsorted : (Row.sortByTime ((rows.filter (Row.belongsTo request.window)).filter
        (Row.fits false)))[Row.place false request.window rows position]? =
          some (.event event) := by
      rw [hstored, List.getElem?_map, hplace]
      rfl
    obtain ⟨table, hbuilt, hextends⟩ := hmade
    rw [halone.descriptor_eq hasks.loaded hheld, hevents] at hbuilt hextends
    obtain ⟨entry, hentry, hback, hlevel⟩ :=
      Chunk.level_build held.id request.window table hsorted
    rw [hstored] at hlevel
    have hdepth := Row.countP_open_due hplace hcontains
    refine ⟨entry, ?_, Entry.row?_of_extends hextends hback, ?_⟩
    · rw [hbuilt]
      exact hentry
    · rw [hlevel]
      exact congrArg (min Chunk.deepest) hdepth

/-- **Levels and order do not depend on the partition.**  Two reads over any two windows
make chunks that both hold an event whose start is in both windows, at the same level; and
two such events come in the same order in both. -/
theorem levels_agree
    {first second : Request} {firstTrace secondTrace : Trace}
    (firstMode secondMode : ReadMode)
    (halone : source.Alone index descriptor rows)
    (hevents : descriptor.category.isCounter = false)
    (hfirst : source.Asks index first firstTrace)
    (hsecond : source.Asks index second secondTrace) :
    ∃ a b : Chunk,
      source.Makes index firstMode first firstTrace a ∧
      source.Makes index secondMode second secondTrace b ∧
      (∀ (position : Nat) (event : EventRow),
        rows[position]? = some (.event event) →
        first.window.contains event.time = true →
        second.window.contains event.time = true →
          ∃ x y : Entry,
            a.records.event? (Row.place false first.window rows position) = some x ∧
            b.records.event? (Row.place false second.window rows position) = some y ∧
            x.row? (source.stringsAfter firstMode first firstTrace) = some event ∧
            y.row? (source.stringsAfter secondMode second secondTrace) = some event ∧
            x.level = y.level) ∧
      ∀ (position other : Nat) (event next : EventRow),
        rows[position]? = some (.event event) → rows[other]? = some (.event next) →
        (first.window.contains event.time = true ∧ first.window.contains next.time = true) →
        (second.window.contains event.time = true ∧ second.window.contains next.time = true) →
        position ≠ other →
          (Row.place false first.window rows position <
              Row.place false first.window rows other ∧
            Row.place false second.window rows position <
              Row.place false second.window rows other) ∨
          (Row.place false first.window rows other <
              Row.place false first.window rows position ∧
            Row.place false second.window rows other <
              Row.place false second.window rows position) := by
  obtain ⟨a, hmakesA, hlevelA⟩ := level_of_event firstMode halone hevents hfirst
  obtain ⟨b, hmakesB, hlevelB⟩ := level_of_event secondMode halone hevents hsecond
  refine ⟨a, b, hmakesA, hmakesB, ?_, ?_⟩
  · intro position event hrow hinA hinB
    obtain ⟨x, hx, hbackA, hdepthA⟩ := hlevelA position event hrow hinA
    obtain ⟨y, hy, hbackB, hdepthB⟩ := hlevelB position event hrow hinB
    exact ⟨x, y, hx, hy, hbackA, hbackB, hdepthA.trans hdepthB.symm⟩
  · intro position other event next hevent hnext hinA hinB hne
    rcases Row.Earlier.total (a := (.event event, position)) (b := (.event next, other)) hne with
      hearlier | hearlier
    · exact Or.inl ⟨place_lt_place hevent hnext hinA.1 hinA.2 hearlier,
        place_lt_place hevent hnext hinB.1 hinB.2 hearlier⟩
    · exact Or.inr ⟨place_lt_place hnext hevent hinA.2 hinA.1 hearlier,
        place_lt_place hnext hevent hinB.2 hinB.1 hearlier⟩

/-- One call inside another. -/
def calls : List Row :=
  [.event ⟨1, .launch, 10, 20, "call", "f"⟩, .event ⟨2, .launch, 15, 5, "call", "g"⟩]

/-- The calls stand on the only track. -/
def nested : MemorySource :=
  ⟨"nested", none, [(⟨0, .region, "main", "thread 1", []⟩, calls)], .empty⟩

/-- The track over all of its time. -/
def whole : Request :=
  ⟨⟨0, 100⟩, [⟨0⟩], by decide, by decide, by decide⟩

/-- The track from the start of the inner call on. -/
def inner : Request :=
  ⟨⟨15, 18⟩, [⟨0⟩], by decide, by decide, by decide⟩

theorem levels_agree_nested :
    ∃ a b : Chunk,
      nested.Makes 0 .batch whole ((Trace.fresh ⟨0⟩).loadMetadata nested.metadata) a ∧
      nested.Makes 0 .each inner ((Trace.fresh ⟨1⟩).loadMetadata nested.metadata) b ∧
      ∃ x y : Entry,
        a.records.event? 1 = some x ∧ b.records.event? 1 = some y ∧ x.level = y.level := by
  have halone : nested.Alone 0 ⟨0, .region, "main", "thread 1", []⟩ calls := by
    refine ⟨rfl, fun other others hother => ?_⟩
    obtain ⟨hbound, -⟩ := List.getElem?_eq_some_iff.1 hother
    simpa [nested] using hbound
  have hwhole : nested.Asks 0 whole ((Trace.fresh ⟨0⟩).loadMetadata nested.metadata) :=
    ⟨⟨rfl, rfl⟩, by decide, by decide⟩
  have hinner : nested.Asks 0 inner ((Trace.fresh ⟨1⟩).loadMetadata nested.metadata) :=
    ⟨⟨rfl, rfl⟩, by decide, by decide⟩
  obtain ⟨a, b, hmakesA, hmakesB, hlevels, -⟩ :=
    levels_agree .batch .each halone rfl hwhole hinner
  have hplaceA : Row.place false whole.window calls 1 = 1 := by cbv
  have hplaceB : Row.place false inner.window calls 1 = 1 := by cbv
  obtain ⟨x, y, hx, hy, -, -, hlevel⟩ := hlevels 1 _ rfl (by decide) (by decide)
  rw [hplaceA] at hx
  rw [hplaceB] at hy
  exact ⟨a, b, hmakesA, hmakesB, x, y, hx, hy, hlevel⟩

end MemorySource

end TimelineStore
