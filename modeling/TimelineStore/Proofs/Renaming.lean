import Mathlib.Data.Set.Function
import Mathlib.Order.Interval.Set.Defs
import TimelineStore.Proofs.Reading.Store

/-!
# Renaming the positions of texts

Two tables may hold the same texts at other positions, because they were given them in another
order.  `StringTable.placeIn` leads from the position of a text in one of them to its position
in the other.  What refers to texts by position can be renamed with it: entries, chunks,
tracks, and whole traces.  A renamed trace reads the same and takes as much.

**Results.**
* `StringTable.Alike.bijOn`, `StringTable.Alike.get?_placeIn`: the renaming is a bijection of
  positions that keeps texts.
* `Chunk.MadeOf.renamed`: chunks made of the same rows with two tables are renamings of each
  other.
* `Trace.Alike.track`, `Trace.Alike.footprint_eq`: a renamed trace holds the same.
-/

namespace TimelineStore

namespace StringTable

/-- Where the text at a position stands in another table; a position without a text stays. -/
def placeIn (table other : StringTable) (index : Nat) : Nat :=
  ((table.get? index).bind other.position?).getD index

/-- Two tables that hold the same texts, each of them once. -/
structure Alike (table other : StringTable) : Prop where
  counted : table.Counted
  others : other.Counted
  mem_iff : ∀ text, text ∈ other.entries ↔ text ∈ table.entries

section Places

variable {first second table other : StringTable} {text : String}

/-- The renaming leads from the position that a text was given in one table to the position
that it was given in the other. -/
theorem placeIn_intern
    (htable : (first.intern text).2.Extends table)
    (hother : (second.intern text).2.Extends other) :
    table.placeIn other (first.intern text).1 = (second.intern text).1 := by
  have htext := htable _ _ (first.get?_intern text)
  have hposition := position?_of_extends hother (second.position?_intern text)
  rw [placeIn, htext, Option.bind_some, hposition, Option.getD_some]

namespace Alike

theorem symm
    (halike : table.Alike other) :
    other.Alike table :=
  ⟨halike.others, halike.counted, fun text => (halike.mem_iff text).symm⟩

theorem perm
    (halike : table.Alike other) :
    other.entries.Perm table.entries :=
  (List.perm_ext_iff_of_nodup halike.others.nodup halike.counted.nodup).2 halike.mem_iff

theorem size_eq
    (halike : table.Alike other) :
    other.size = table.size :=
  halike.perm.length_eq

theorem footprint_eq
    (halike : table.Alike other) :
    other.footprint = table.footprint := by
  rw [halike.others.footprint_eq, halike.counted.footprint_eq]
  exact (halike.perm.map _).sum_eq

/-- The renaming keeps texts. -/
theorem get?_placeIn
    (halike : table.Alike other) (index : Nat) :
    other.get? (table.placeIn other index) = table.get? index := by
  unfold placeIn
  cases htext : table.get? index with
  | none =>
      have houtside : table.size ≤ index := List.getElem?_eq_none_iff.1 htext
      rw [Option.bind_none, Option.getD_none]
      exact List.getElem?_eq_none_iff.2 (halike.size_eq.trans_le houtside)
  | some text =>
      have hmem : text ∈ other.entries :=
        (halike.mem_iff text).2 (List.mem_of_getElem? htext)
      cases hposition : other.position? text with
      | none => exact absurd hmem (position?_eq_none_iff.1 hposition)
      | some place =>
          rw [Option.bind_some, hposition, Option.getD_some]
          exact (position?_eq_some_iff.1 hposition).1

/-- Renamed forth and back, a position is what it was. -/
theorem placeIn_placeIn
    (halike : table.Alike other) (index : Nat) :
    other.placeIn table (table.placeIn other index) = index := by
  rw [placeIn, halike.get?_placeIn index]
  cases htext : table.get? index with
  | none => simp [placeIn, htext]
  | some text =>
      rw [Option.bind_some, position?_of_get? halike.counted.nodup htext, Option.getD_some]

theorem placeIn_lt
    (halike : table.Alike other)
    {index : Nat}
    (hinside : index < table.size) :
    table.placeIn other index < other.size := by
  have htext := halike.get?_placeIn index
  rw [get?, get?, List.getElem?_eq_getElem hinside] at htext
  exact (List.getElem?_eq_some_iff.1 htext).1

/-- **The renaming is a bijection** between the positions of the two tables. -/
theorem bijOn
    (halike : table.Alike other) :
    Set.BijOn (table.placeIn other) (Set.Iio table.size) (Set.Iio other.size) := by
  refine ⟨fun _ => halike.placeIn_lt, ?_, fun index hinside => ?_⟩
  · exact (Function.LeftInverse.injective halike.placeIn_placeIn).injOn
  · exact ⟨_, halike.symm.placeIn_lt hinside, halike.symm.placeIn_placeIn index⟩

end Alike

end Places

end StringTable

variable (rename : Nat → Nat)

/-- The entry with its two positions renamed. -/
def Entry.renamed (entry : Entry) : Entry :=
  { entry with typeIndex := rename entry.typeIndex, symbolIndex := rename entry.symbolIndex }

/-- The rows with the positions of their texts renamed; samples have none. -/
def Records.renamed : Records → Records
  | .events entries => .events (entries.map (Entry.renamed rename))
  | .samples entries => .samples entries

def Chunk.renamed (chunk : Chunk) : Chunk :=
  { chunk with records := chunk.records.renamed rename }

/-- The shelf with its chunks renamed, which stand where they stood. -/
def Shelf.renamed (shelf : Shelf) : Shelf where
  chunks := shelf.chunks.map (Chunk.renamed rename)
  ordered := List.pairwise_map.2 shelf.ordered

def Track.renamed (track : Track) : Track :=
  { track with shelf := track.shelf.renamed rename }

/-- The trace with its chunks renamed, which are read through another table. -/
def Trace.renamed (trace : Trace) (strings : StringTable) : Trace :=
  { trace.mapTracks (Track.renamed rename) (fun _ => rfl) with strings }

/-- The levels of the events of a chunk, in their order; samples have none. -/
def Chunk.levels (chunk : Chunk) : List Nat :=
  match chunk.records with
  | .events entries => entries.toList.map (·.level)
  | .samples _ => []

namespace Chunk

section Made

variable {first second table other : StringTable}

theorem store_renamed
    {row : EventRow}
    (htable : (store first row).2.Extends table)
    (hother : (store second row).2.Extends other) :
    (store second row).1 = (store first row).1.renamed (table.placeIn other) := by
  have hsymbol : table.placeIn other ((first.intern row.typeName).2.intern row.symbol).1 =
      ((second.intern row.typeName).2.intern row.symbol).1 :=
    StringTable.placeIn_intern htable hother
  have htype : table.placeIn other (first.intern row.typeName).1 =
      (second.intern row.typeName).1 :=
    StringTable.placeIn_intern ((StringTable.extends_intern _ row.symbol).trans htable)
      ((StringTable.extends_intern _ row.symbol).trans hother)
  simp only [store, Entry.renamed, htype, hsymbol]

theorem storeAll_renamed :
    ∀ {rows : List EventRow} {first second : StringTable},
      (storeAll first rows).2.Extends table → (storeAll second rows).2.Extends other →
        (storeAll second rows).1 =
          (storeAll first rows).1.map (Entry.renamed (table.placeIn other))
  | [], _, _, _, _ => rfl
  | row :: rows, first, second, htable, hother => by
      have hrow := store_renamed ((extends_storeAll rows (store first row).2).trans htable)
        ((extends_storeAll rows (store second row).2).trans hother)
      have hrest : (storeAll (store second row).2 rows).1 =
          (storeAll (store first row).2 rows).1.map (Entry.renamed (table.placeIn other)) :=
        storeAll_renamed htable hother
      simp only [storeAll, List.map_cons, ← hrow, hrest]

/-- Levels do not depend on texts. -/
theorem nest_renamed :
    ∀ (entries : List Entry) (openEnds : List Timestamp),
      nest openEnds (entries.map (Entry.renamed rename)) =
        (nest openEnds entries).map (Entry.renamed rename)
  | [], _ => rfl
  | entry :: entries, openEnds => by
      simp only [List.map_cons, nest]
      exact congrArg _ (nest_renamed entries _)

theorem mergeSort_renamed
    (entries : List Entry) :
    (entries.map (Entry.renamed rename)).mergeSort (fun a b => a.time ≤ b.time) =
      (entries.mergeSort fun a b => a.time ≤ b.time).map (Entry.renamed rename) := by
  rw [List.map_mergeSort]
  intro a _ b _
  rfl

theorem build_renamed
    {track : TrackId} {window : Window} {counter : Bool} {rows : List Row}
    (htable : (build track window counter rows first).2.Extends table)
    (hother : (build track window counter rows second).2.Extends other) :
    (build track window counter rows second).1 =
      (build track window counter rows first).1.renamed (table.placeIn other) := by
  cases counter with
  | true => rfl
  | false =>
      have hstored : (storeAll second (eventRows rows)).1 =
          (storeAll first (eventRows rows)).1.map (Entry.renamed (table.placeIn other)) :=
        storeAll_renamed htable hother
      simp only [build, Bool.false_eq_true, if_false, hstored, mergeSort_renamed, nest_renamed]
      simp [renamed, Records.renamed]

/-- **Chunks made of the same rows are renamings of each other**, whichever tables their texts
were stored in. -/
theorem MadeOf.renamed
    {track : Track} {window : Window} {rows : List Row} {chunk again : Chunk}
    (hmade : chunk.MadeOf table track window rows)
    (hagain : again.MadeOf other track window rows) :
    again = chunk.renamed (table.placeIn other) := by
  obtain ⟨first, rfl, htable⟩ := hmade
  obtain ⟨second, rfl, hother⟩ := hagain
  exact build_renamed htable hother

end Made

variable (chunk : Chunk)

@[simp] theorem window_renamed :
    (chunk.renamed rename).window = chunk.window :=
  rfl

@[simp] theorem levels_renamed :
    (chunk.renamed rename).levels = chunk.levels := by
  unfold levels renamed Records.renamed
  cases chunk.records <;> simp [Entry.renamed]

@[simp] theorem footprint_renamed :
    (chunk.renamed rename).footprint = chunk.footprint := by
  unfold footprint renamed Records.renamed
  cases chunk.records <;> simp [Records.footprint]

variable {rename}

/-- A chunk reads the same if its renaming keeps texts. -/
theorem rows_renamed
    {strings other : StringTable}
    (hkeeps : ∀ index, other.get? (rename index) = strings.get? index) :
    (chunk.renamed rename).rows other = chunk.rows strings := by
  unfold rows renamed Records.renamed
  cases chunk.records with
  | samples entries => rfl
  | events entries => simp [Records.rows, Entry.row?, Entry.renamed, hkeeps]

end Chunk

namespace Track

/-- Putting a chunk on a shelf depends on where chunks start. -/
theorem renamed_acquire
    (track : Track) (chunk : Chunk) :
    (track.acquire chunk).renamed rename =
      (track.renamed rename).acquire (chunk.renamed rename) := by
  have hshelf : (track.shelf.insert chunk).renamed rename =
      (track.shelf.renamed rename).insert (chunk.renamed rename) := by
    simp only [Shelf.renamed, Shelf.insert, Shelf.mk.injEq, List.map_append, List.map_cons,
      List.filter_map]
    rfl
  simp only [renamed, acquire, hshelf]
  rfl

theorem renamed_eq_self
    {rename : Nat → Nat} {track : Track}
    (hkept : ∀ chunk ∈ track.shelf.chunks, chunk.renamed rename = chunk) :
    track.renamed rename = track := by
  have hshelf : track.shelf.renamed rename = track.shelf := by
    have hchunks : track.shelf.chunks.map (Chunk.renamed rename) = track.shelf.chunks :=
      (List.map_congr_left hkept).trans (List.map_id' _)
    simp only [Shelf.renamed, hchunks]
  simp only [renamed, hshelf]

@[simp] theorem lastChunk?_renamed
    (track : Track) :
    (track.renamed rename).lastChunk? = track.lastChunk?.map (Chunk.renamed rename) := by
  cases hlast : track.lastAcquired with
  | none => simp [lastChunk?, renamed, hlast]
  | some start =>
      simp only [lastChunk?, renamed, hlast, Option.bind_some, Shelf.startingAt?, Shelf.renamed,
        List.find?_map]
      rfl

/-- Two tracks that hold the same, each read through the table of its trace. -/
structure Alike (strings others : StringTable) (track other : Track) : Prop where
  id : other.id = track.id
  descriptor : other.descriptor = track.descriptor
  lastAcquired : other.lastAcquired = track.lastAcquired
  windows : other.shelf.chunks.map (·.window) = track.shelf.chunks.map (·.window)
  rows : other.shelf.chunks.map (·.rows others) = track.shelf.chunks.map (·.rows strings)
  levels : other.shelf.chunks.map (·.levels) = track.shelf.chunks.map (·.levels)
  last : other.lastChunk?.map (fun chunk => (chunk.window, chunk.rows others)) =
    track.lastChunk?.map fun chunk => (chunk.window, chunk.rows strings)
  footprint : other.footprint = track.footprint

theorem alike_renamed
    {strings other : StringTable} {rename : Nat → Nat}
    (track : Track)
    (hkeeps : ∀ index, other.get? (rename index) = strings.get? index) :
    track.Alike strings other (track.renamed rename) where
  id := rfl
  descriptor := rfl
  lastAcquired := rfl
  windows := by simp [renamed, Shelf.renamed]
  rows := by
    simp only [renamed, Shelf.renamed, List.map_map]
    exact List.map_congr_left fun chunk _ => chunk.rows_renamed hkeeps
  levels := by simp [renamed, Shelf.renamed]
  last := by simp [Function.comp_def, Chunk.rows_renamed _ hkeeps]
  footprint := by simp [footprint, renamed, Shelf.renamed, Function.comp_def]

end Track

namespace Trace

/-- Two traces that are equal up to the positions that their tables give to texts. -/
structure Alike (trace other : Trace) : Prop where
  strings : trace.strings.Alike other.strings
  eq_renamed : other = trace.renamed (trace.strings.placeIn other.strings) other.strings

/-- A trace is a renaming of another if its tracks are, and the rest is the same. -/
theorem eq_renamed_of_tracks
    {trace other : Trace}
    (hsame : other.id = trace.id ∧ other.isLoaded = trace.isLoaded ∧
      other.window? = trace.window? ∧ other.details = trace.details ∧
      other.boundTo = trace.boundTo)
    (htracks : other.tracks = trace.tracks.map (Track.renamed rename)) :
    other = trace.renamed rename other.strings := by
  obtain ⟨hid, -, hwindow, hdetails, hbound⟩ := hsame
  exact eq_of_parts hid (hwindow.trans (window?_mapTracks _ _ _).symm)
    (htracks.trans (tracks_mapTracks _ _ _).symm) rfl hdetails hbound

namespace Alike

variable {trace other : Trace}

theorem tracks_eq
    (halike : trace.Alike other) :
    other.tracks =
      trace.tracks.map (Track.renamed (trace.strings.placeIn other.strings)) := by
  rw [halike.eq_renamed]
  exact trace.tracks_mapTracks _ _

theorem details_eq
    (halike : trace.Alike other) :
    other.details = trace.details := by
  rw [halike.eq_renamed]
  rfl

/-- Each track holds the same in both traces. -/
theorem track
    (halike : trace.Alike other)
    {id : TrackId} {held : Track}
    (hheld : trace.track? id = some held) :
    ∃ found, other.track? id = some found ∧ held.Alike trace.strings other.strings found := by
  refine ⟨_, ?_, held.alike_renamed halike.strings.get?_placeIn⟩
  rw [track?, halike.tracks_eq, List.getElem?_map]
  exact congrArg _ hheld

/-- Both traces take the same. -/
theorem footprint_eq
    (halike : trace.Alike other) :
    other.footprint = trace.footprint := by
  have htracks : other.tracks.map Track.footprint = trace.tracks.map Track.footprint := by
    rw [halike.tracks_eq, List.map_map]
    exact List.map_congr_left fun track _ =>
      (track.alike_renamed halike.strings.get?_placeIn).footprint
  rw [footprint, footprint, htracks, halike.details_eq, halike.strings.footprint_eq]

end Alike

end Trace

end TimelineStore
