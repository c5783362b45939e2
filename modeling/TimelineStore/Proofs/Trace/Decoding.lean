import TimelineStore.Property.Lookup
import TimelineStore.Proofs.Reading.Answers
import TimelineStore.Proofs.Session.ReadPaths
import TimelineStore.Proofs.Trace.Accounting

/-!
# Reading the texts of stored rows back

All chunks of a trace share one table of texts, and their rows refer to it by position.  A
chunk comes from one act, in which rows were stored; whatever the trace undergoes afterwards,
the table keeps the texts that it had then, so each stored row reads back as the raw row that
it was built from.

The positions themselves are settled as well: a request that is read again from the same
source gives the chunks that it gave before, whether or not these are still resident.

**Results.**
* `Chunk.event?_build`: a stored row reads back as the raw row that it was built from.
* `Trace.Undergoes.exists_store`: where a resident chunk comes from.
* `Trace.rebuilds`: reading a request again gives the same chunks.
* `Trace.rows_read_back`: resident rows read back as what was read, after any run of acts.
-/

namespace TimelineStore

namespace Chunk

/-- The event rows that a track stores of raw rows, in order of their starts; rows of one
start keep their order.  A counter stores none. -/
def eventsInOrder (counter : Bool) (rows : List Row) : List EventRow :=
  if counter then [] else (eventRows rows).mergeSort fun a b => a.time ≤ b.time

/-- The event rows of a chunk read back as some raw rows, in their order, through a table and
by the properties of a slice. -/
structure ReadsBack (strings : StringTable) (rows : List EventRow) (chunk : Chunk) : Prop where
  entry : ∀ index,
    (chunk.records.event? index).map (Entry.row? strings) = rows[index]?.map some
  typeName : ∀ index : UInt64, chunk.property? strings .typeNameAt index =
    rows[index.toNat]?.map fun row => .text row.typeName
  symbol : ∀ index : UInt64, chunk.property? strings .symbolAt index =
    rows[index.toNat]?.map fun row => .text row.symbol

section ReadsBack

variable {strings larger : StringTable} {chunk : Chunk} {rows : List EventRow} {index : Nat}

/-- A stored row that reads back goes on to do so. -/
theorem event?_of_extends
    (hextends : strings.Extends larger)
    (hentry : (chunk.records.event? index).map (Entry.row? strings) = rows[index]?.map some) :
    (chunk.records.event? index).map (Entry.row? larger) = rows[index]?.map some := by
  cases hstored : chunk.records.event? index with
  | none => rwa [hstored] at hentry
  | some entry =>
      cases hrow : rows[index]? with
      | none => simp [hstored, hrow] at hentry
      | some row =>
          simp only [hstored, hrow, Option.map_some, Option.some.injEq] at hentry ⊢
          exact Entry.row?_of_extends hextends hentry

/-- The texts of the row at a position are those at the positions that the entry has. -/
theorem readsBack_of_entry
    (hentry : ∀ index,
      (chunk.records.event? index).map (Entry.row? strings) = rows[index]?.map some) :
    chunk.ReadsBack strings rows := by
  refine ⟨hentry, fun index => ?_, fun index => ?_⟩
  all_goals
    have hread := hentry index.toNat
    simp only [property?]
    cases hstored : chunk.records.event? index.toNat with
    | none =>
        rw [hstored, Option.map_none, eq_comm, Option.map_eq_none_iff] at hread
        rw [hread]
        rfl
    | some entry =>
        cases hrow : rows[index.toNat]? with
        | none => simp [hstored, hrow] at hread
        | some row =>
            simp only [hstored, hrow, Option.map_some, Option.some.injEq] at hread
            obtain ⟨htype, hsymbol, -⟩ := Entry.row?_eq_some_iff.1 hread
            simp [htype, hsymbol]

variable
  (track : TrackId) (window : Window) (counter : Bool)
  (raw : List Row) (table : StringTable)

/-- **A stored row reads back as the raw row that it was built from**, with the table as it is
when the chunk has been built. -/
theorem event?_build
    (index : Nat) :
    ((build track window counter raw table).1.records.event? index).map
        (Entry.row? (build track window counter raw table).2) =
      (eventsInOrder counter raw)[index]?.map some := by
  cases counter with
  | true => rfl
  | false =>
      have hstored := map_row?_mergeSort (map_row?_storeAll (eventRows raw) table)
      have hnested := map_row?_nest (storeAll table (eventRows raw)).2
        ((storeAll table (eventRows raw)).1.mergeSort fun a b => a.time ≤ b.time) []
      have hrows := congrArg (·[index]?) (hnested.trans hstored)
      simp only [List.getElem?_map] at hrows
      rw [records_build_events]
      simpa [Records.event?, eventsInOrder, build] using hrows

end ReadsBack

theorem MadeOf.readsBack
    {strings : StringTable} {track : Track} {window : Window} {rows : List Row} {chunk : Chunk}
    (hmade : chunk.MadeOf strings track window rows) :
    chunk.ReadsBack strings (eventsInOrder track.descriptor.category.isCounter rows) := by
  obtain ⟨table, rfl, htable⟩ := hmade
  exact readsBack_of_entry fun index => event?_of_extends htable (event?_build ..)

/-- Two chunks that were made of the same rows of a track, and refer to the same table, are the
same chunk. -/
theorem MadeOf.unique
    {strings : StringTable} {track other : Track} {window : Window} {rows : List Row}
    {chunk again : Chunk}
    (hmade : chunk.MadeOf strings track window rows)
    (hagain : again.MadeOf strings other window rows)
    (hid : other.id = track.id) (hdescriptor : other.descriptor = track.descriptor) :
    again = chunk := by
  rw [hmade.eq_build, hagain.eq_build, hid, hdescriptor]

end Chunk

namespace Trace

section Origins

variable {id : TraceId} {trace after : Trace} {acts : List Act}

theorem Undergoes.extends
    (hundergoes : trace.Undergoes acts after) :
    trace.strings.Extends after.strings := by
  rw [hundergoes.strings_eq]
  exact trace.strings.extends_internAll _

/-- A chunk that is resident on a track comes from an act of a run, in which rows of the track
were stored. -/
structure Origin
    (id : TraceId) (acts : List Act) (track : Track) (chunk : Chunk)
    (stored : Track) (window : Window) (rows : List Row) : Prop where
  act : ∃ earlier before later, acts = earlier ++ .store stored window rows :: later ∧
    (fresh id).Undergoes earlier before ∧ chunk = (before.materialize stored window rows).1
  id : stored.id = track.id
  descriptor : stored.descriptor = track.descriptor

theorem Origin.later
    {track held : Track} {chunk : Chunk} {stored : Track} {window : Window} {rows : List Row}
    (horigin : Origin id acts held chunk stored window rows)
    (hid : held.id = track.id) (hdescriptor : held.descriptor = track.descriptor)
    (act : Act) :
    Origin id (acts ++ [act]) track chunk stored window rows := by
  obtain ⟨earlier, before, later, rfl, hbefore, hchunk⟩ := horigin.act
  refine ⟨⟨earlier, before, later ++ [act], ?_, hbefore, hchunk⟩, horigin.id.trans hid,
    horigin.descriptor.trans hdescriptor⟩
  rw [List.append_assoc, List.cons_append]

/-- **Where a resident chunk comes from**: it was made of rows of its track in some act, and
the table still has the texts that it had then. -/
theorem Undergoes.exists_store
    {track : Track} {chunk : Chunk}
    (hrun : (fresh id).Undergoes acts trace)
    (htrack : track ∈ trace.tracks)
    (hchunk : chunk ∈ track.shelf.chunks) :
    ∃ stored window rows, Origin id acts track chunk stored window rows ∧
      chunk.MadeOf trace.strings stored window rows := by
  induction hrun generalizing track with
  | refl => exact nomatch htrack
  | @snoc acts middle act hbefore hadmits ih =>
      have hextends : middle.strings.Extends (middle.perform act).strings :=
        (Undergoes.single hadmits).extends
      rcases resident_perform htrack hchunk with
        ⟨held, hheld, hid, hdescriptor, hresident⟩ | ⟨stored, window, rows, rfl, hid, rfl⟩
      · obtain ⟨stored, window, rows, horigin, hmade⟩ := ih hheld hresident
        exact ⟨stored, window, rows, horigin.later hid hdescriptor act,
          hmade.of_extends hextends⟩
      · refine ⟨stored, window, rows, ⟨⟨acts, middle, [], rfl, hbefore, rfl⟩, hid, ?_⟩,
          middle.madeOf_materialize stored window rows⟩
        exact (hadmits.descriptor_eq htrack hid).symm

/-- The number of texts of a trace is that of the distinct texts that were stored. -/
theorem Undergoes.size_strings
    (hrun : (fresh id).Undergoes acts trace) :
    trace.strings.size = (acts.flatMap Act.texts).toFinset.card := by
  have hcounted := StringTable.counted_empty.internAll (acts.flatMap Act.texts)
  have hstrings : trace.strings = StringTable.empty.internAll (acts.flatMap Act.texts) :=
    hrun.strings_eq
  have hsame : trace.strings.entries.toFinset = (acts.flatMap Act.texts).toFinset := by
    ext text
    simp [hstrings, StringTable.mem_entries_internAll, StringTable.empty]
  rw [← hsame, List.toFinset_card_of_nodup (hstrings ▸ hcounted.nodup)]
  rfl

end Origins

/-- **Reading a request again gives the same chunks**, positions of texts included, whatever
the trace underwent since the first read: in the same mode the read succeeds again, and so it
is in another mode if it succeeds and the answers of the source agree. -/
theorem rebuilds
    {source : Source} {mode again : ReadMode} {request : Request} {trace kept : Trace}
    {totals : ChunkTotals} {acts : List Act}
    (hread : (source.load mode request trace).result = .ok totals)
    (hmeanwhile : (source.load mode request trace).trace.Undergoes acts kept)
    (hmode : again = mode ∨
      source.Agrees ∧ ∃ other, (source.load again request kept).result = .ok other) :
    (source.load again request kept).result = .ok totals ∧
      ∀ id ∈ request.tracks, ∃ chunk, chunk.window = request.window ∧
        ((source.load mode request trace).trace.track? id).bind Track.lastChunk? = some chunk ∧
        ((source.load again request kept).trace.track? id).bind Track.lastChunk? =
          some chunk := by
  obtain ⟨tracks, sets, hfirst⟩ := Source.exists_answered_of_ok hread
  have hload : trace.Undergoes _ (source.load mode request trace).trace :=
    Course.load_calm source mode request trace ▸ undergoes_load _ mode request trace
  obtain ⟨others, hresolve, hsame⟩ := (hload.trans hmeanwhile).resolve hfirst.resolves
  have hagain : source.Answered again request kept others sets := by
    rcases hmode with rfl | ⟨hagrees, other, hother⟩
    · exact hfirst.of_descriptors hresolve hsame
    · obtain ⟨found, later, hlater⟩ := Source.exists_answered_of_ok hother
      obtain rfl := Except.ok.inj (hresolve.symm.trans hlater.resolves)
      rwa [← hfirst.eq_sets (.inr hagrees) hlater hsame]
  refine ⟨?_, fun id hid => ?_⟩
  · rw [hagain.result_load, ← hread, hfirst.result_load]
    refine congrArg Except.ok (Source.totals_storeSets request.window .zero kept trace ?_)
    rw [Course.described_zip, Course.described_zip, hsame]
  · obtain ⟨place, hplace⟩ := List.mem_iff_getElem?.1 hid
    obtain ⟨rows, held, chunk, hrows, hheld, hacquired, hmade⟩ := hfirst.acquired hplace
    obtain ⟨_, found, rebuilt, hsets, hfound, hreacquired, hremade⟩ := hagain.acquired hplace
    obtain rfl := Option.some.inj (hrows.symm.trans hsets)
    -- the track is still the one that it was, and the table has only grown
    have hdescriptor : found.descriptor = held.descriptor := by
      obtain ⟨now, hnow, hkept⟩ := (hload.trans hmeanwhile).has (has_of_track? hheld)
      rw [id_of_track? hheld, hfound] at hnow
      rw [Option.some.inj hnow, hkept]
    have hid : found.id = held.id := (id_of_track? hfound).trans (id_of_track? hheld).symm
    have hstill := hmade.of_extends (hmeanwhile.extends.trans hagain.continues.strings)
    refine ⟨chunk, hmade.window_eq, ?_, ?_⟩
    · rw [hacquired, Option.bind_some, Track.lastChunk?_acquire]
    · rw [hreacquired, Option.bind_some, Track.lastChunk?_acquire,
        hstill.unique hremade hid hdescriptor]

/-- **Resident rows read back as what was read**, after any run of acts on a trace.  A chunk
that is resident comes from an act that stored rows of its track, and each of its event rows
has the texts of the raw row that it was built from, as the table of the trace and as the
properties of the slice tell them.  As long as fewer than 2³² distinct texts have been stored,
positions fit into 32 bits.  A read of any course, whether it fails or not, comes down to such
acts, and one that succeeded gives the same chunks when it is done again. -/
theorem rows_read_back
    {id : TraceId} {acts : List Act} {trace : Trace}
    (hrun : (fresh id).Undergoes acts trace) :
    (∀ track ∈ trace.tracks, ∀ chunk ∈ track.shelf.chunks, ∃ stored window rows,
      Origin id acts track chunk stored window rows ∧
        chunk.ReadsBack trace.strings
          (Chunk.eventsInOrder track.descriptor.category.isCounter rows) ∧
        ((acts.flatMap Act.texts).toFinset.card < UInt32.size →
          ∀ index entry, chunk.records.event? index = some entry →
            entry.typeIndex < UInt32.size ∧ entry.symbolIndex < UInt32.size)) ∧
    (∀ (course : Course) (mode : ReadMode) (request : Request),
      trace.Undergoes (storing request.window (course.sets mode request trace))
        (course.load mode request trace).trace) ∧
    ∀ (source : Source) (mode again : ReadMode) (request : Request) (totals : ChunkTotals)
      (later : List Act) (kept : Trace),
      (source.load mode request trace).result = .ok totals →
        (source.load mode request trace).trace.Undergoes later kept →
          (again = mode ∨
            source.Agrees ∧ ∃ other, (source.load again request kept).result = .ok other) →
            (source.load again request kept).result = .ok totals ∧
              ∀ id ∈ request.tracks, ∃ chunk, chunk.window = request.window ∧
                ((source.load mode request trace).trace.track? id).bind Track.lastChunk? =
                  some chunk ∧
                ((source.load again request kept).trace.track? id).bind Track.lastChunk? =
                  some chunk := by
  refine ⟨fun track htrack chunk hchunk => ?_, fun course mode request => ?_, ?_⟩
  · obtain ⟨stored, window, rows, horigin, hmade⟩ := hrun.exists_store htrack hchunk
    have hreads := hmade.readsBack
    rw [horigin.descriptor] at hreads
    refine ⟨stored, window, rows, horigin, hreads, fun hfew index entry hentry => ?_⟩
    have hread := hreads.entry index
    rw [hentry] at hread
    cases hrow : (Chunk.eventsInOrder track.descriptor.category.isCounter rows)[index]? with
    | none => simp [hrow] at hread
    | some row =>
        simp only [hrow, Option.map_some, Option.some.injEq] at hread
        obtain ⟨htype, hsymbol, -⟩ := Entry.row?_eq_some_iff.1 hread
        rw [← hrun.size_strings] at hfew
        exact ⟨Nat.lt_trans (List.getElem?_eq_some_iff.1 htype).1 hfew,
          Nat.lt_trans (List.getElem?_eq_some_iff.1 hsymbol).1 hfew⟩
  · exact undergoes_load course mode request trace
  · intro source mode again request totals later kept hread hmeanwhile hmode
    exact rebuilds hread hmeanwhile hmode

section Example

open Session (capture both)

/-- The capture is read, and what was read is given up. -/
theorem rows_read_back_capture :
    let loaded := (capture.toSource.loadMetadata (fresh ⟨0⟩)).trace
    let read := (capture.toSource.load .batch both loaded).trace
    (read.tracks.map fun track => track.shelf.chunks.map (·.size)) = [[2], [1]] ∧
    (∀ track ∈ read.tracks, ∀ chunk ∈ track.shelf.chunks, ∃ rows, chunk.ReadsBack read.strings
      (Chunk.eventsInOrder track.descriptor.category.isCounter rows)) ∧
    ∀ id ∈ both.tracks,
      ((capture.toSource.load .each both read.evictAll).trace.track? id).bind Track.lastChunk? =
        (read.track? id).bind Track.lastChunk? := by
  intro loaded read
  have hresolve : loaded.resolve both.tracks = .ok loaded.tracks.reverse := rfl
  have hsets : Source.oneByOne capture.toSource.readTrack
      (loaded.tracks.reverse.map (·.descriptor)) both.window =
        .ok (capture.tracks.reverse.map Prod.snd) := rfl
  obtain ⟨hresult, htrace⟩ := Source.load_of_readTracks .batch rfl hresolve hsets
  obtain ⟨acts, hloaded, -⟩ := undergoes_loadMetadata capture.toSource (fresh ⟨0⟩)
  have hread : loaded.Undergoes _ read :=
    Course.load_calm capture.toSource .batch both loaded ▸ undergoes_load _ .batch both loaded
  have hevict : read.Undergoes [.evictAll] read.evictAll := .single trivial
  refine ⟨?_, fun track htrack chunk hchunk => ?_, fun id hid => ?_⟩
  · rw [show read = _ from htrace]
    cbv
  · obtain ⟨hresident, -⟩ := rows_read_back (hloaded.trans hread)
    obtain ⟨-, -, rows, -, hreads, -⟩ := hresident track htrack chunk hchunk
    exact ⟨rows, hreads⟩
  · have hagrees : capture.toSource.Agrees := fun _ _ _ hbatch _ => hbatch
    obtain ⟨kept, hkept, hsame⟩ := (hread.trans hevict).resolve hresolve
    have hagain := (Source.load_of_readTracks .each rfl hkept (hsame ▸ hsets)).1
    obtain ⟨-, -, hrebuilds⟩ := rows_read_back hloaded
    obtain ⟨-, hchunks⟩ := hrebuilds capture.toSource .batch .each both _ [.evictAll]
      read.evictAll hresult hevict (.inr ⟨hagrees, _, hagain⟩)
    obtain ⟨chunk, -, hbefore, hafter⟩ := hchunks id hid
    exact hafter.trans hbefore.symm

end Example

end Trace

end TimelineStore
