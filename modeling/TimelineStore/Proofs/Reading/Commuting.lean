import TimelineStore.Proofs.Renaming
import TimelineStore.Proofs.Trace.Decoding

/-!
# Reads of disjoint tracks

Two reads that share no track do not see each other: each is answered as if the other had not
been there, and stores its chunks on its own tracks.  All that depends on their order is where
the table of the trace puts the texts that only they bring, and the traces that the two orders
leave are alike up to that.

**Results.**
* `Source.Answered.of_disjoint`: a read is answered as before another one of other tracks.
* `Source.reads_commute`: the two orders leave traces that are alike.
-/

namespace TimelineStore

namespace Source

theorem strings_storeSets
    (window : Window) :
    ∀ (sets : List (Track × List Row)) (totals : ChunkTotals) (trace : Trace),
      (storeSets window sets totals trace).2.strings =
        trace.strings.internAll (Trace.textsOf sets)
  | [], _, _ => rfl
  | (track, rows) :: sets, _, trace => by
      rw [Trace.textsOf, List.flatMap_cons, StringTable.internAll_append,
        ← trace.strings_materialize track window rows]
      exact strings_storeSets window sets _ _

namespace Answered

variable
  {source : Source} {mode other : ReadMode} {first second : Request} {trace : Trace}
  {tracks others : List Track} {sets later : List (List Row)}

theorem strings_load
    (hanswered : source.Answered mode first trace tracks sets) :
    (source.load mode first trace).trace.strings =
      trace.strings.internAll (Trace.textsOf (tracks.zip sets)) := by
  rw [hanswered.trace_load, strings_storeSets]

/-- **A read is answered as before another one** that shares no track with it. -/
theorem of_disjoint
    (hdisjoint : first.tracks.Disjoint second.tracks)
    (hfirst : source.Answered mode first trace tracks sets)
    (hsecond : source.Answered other second trace others later) :
    source.Answered other second (source.load mode first trace).trace others later := by
  obtain ⟨hresolve, hanswers, hlength⟩ := hsecond
  refine ⟨Trace.resolve_of_track?_eq hfirst.continues.isLoaded (fun id hid => ?_) hresolve,
    hanswers, hlength⟩
  exact hfirst.track?_of_not_mem fun hmem => hdisjoint hmem hid

end Answered

end Source

namespace Trace

/-- A track of two traces acquired a chunk in each of them that was made of the same rows; in
a third trace it has neither. -/
def AcquireAlike (trace forth back : Trace) (id : TrackId) : Prop :=
  ∃ held window rows chunk again, trace.track? id = some held ∧
    forth.track? id = some (held.acquire chunk) ∧
    back.track? id = some (held.acquire again) ∧
    chunk.MadeOf forth.strings held window rows ∧ again.MadeOf back.strings held window rows

variable {trace forth back : Trace}

theorem AcquireAlike.symm
    {id : TrackId}
    (hacquire : trace.AcquireAlike forth back id) :
    trace.AcquireAlike back forth id := by
  obtain ⟨held, window, rows, chunk, again, hheld, hforth, hback, hchunk, hagain⟩ := hacquire
  exact ⟨held, window, rows, again, chunk, hheld, hback, hforth, hagain, hchunk⟩

/-- Two traces that continue one are alike if their tables are, each of their tracks is as it
was or acquired a chunk of the same rows, and what was resident was made of rows. -/
theorem alike_of_tracks
    (hforth : trace.Continues forth)
    (hback : trace.Continues back)
    (hstrings : forth.strings.Alike back.strings)
    (hresident : ∀ track ∈ trace.tracks, ∀ chunk ∈ track.shelf.chunks, ∃ stored window rows,
      chunk.MadeOf trace.strings stored window rows)
    (htracks : ∀ id, trace.AcquireAlike forth back id ∨
      forth.track? id = trace.track? id ∧ back.track? id = trace.track? id) :
    forth.Alike back := by
  -- chunks that were there before keep their positions in both traces
  have hkept {id : TrackId} {held : Track} (hheld : trace.track? id = some held) :
      held.renamed (forth.strings.placeIn back.strings) = held := by
    refine Track.renamed_eq_self fun chunk hchunk => ?_
    obtain ⟨stored, window, rows, hmade⟩ :=
      hresident held (List.mem_of_getElem? hheld) chunk hchunk
    exact ((hmade.of_extends hforth.strings).renamed (hmade.of_extends hback.strings)).symm
  refine ⟨hstrings, eq_renamed_of_tracks _ ⟨hback.id.trans hforth.id.symm,
    hback.isLoaded.trans hforth.isLoaded.symm, hback.window.trans hforth.window.symm,
    hback.details.trans hforth.details.symm, hback.boundTo.trans hforth.boundTo.symm⟩ ?_⟩
  refine List.ext_getElem? fun index => ?_
  have hsame : back.track? ⟨index⟩ =
      (forth.track? ⟨index⟩).map (Track.renamed (forth.strings.placeIn back.strings)) := by
    rcases htracks ⟨index⟩ with
      ⟨held, window, rows, chunk, again, hheld, hone, htwo, hmade, hremade⟩ | ⟨hone, htwo⟩
    · rw [hone, htwo, Option.map_some, Track.renamed_acquire, hkept hheld,
        hmade.renamed hremade]
    · rw [hone, htwo]
      cases hheld : trace.track? ⟨index⟩ with
      | none => rfl
      | some held => rw [Option.map_some, hkept hheld]
  rw [List.getElem?_map]
  exact hsame

end Trace

namespace Source

/-- Reads a request, and then another one. -/
def loadBoth
    (source : Source) (mode other : ReadMode) (first second : Request) (trace : Trace) :
    Reading ChunkTotals :=
  source.load other second (source.load mode first trace).trace

section Orders

variable
  {source : Source} {mode other again another : ReadMode} {first second : Request}
  {trace : Trace} {tracks others : List Track} {sets later : List (List Row)}
  (hdisjoint : first.tracks.Disjoint second.tracks)
  (hfirst : source.Answered mode first trace tracks sets)
  (hsecond : source.Answered other second trace others later)
  (hagain : source.Answered again first trace tracks sets)
  (hanother : source.Answered another second trace others later)

include hdisjoint hfirst hsecond

theorem result_loadBoth :
    (source.loadBoth mode other first second trace).result =
      (source.load other second trace).result := by
  rw [loadBoth, (hfirst.of_disjoint hdisjoint hsecond).result_load, hsecond.result_load]
  exact congrArg Except.ok (totals_storeSets second.window .zero _ _ rfl)

theorem continues_loadBoth :
    trace.Continues (source.loadBoth mode other first second trace).trace :=
  hfirst.continues.trans (hfirst.of_disjoint hdisjoint hsecond).continues

theorem strings_loadBoth :
    (source.loadBoth mode other first second trace).trace.strings =
      trace.strings.internAll
        (Trace.textsOf (tracks.zip sets) ++ Trace.textsOf (others.zip later)) := by
  rw [loadBoth, (hfirst.of_disjoint hdisjoint hsecond).strings_load, hfirst.strings_load,
    StringTable.internAll_append]

theorem track?_loadBoth_of_not_mem
    {id : TrackId}
    (hone : id ∉ first.tracks) (htwo : id ∉ second.tracks) :
    (source.loadBoth mode other first second trace).trace.track? id = trace.track? id :=
  ((hfirst.of_disjoint hdisjoint hsecond).track?_of_not_mem htwo).trans
    (hfirst.track?_of_not_mem hone)

include hagain hanother

/-- A track of the request that one order reads first and the other one last. -/
theorem acquireAlike_loadBoth
    {id : TrackId}
    (hid : id ∈ first.tracks) :
    trace.AcquireAlike (source.loadBoth mode other first second trace).trace
      (source.loadBoth another again second first trace).trace id := by
  have hapart : id ∉ second.tracks := hdisjoint hid
  have hfirstLast := hanother.of_disjoint hdisjoint.symm hagain
  have hsecondLast := hfirst.of_disjoint hdisjoint hsecond
  obtain ⟨place, hplace⟩ := List.mem_iff_getElem?.1 hid
  obtain ⟨rows, held, chunk, hrows, hheld, hacquired, hmade⟩ := hfirst.acquired hplace
  obtain ⟨_, found, rebuilt, hsets, hfound, hreacquired, hremade⟩ :=
    hfirstLast.acquired hplace
  obtain rfl := Option.some.inj (hrows.symm.trans hsets)
  rw [hanother.track?_of_not_mem hapart, hheld] at hfound
  obtain rfl := Option.some.inj hfound
  exact ⟨held, first.window, rows, chunk, rebuilt, hheld,
    (hsecondLast.track?_of_not_mem hapart).trans hacquired, hreacquired,
    hmade.of_extends hsecondLast.continues.strings, hremade⟩

/-- Both orders give the table the same texts. -/
theorem alike_strings_loadBoth
    (hcounted : trace.strings.Counted) :
    (source.loadBoth mode other first second trace).trace.strings.Alike
      (source.loadBoth another again second first trace).trace.strings := by
  rw [strings_loadBoth hdisjoint hfirst hsecond,
    strings_loadBoth hdisjoint.symm hanother hagain]
  refine ⟨hcounted.internAll _, hcounted.internAll _, fun text => ?_⟩
  simp only [StringTable.mem_entries_internAll, List.mem_append]
  rw [or_comm (a := text ∈ Trace.textsOf (others.zip later))]

/-- **Both orders leave traces that are alike**, if what was resident was made of rows. -/
theorem alike_loadBoth
    (hcounted : trace.strings.Counted)
    (hresident : ∀ track ∈ trace.tracks, ∀ chunk ∈ track.shelf.chunks, ∃ stored window rows,
      chunk.MadeOf trace.strings stored window rows) :
    (source.loadBoth mode other first second trace).trace.Alike
      (source.loadBoth another again second first trace).trace := by
  refine Trace.alike_of_tracks (continues_loadBoth hdisjoint hfirst hsecond)
    (continues_loadBoth hdisjoint.symm hanother hagain)
    (alike_strings_loadBoth hdisjoint hfirst hsecond hagain hanother hcounted) hresident
    fun id => ?_
  by_cases hone : id ∈ first.tracks
  · exact .inl (acquireAlike_loadBoth hdisjoint hfirst hsecond hagain hanother hone)
  by_cases htwo : id ∈ second.tracks
  · exact .inl (acquireAlike_loadBoth hdisjoint.symm hanother hagain hsecond hfirst htwo).symm
  exact .inr ⟨track?_loadBoth_of_not_mem hdisjoint hfirst hsecond hone htwo,
    track?_loadBoth_of_not_mem hdisjoint.symm hanother hagain htwo hone⟩

end Orders

/-- **Reads of disjoint tracks commute.**  After any run of acts, two reads that share no track
and succeed, in modes that may differ between the two orders, end in both orders as they end
alone.  The traces that the two orders leave are equal but for the positions of texts, which a
bijection leads from one to the other: each track has the same windows, rows and levels, the
same last chunk and the same footprint, and the same texts are held, at the same charge. -/
theorem reads_commute
    {source : Source} {mode other again another : ReadMode} {first second : Request}
    {id : TraceId} {acts : List Trace.Act} {trace : Trace}
    {totals sums totalsAgain sumsAgain : ChunkTotals}
    (hrun : (Trace.fresh id).Undergoes acts trace)
    (hagrees : source.Agrees)
    (hdisjoint : first.tracks.Disjoint second.tracks)
    (hfirst : (source.load mode first trace).result = .ok totals)
    (hsecond : (source.load other second trace).result = .ok sums)
    (hagain : (source.load again first trace).result = .ok totalsAgain)
    (hanother : (source.load another second trace).result = .ok sumsAgain) :
    let forth := source.loadBoth mode other first second trace
    let back := source.loadBoth another again second first trace
    let place := forth.trace.strings.placeIn back.trace.strings
    forth.result = .ok sums ∧ back.result = .ok totals ∧
    Set.BijOn place (Set.Iio forth.trace.strings.size) (Set.Iio back.trace.strings.size) ∧
    back.trace = forth.trace.renamed place back.trace.strings ∧
    (∀ id track, forth.trace.track? id = some track → ∃ found,
      back.trace.track? id = some found ∧
        track.Alike forth.trace.strings back.trace.strings found) ∧
    (∀ text, text ∈ back.trace.strings.entries ↔ text ∈ forth.trace.strings.entries) ∧
    back.trace.footprint = forth.trace.footprint := by
  intro forth back place
  obtain ⟨tracks, sets, hfirstSets⟩ := exists_answered_of_ok hfirst
  obtain ⟨others, later, hsecondSets⟩ := exists_answered_of_ok hsecond
  -- the answers to a request are the same in its two modes
  have hsame {used : ReadMode} {request : Request} {ends : ChunkTotals}
      {found : List Track} {answer : List (List Row)} {first : ReadMode}
      (hanswered : source.Answered first request trace found answer)
      (hread : (source.load used request trace).result = .ok ends) :
      source.Answered used request trace found answer := by
    obtain ⟨rest, sets, hrest⟩ := exists_answered_of_ok hread
    obtain rfl := Except.ok.inj (hanswered.resolves.symm.trans hrest.resolves)
    rwa [← hanswered.eq_sets (.inr hagrees) hrest rfl]
  have hagainSets := hsame hfirstSets hagain
  have hanotherSets := hsame hsecondSets hanother
  have hcounted : trace.strings.Counted :=
    hrun.strings_eq ▸ StringTable.counted_empty.internAll _
  have halike : forth.trace.Alike back.trace := by
    refine alike_loadBoth hdisjoint hfirstSets hsecondSets hagainSets hanotherSets hcounted
      fun track htrack chunk hchunk => ?_
    obtain ⟨stored, window, rows, -, hmade⟩ := hrun.exists_store htrack hchunk
    exact ⟨stored, window, rows, hmade⟩
  refine ⟨?_, ?_, halike.strings.bijOn, halike.eq_renamed, fun id track => halike.track,
    halike.strings.mem_iff, halike.footprint_eq⟩
  · exact (result_loadBoth hdisjoint hfirstSets hsecondSets).trans hsecond
  · rw [← hfirst, hfirstSets.result_load, ← hagainSets.result_load]
    exact result_loadBoth hdisjoint.symm hanotherSets hagainSets

section Example

open Session (capture)

/-- The thread of the capture is read and its queue, in one order and in the other: both name
the function `f`, which has one position in either table. -/
theorem reads_commute_capture :
    let loaded := (capture.toSource.loadMetadata (Trace.fresh ⟨0⟩)).trace
    let thread : Request := ⟨⟨12, 20⟩, [⟨0⟩], by decide, by decide, by decide⟩
    let queue : Request := ⟨⟨12, 20⟩, [⟨1⟩], by decide, by decide, by decide⟩
    let forth := capture.toSource.loadBoth .batch .each thread queue loaded
    let back := capture.toSource.loadBoth .batch .each queue thread loaded
    forth.trace.strings.entries = ["call", "f", "g", "kernel"] ∧
      back.trace.strings.entries = ["kernel", "f", "call", "g"] ∧
      back.trace.footprint = forth.trace.footprint := by
  intro loaded thread queue forth back
  obtain ⟨acts, hrun, -⟩ := Trace.undergoes_loadMetadata capture.toSource (Trace.fresh ⟨0⟩)
  have hthread (mode : ReadMode) : capture.toSource.Answered mode thread loaded
      (loaded.tracks.take 1) ((capture.tracks.take 1).map Prod.snd) := by
    cases mode <;> exact ⟨rfl, rfl, rfl⟩
  have hqueue (mode : ReadMode) : capture.toSource.Answered mode queue loaded
      (loaded.tracks.drop 1) ((capture.tracks.drop 1).map Prod.snd) := by
    cases mode <;> exact ⟨rfl, rfl, rfl⟩
  have hdisjoint : thread.tracks.Disjoint queue.tracks := by simp [thread, queue]
  have hagrees : capture.toSource.Agrees := fun _ _ _ hbatch _ => hbatch
  obtain ⟨-, -, -, -, -, -, hfootprint⟩ := reads_commute hrun hagrees hdisjoint
    (hthread .batch).result_load (hqueue .each).result_load
    (hthread .each).result_load (hqueue .batch).result_load
  refine ⟨?_, ?_, hfootprint⟩
  · rw [strings_loadBoth hdisjoint (hthread _) (hqueue _)]
    cbv
  · rw [strings_loadBoth hdisjoint.symm (hqueue _) (hthread _)]
    cbv

end Example

end Source

end TimelineStore
