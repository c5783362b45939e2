import Mathlib.Algebra.BigOperators.Group.Finset.Basic
import TimelineStore.Proofs.StringTable
import TimelineStore.Proofs.Trace.Regular
import TimelineStore.Source.Memory

/-!
# What a trace takes

A trace is charged for the chunks and the detail that are resident, and for every text that
was ever stored of an event row, once for each distinct text.  Chunks and detail that are
given up are charged no more; texts are charged for good, whether or not a chunk still
refers to them, and also if a read failed after it had stored them.

**Results.**
* `Trace.Undergoes.strings_eq`: the texts of a trace are those of the rows stored in it.
* `Trace.accounting`: what a trace takes after any run of calls.
-/

namespace TimelineStore

/-- The texts of the event rows that are stored of a track, type name first; rows of a counter
have none. -/
def Descriptor.texts (descriptor : Descriptor) (rows : List Row) : List String :=
  if descriptor.category.isCounter then []
  else (Chunk.eventRows rows).flatMap fun row => [row.typeName, row.symbol]

theorem Chunk.strings_storeAll :
    ∀ (rows : List EventRow) (table : StringTable),
      (storeAll table rows).2 = table.internAll (rows.flatMap fun row => [row.typeName, row.symbol])
  | [], _ => rfl
  | row :: rows, table => by
      rw [List.flatMap_cons, StringTable.internAll_append, storeAll]
      exact strings_storeAll rows _

namespace Trace

section Strings

variable {trace after : Trace} {acts : List Act}

theorem strings_materialize
    (trace : Trace) (track : Track) (window : Window) (rows : List Row) :
    (trace.materialize track window rows).2.strings =
      trace.strings.internAll (track.descriptor.texts rows) := by
  unfold materialize Descriptor.texts
  cases track.descriptor.category.isCounter with
  | true => rfl
  | false => exact Chunk.strings_storeAll (Chunk.eventRows rows) trace.strings

def Act.texts : Act → List String
  | .store track _ rows => track.descriptor.texts rows
  | _ => []

theorem strings_perform
    (trace : Trace) (act : Act) :
    (trace.perform act).strings = trace.strings.internAll act.texts := by
  cases act with
  | load metadata => cases hlayout : trace.layout <;> simp [perform, loadMetadata, hlayout] <;> rfl
  | store track window rows => exact trace.strings_materialize track window rows
  | _ => rfl

/-- The texts of a trace are those of the rows stored in it. -/
theorem Undergoes.strings_eq
    (hundergoes : trace.Undergoes acts after) :
    after.strings = trace.strings.internAll (acts.flatMap Act.texts) := by
  induction hundergoes with
  | refl => rfl
  | snoc _ _ ih =>
      rw [strings_perform, ih, List.flatMap_append, StringTable.internAll_append,
        List.flatMap_singleton]

theorem Undergoes.mem_strings
    {text : String}
    (hundergoes : trace.Undergoes acts after)
    (hmem : text ∈ trace.strings.entries) :
    text ∈ after.strings.entries := by
  rw [hundergoes.strings_eq, StringTable.mem_entries_internAll]
  exact .inl hmem

end Strings

section Footprint

variable {trace : Trace}

/-- What is resident is charged by the row, and the texts by the table. -/
theorem Regular.footprint_eq
    (hregular : trace.Regular) :
    trace.footprint =
      (trace.tracks.map fun track => (track.shelf.chunks.map fun chunk =>
        56 + chunk.size * (if track.descriptor.category.isCounter then 16 else 48)).sum).sum +
      (trace.details.values.map Detail.footprint).sum + trace.strings.footprint := by
  have htrack : ∀ track ∈ trace.tracks, track.footprint =
      (track.shelf.chunks.map fun chunk =>
        56 + chunk.size * (if track.descriptor.category.isCounter then 16 else 48)).sum := by
    intro track hmem
    rw [Track.footprint, ← List.sum_eq_foldl]
    exact congrArg List.sum (List.map_congr_left fun chunk hchunk =>
      (hregular track hmem chunk hchunk).footprint_eq)
  rw [footprint, ← List.sum_eq_foldl, ← List.sum_eq_foldl, List.map_congr_left htrack]

/-- Each distinct text that was interned is charged once. -/
theorem footprint_internAll
    (texts : List String) :
    (StringTable.empty.internAll texts).footprint =
      ∑ text ∈ texts.toFinset, (text.utf8ByteSize + 32) := by
  have hcounted := StringTable.counted_empty.internAll texts
  have hsame : (StringTable.empty.internAll texts).entries.toFinset = texts.toFinset := by
    ext text
    simp [StringTable.mem_entries_internAll, StringTable.empty]
  rw [hcounted.footprint_eq, ← hsame, List.sum_toFinset _ hcounted.nodup]
  rfl

/-- Without chunks and detail, texts are all that is charged. -/
theorem footprint_evicted
    (trace : Trace) :
    (DetailKind.all.foldl evictDetails trace.evictAll).footprint = trace.strings.footprint := by
  have htracks : (DetailKind.all.foldl evictDetails trace.evictAll).tracks =
      trace.tracks.map Track.evictAll := trace.tracks_mapTracks _ _
  have hchunks : ((trace.tracks.map Track.evictAll).map Track.footprint).sum = 0 := by
    refine List.sum_eq_zero fun bytes hbytes => ?_
    obtain ⟨track, htrack, rfl⟩ := List.mem_map.1 hbytes
    obtain ⟨held, -, rfl⟩ := List.mem_map.1 htrack
    rfl
  have hdetails : (DetailKind.all.foldl evictDetails trace.evictAll).details.values = [] := by
    refine List.map_eq_nil_iff.2 (List.eq_nil_iff_forall_not_mem.2 fun entry hentry => ?_)
    have hkept := List.mem_filter.1 hentry
    have hearlier := List.mem_filter.1 hkept.1
    have hfirst := List.mem_filter.1 hearlier.1
    obtain ⟨⟨kind, event⟩, detail⟩ := entry
    -- an entry of each kind falls to the eviction of its kind
    cases kind with
    | flow => simpa using hfirst.2
    | stack => simpa using hearlier.2
    | attributes => simpa using hkept.2
  rw [footprint, htracks, hdetails, ← List.sum_eq_foldl, hchunks]
  exact Nat.zero_add _

end Footprint

/-- An operation on a trace. -/
inductive Call where
  | loadMetadata (source : Source)
  | load (course : Course) (mode : ReadMode) (request : Request)
  | loadDetail (source : Source) (kind : DetailKind) (event : EventId)
  | evictAt (start : Timestamp)
  | evictWindow (window : Window)
  | evictAll
  | evictDetail (kind : DetailKind) (event : EventId)
  | evictDetails (kind : DetailKind)

/-- The trace after a call, whether the call succeeds or fails. -/
def after (trace : Trace) : Call → Trace
  | .loadMetadata source => (source.loadMetadata trace).trace
  | .load course mode request => (course.load mode request trace).trace
  | .loadDetail source kind event => (source.loadDetail kind event trace).trace
  | .evictAt start => trace.evictAt start
  | .evictWindow window => trace.evictWindow window
  | .evictAll => trace.evictAll
  | .evictDetail kind event => trace.evictDetail kind event
  | .evictDetails kind => trace.evictDetails kind

/-- The rows that a call stores, each set with its track. -/
def stores (trace : Trace) : Call → List (Track × List Row)
  | .load course mode request => course.sets mode request trace
  | _ => []

/-- The trace after a run of calls. -/
def afterAll (trace : Trace) : List Call → Trace
  | [] => trace
  | call :: calls => (trace.after call).afterAll calls

/-- The rows that a run of calls stores. -/
def storesAll (trace : Trace) : List Call → List (Track × List Row)
  | [] => []
  | call :: calls => trace.stores call ++ (trace.after call).storesAll calls

/-- The texts of row sets, each with its track. -/
def textsOf (sets : List (Track × List Row)) : List String :=
  sets.flatMap fun set => set.1.descriptor.texts set.2

section Runs

theorem texts_storing
    (window : Window) (sets : List (Track × List Row)) :
    (storing window sets).flatMap Act.texts = textsOf sets := by
  rw [storing, List.flatMap_map]
  rfl

/-- Row sets with the same descriptors and rows have the same texts. -/
theorem textsOf_congr
    {sets others : List (Track × List Row)}
    (hsame : sets.map Course.described = others.map Course.described) :
    textsOf sets = textsOf others := by
  have htexts (sets : List (Track × List Row)) :
      textsOf sets = (sets.map Course.described).flatMap fun set => set.1.texts set.2 := by
    rw [List.flatMap_map]
    rfl
  rw [htexts, htexts, hsame]

/-- The acts that a call comes to store the texts of its rows. -/
theorem undergoes_after
    (trace : Trace) (call : Call) :
    ∃ acts, trace.Undergoes acts (trace.after call) ∧
      acts.flatMap Act.texts = textsOf (trace.stores call) := by
  have hquiet (act : Act) (hadmits : trace.Admits act) (htexts : act.texts = []) :
      ∃ acts, trace.Undergoes acts (trace.perform act) ∧ acts.flatMap Act.texts = [] :=
    ⟨[act], .single hadmits, by simp [htexts]⟩
  cases call with
  | loadMetadata source =>
      obtain ⟨acts, hundergoes, hacts⟩ := undergoes_loadMetadata source trace
      refine ⟨acts, hundergoes, List.flatMap_eq_nil_iff.2 fun act hact => ?_⟩
      obtain ⟨metadata, -, rfl⟩ := hacts act hact
      rfl
  | load course mode request =>
      exact ⟨_, undergoes_load course mode request trace, texts_storing _ _⟩
  | loadDetail source kind event =>
      obtain ⟨acts, hundergoes, hacts⟩ := undergoes_loadDetail source kind event trace
      refine ⟨acts, hundergoes, List.flatMap_eq_nil_iff.2 fun act hact => ?_⟩
      obtain ⟨raw, rfl⟩ := hacts act hact
      rfl
  | evictAt start => exact hquiet (.evictAt start) trivial rfl
  | evictWindow window => exact hquiet (.evictWindow window) trivial rfl
  | evictAll => exact hquiet .evictAll trivial rfl
  | evictDetail kind event => exact hquiet (.evictDetail kind event) trivial rfl
  | evictDetails kind => exact hquiet (.evictDetails kind) trivial rfl

theorem undergoes_afterAll :
    ∀ (calls : List Call) (trace : Trace), ∃ acts, trace.Undergoes acts (trace.afterAll calls) ∧
      acts.flatMap Act.texts = textsOf (trace.storesAll calls)
  | [], _ => ⟨[], .refl, rfl⟩
  | call :: calls, trace => by
      obtain ⟨acts, hundergoes, htexts⟩ := trace.undergoes_after call
      obtain ⟨later, hlater, hlaterTexts⟩ := undergoes_afterAll calls (trace.after call)
      refine ⟨acts ++ later, hundergoes.trans hlater, ?_⟩
      rw [List.flatMap_append, htexts, hlaterTexts, storesAll, textsOf, textsOf, textsOf,
        List.flatMap_append]

/-- Reading a request again that was read before adds no text, whatever happened to the trace
meanwhile. -/
theorem strings_reread
    {source : Source} {mode again : ReadMode} {request : Request} {trace kept : Trace}
    {totals : ChunkTotals} {acts : List Act}
    (hread : (source.load mode request trace).result = .ok totals)
    (hmode : again = mode ∨ source.Agrees)
    (hmeanwhile : (source.load mode request trace).trace.Undergoes acts kept) :
    (source.load again request kept).trace.strings = kept.strings := by
  have hload (mode : ReadMode) (trace : Trace) : trace.Undergoes
      (storing request.window ((Course.calm source).sets mode request trace))
      (source.load mode request trace).trace := by
    rw [← Course.load_calm source mode request trace]
    exact undergoes_load _ mode request trace
  obtain ⟨found, hresolve⟩ : ∃ found, trace.resolve request.tracks = .ok found := by
    cases hresolve : trace.resolve request.tracks with
    | ok found => exact ⟨found, rfl⟩
    | error failure =>
        cases mode <;>
          simp [Source.load, Source.loadBatch, Source.loadEach, hresolve, Reading.failed] at hread
  obtain ⟨others, hkept, hsame⟩ := ((hload mode trace).trans hmeanwhile).resolve hresolve
  have hmodes : (Course.calm source).sets again request trace ⊆
      (Course.calm source).sets mode request trace := by
    rcases hmode with rfl | hagrees
    · exact List.Subset.refl _
    · exact Course.sets_subset_of_ok again hagrees hread
  have htexts : textsOf ((Course.calm source).sets again request kept) =
      textsOf ((Course.calm source).sets again request trace) :=
    textsOf_congr ((Course.calm source).described_sets hresolve hkept hsame)
  -- the first read stored all these texts, and no act takes texts away
  rw [(hload again kept).strings_eq, texts_storing, htexts]
  refine StringTable.internAll_of_subset fun text htext => hmeanwhile.mem_strings ?_
  rw [(hload mode trace).strings_eq, texts_storing, StringTable.mem_entries_internAll]
  obtain ⟨set, hset, hmem⟩ := List.mem_flatMap.1 htext
  exact .inr (List.mem_flatMap.2 ⟨set, hmodes hset, hmem⟩)

/-- **What a trace takes after any run of calls**: 56 bytes for each resident chunk, with 48
for each event row or 16 for each row of a counter, what resident detail takes, and for each
distinct text of the event rows that were ever stored its bytes and 32 more.  If all chunks
and all detail are given up, the part of the texts is what remains.  Reading again what was
read from the same source adds no text, in the same mode, or in another one if the answers of
the source agree. -/
theorem accounting
    (id : TraceId) (calls : List Call) :
    let trace := (fresh id).afterAll calls
    let texts := textsOf ((fresh id).storesAll calls)
    trace.footprint =
        (trace.tracks.map fun track => (track.shelf.chunks.map fun chunk =>
          56 + chunk.size * (if track.descriptor.category.isCounter then 16 else 48)).sum).sum +
        (trace.details.values.map Detail.footprint).sum +
        ∑ text ∈ texts.toFinset, (text.utf8ByteSize + 32) ∧
    (DetailKind.all.foldl evictDetails trace.evictAll).footprint =
        ∑ text ∈ texts.toFinset, (text.utf8ByteSize + 32) ∧
    ∀ (source : Source) (mode again : ReadMode) (request : Request) (totals : ChunkTotals)
      (later : List Call),
      (source.load mode request trace).result = .ok totals →
        (again = mode ∨ source.Agrees) →
          let kept := (source.load mode request trace).trace.afterAll later
          (source.load again request kept).trace.strings = kept.strings := by
  intro trace texts
  obtain ⟨acts, hundergoes, htexts⟩ := undergoes_afterAll calls (fresh id)
  have hstrings : trace.strings.footprint = ∑ text ∈ texts.toFinset, (text.utf8ByteSize + 32) := by
    rw [hundergoes.strings_eq, htexts]
    exact footprint_internAll texts
  refine ⟨?_, ?_, ?_⟩
  · rw [← hstrings]
    exact (hundergoes.regular (regular_fresh id)).footprint_eq
  · rw [← hstrings]
    exact trace.footprint_evicted
  · intro source mode again request totals later hread hmode
    obtain ⟨between, hmeanwhile, -⟩ :=
      undergoes_afterAll later (source.load mode request trace).trace
    exact strings_reread hread hmode hmeanwhile

end Runs

section Example

/-- A thread with one call of the function `f`, and a counter with one sample. -/
def oneCall : MemorySource where
  name := "one call"
  window := some ⟨10, 40⟩
  tracks :=
    [(⟨0, .region, "main", "thread 1", []⟩, [.event ⟨1, .launch, 10, 20, "call", "f"⟩]),
    (⟨0, .counter, "main", "power", []⟩, [.sample 12 0])]
  details := .empty

def wholeCall : Request :=
  ⟨⟨10, 30⟩, [⟨0⟩, ⟨1⟩], by decide, by decide, by decide⟩

/-- Both tracks are read. -/
def readCall : List Call :=
  [.loadMetadata oneCall.toSource, .load (.calm oneCall.toSource) .batch wholeCall]

/-- The two texts of the call remain when its chunk is given up, and are not stored again. -/
theorem accounting_oneCall :
    let trace := (fresh ⟨0⟩).afterAll readCall
    (DetailKind.all.foldl evictDetails trace.evictAll).footprint = 69 ∧
      (oneCall.toSource.load .each wholeCall trace.evictAll).trace.strings =
        trace.evictAll.strings := by
  intro trace
  let loaded := (fresh ⟨0⟩).afterAll [.loadMetadata oneCall.toSource]
  have hresolve : loaded.resolve wholeCall.tracks = .ok loaded.tracks := rfl
  have hsets : Source.oneByOne oneCall.toSource.readTrack
      (loaded.tracks.map (·.descriptor)) wholeCall.window =
        .ok (oneCall.tracks.map Prod.snd) := rfl
  have hread := (Source.load_of_readTracks .batch rfl hresolve hsets).1
  have hagrees : oneCall.toSource.Agrees := fun _ _ _ hbatch _ => hbatch
  constructor
  · obtain ⟨-, hevicted, -⟩ := accounting ⟨0⟩ readCall
    exact hevicted.trans rfl
  · obtain ⟨-, -, hreread⟩ := accounting ⟨0⟩ [.loadMetadata oneCall.toSource]
    exact hreread oneCall.toSource .batch .each wholeCall _ [.evictAll] hread (.inr hagrees)

end Example

end Trace

end TimelineStore
