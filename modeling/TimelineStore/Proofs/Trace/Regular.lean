import TimelineStore.Proofs.Chunk.Level
import TimelineStore.Proofs.Trace.Acts

/-!
# Regular chunks

A chunk is regular if it covers some time, has the layout of its track, and has its rows in
order of their times.  Chunks are built regular, so whatever a trace undergoes, all chunks
that are resident in it are regular.

**Results.**
* `Chunk.regular_build`: chunks are built regular.
* `Chunk.exists_firstTime?_le`, `Chunk.exists_le_lastTime?`: no row is earlier than the first or
  later than the last.
* `Trace.Undergoes.regular`: resident chunks are regular.
-/

namespace TimelineStore

namespace Chunk

/-- The times of the rows, in order. -/
def times (chunk : Chunk) : List Timestamp :=
  match chunk.records with
  | .events entries => entries.toList.map (·.time)
  | .samples entries => entries.toList.map (·.time)

section Times

variable (chunk : Chunk)

@[simp] theorem length_times : chunk.times.length = chunk.size := by
  unfold times size Records.size
  cases chunk.records <;> simp

theorem timeAt?_eq
    (index : Nat) :
    chunk.timeAt? index = chunk.times[index]? := by
  unfold timeAt? times Records.timeAt?
  cases chunk.records <;> simp

theorem firstTime?_eq : chunk.firstTime? = chunk.times.head? := by
  rw [firstTime?, timeAt?_eq, List.head?_eq_getElem?]

theorem lastTime?_eq : chunk.lastTime? = chunk.times.getLast? := by
  rw [lastTime?, timeAt?_eq, List.getLast?_eq_getElem?, length_times]
  split
  · rename_i hempty
    have hnone : chunk.times = [] := List.length_eq_zero_iff.1 (chunk.length_times.trans hempty)
    rw [hnone]
    rfl
  · rfl

end Times

/-- The rows are those of a counter, or events. -/
def HasLayout (counter : Bool) (chunk : Chunk) : Prop :=
  match chunk.records with
  | .events _ => counter = false
  | .samples _ => counter = true

/-- The chunk covers some time, and has rows of one layout in order of their times. -/
structure Regular (counter : Bool) (chunk : Chunk) : Prop where
  covers : chunk.window.isEmpty = false
  layout : chunk.HasLayout counter
  sorted : chunk.times.Pairwise (· ≤ ·)

/-- Rows take the room that the layout of their track says. -/
theorem Regular.footprint_eq
    {counter : Bool} {chunk : Chunk}
    (hregular : chunk.Regular counter) :
    chunk.footprint = 56 + chunk.size * (if counter then 16 else 48) := by
  have hlayout := hregular.layout
  unfold HasLayout at hlayout
  unfold footprint Records.footprint size Records.size
  cases hrecords : chunk.records with
  | events entries =>
      simp only [hrecords] at hlayout
      simp [hlayout, overhead, Records.entryBytes]
  | samples entries =>
      simp only [hrecords] at hlayout
      simp [hlayout, overhead, Records.sampleBytes]

section Ends

variable {chunk : Chunk} {time : Timestamp}

/-- No row is earlier than the first, if rows are in order of their times. -/
theorem exists_firstTime?_le
    (hsorted : chunk.times.Pairwise (· ≤ ·))
    (htime : time ∈ chunk.times) :
    ∃ first, chunk.firstTime? = some first ∧ first ≤ time := by
  rw [firstTime?_eq]
  cases htimes : chunk.times with
  | nil => simp [htimes] at htime
  | cons first later =>
      rw [htimes] at htime hsorted
      refine ⟨first, rfl, ?_⟩
      rcases List.mem_cons.1 htime with rfl | hlater
      · exact UInt64.le_refl _
      · exact List.rel_of_pairwise_cons hsorted hlater

/-- No row is later than the last, if rows are in order of their times. -/
theorem exists_le_lastTime?
    (hsorted : chunk.times.Pairwise (· ≤ ·))
    (htime : time ∈ chunk.times) :
    ∃ last, chunk.lastTime? = some last ∧ time ≤ last := by
  rw [lastTime?_eq]
  rcases List.eq_nil_or_concat chunk.times with hnone | ⟨earlier, last, htimes⟩
  · simp [hnone] at htime
  · rw [htimes, List.concat_eq_append] at htime hsorted ⊢
    refine ⟨last, List.getLast?_concat, ?_⟩
    rcases List.mem_append.1 htime with hearlier | hlast
    · exact (List.pairwise_append.1 hsorted).2.2 time hearlier last List.mem_cons_self
    · exact UInt64.le_of_eq (List.mem_singleton.1 hlast)

end Ends

theorem map_time_nest :
    ∀ (openEnds : List Timestamp) (entries : List Entry),
      (nest openEnds entries).map (·.time) = entries.map (·.time)
  | _, [] => rfl
  | _, entry :: entries => by
      simp only [nest, List.map_cons, map_time_nest]

theorem hasLayout_build
    (track : TrackId) (window : Window) (counter : Bool) (rows : List Row) (table : StringTable) :
    (build track window counter rows table).1.HasLayout counter := by
  cases counter <;> rfl

/-- Chunks are built with their rows in order of their times. -/
theorem pairwise_times_build
    (track : TrackId) (window : Window) (counter : Bool) (rows : List Row) (table : StringTable) :
    (build track window counter rows table).1.times.Pairwise (· ≤ ·) := by
  cases counter with
  | true =>
      have hsorted := (sortsStably_mergeSort Sample.time (sampleRows rows)).ordered
      simpa [times, build, List.pairwise_map] using hsorted
  | false =>
      have hsorted :=
        (sortsStably_mergeSort Entry.time (storeAll table (eventRows rows)).1).ordered
      simp only [times, records_build_events, map_time_nest]
      exact List.pairwise_map.2 hsorted

/-- Chunks are built regular. -/
theorem regular_build
    {window : Window}
    (track : TrackId) (counter : Bool) (rows : List Row) (table : StringTable)
    (hcovers : window.isEmpty = false) :
    (build track window counter rows table).1.Regular counter :=
  ⟨by rwa [window_build], hasLayout_build .., pairwise_times_build ..⟩

end Chunk

namespace Trace

/-- All resident chunks have the layouts of their tracks, and are regular. -/
def Regular (trace : Trace) : Prop :=
  ∀ track ∈ trace.tracks, ∀ chunk ∈ track.shelf.chunks,
    chunk.Regular track.descriptor.category.isCounter

section Regular

variable {trace after : Trace} {acts : List Act} {act : Act}

theorem regular_fresh
    (id : TraceId) :
    (fresh id).Regular :=
  fun _ htrack => nomatch htrack

theorem Regular.perform
    (hregular : trace.Regular)
    (hadmits : trace.Admits act) :
    (trace.perform act).Regular := by
  intro track htrack chunk hchunk
  rcases resident_perform htrack hchunk with
    ⟨held, hheld, -, hdescriptor, hbefore⟩ | ⟨stored, window, rows, rfl, hid, rfl⟩
  · rw [← hdescriptor]
    exact hregular held hheld chunk hbefore
  · -- a stored chunk has the layout of the track that it was built for, and no act changes that
    rw [hadmits.descriptor_eq htrack hid]
    exact Chunk.regular_build stored.id _ rows trace.strings hadmits.2

theorem Undergoes.regular
    (hundergoes : trace.Undergoes acts after)
    (hregular : trace.Regular) :
    after.Regular := by
  induction hundergoes with
  | refl => exact hregular
  | snoc _ hadmits ih => exact ih.perform hadmits

end Regular

end Trace

end TimelineStore
