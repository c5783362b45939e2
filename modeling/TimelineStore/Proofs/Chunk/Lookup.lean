import TimelineStore.Proofs.Trace.Regular

/-!
# Rows by time

The first row that does not start before a time is looked up by halving, and the earliest and the
latest start are read off the two ends of a chunk.  Both are right because a chunk is made with
its rows in order of start: what goes through the rows one by one finds the same.

**Results.**
* `Search.firstFrom_spec`: halving finds where a condition begins to hold.
* `Chunk.indexAt?_eq_findIdx?`: the lookup finds what a scan of the rows finds.
* `Chunk.lookup_scans`: lookups and ends of a chunk that is made of some rows.
-/

namespace TimelineStore

namespace Search

/-- A condition that goes on to hold once it holds begins to hold where halving says. -/
theorem firstFrom_spec
    {reached : Nat → Bool} {low high : Nat}
    (hstays : ∀ earlier later, earlier ≤ later → later < high →
      reached earlier = true → reached later = true)
    (hordered : low ≤ high) :
    (∀ index, low ≤ index → index < firstFrom reached low high → reached index = false) ∧
      ∀ index, firstFrom reached low high ≤ index → index < high → reached index = true := by
  fun_induction firstFrom reached low high with
  | case1 low high less middle found ih =>
      -- what follows the middle holds, as it holds in the middle
      obtain ⟨hbefore, hafter⟩ := ih
        (fun earlier later hle hlater => hstays earlier later hle (by omega)) (by omega)
      refine ⟨hbefore, fun index hindex hhigh => ?_⟩
      by_cases hmiddle : index < middle
      · exact hafter index hindex hmiddle
      · exact hstays middle index (by omega) hhigh found
  | case2 low high less middle missed ih =>
      -- what precedes the middle fails, or it would hold in the middle
      obtain ⟨hbefore, hafter⟩ := ih hstays (by omega)
      refine ⟨fun index hlow hindex => ?_, hafter⟩
      by_cases hmiddle : middle < index
      · exact hbefore index hmiddle hindex
      · refine Bool.eq_false_iff.2 fun hreached => missed ?_
        exact hstays index middle (by omega) (by omega) hreached
  | case3 low high done =>
      exact ⟨fun index hlow hindex => by omega, fun index hlow hindex => by omega⟩

end Search

namespace Chunk

section Scan

variable {chunk : Chunk} {time : Timestamp} {index : Nat}

/-- The row at a position starts at a time or later. -/
def startsFrom (chunk : Chunk) (time : Timestamp) (index : Nat) : Bool :=
  (chunk.timeAt? index).all fun start => decide (time ≤ start)

theorem startsFrom_eq
    (hinside : index < chunk.times.length) :
    chunk.startsFrom time index = decide (time ≤ chunk.times[index]) := by
  rw [startsFrom, timeAt?_eq, List.getElem?_eq_getElem hinside, Option.all_some]

/-- **The lookup finds what a scan finds** if rows are in order of start. -/
theorem indexAt?_eq_findIdx?
    (hsorted : chunk.times.Pairwise (· ≤ ·))
    (time : Timestamp) :
    chunk.indexAt? time = chunk.times.findIdx? fun start => decide (time ≤ start) := by
  have hsize := chunk.length_times
  have hstays : ∀ earlier later, earlier ≤ later → later < chunk.size →
      chunk.startsFrom time earlier = true → chunk.startsFrom time later = true := by
    intro earlier later hle hlater hreached
    rw [startsFrom_eq (by omega), decide_eq_true_eq] at hreached ⊢
    rcases Nat.eq_or_lt_of_le hle with rfl | hless
    · exact hreached
    · exact UInt64.le_trans hreached
        (List.pairwise_iff_getElem.1 hsorted earlier later (by omega) (by omega) hless)
  obtain ⟨hbefore, hafter⟩ := Search.firstFrom_spec hstays (Nat.zero_le chunk.size)
  have hlookup : chunk.indexAt? time =
      if Search.firstFrom (chunk.startsFrom time) 0 chunk.size < chunk.size then
        some (Search.firstFrom (chunk.startsFrom time) 0 chunk.size) else none :=
    rfl
  rw [hlookup]
  split
  · rename_i hinside
    refine (List.findIdx?_eq_some_iff_getElem.2 ⟨by omega, ?_, fun earlier hless => ?_⟩).symm
    · rw [← startsFrom_eq]
      exact hafter _ (Nat.le_refl _) hinside
    · rw [← startsFrom_eq, hbefore earlier (Nat.zero_le _) hless]
      exact Bool.false_ne_true
  · rename_i houtside
    refine (List.findIdx?_eq_none_iff.2 fun start hstart => ?_).symm
    obtain ⟨place, hplace, rfl⟩ := List.getElem_of_mem hstart
    rw [← startsFrom_eq]
    exact hbefore place (Nat.zero_le _) (by omega)

/-- What the lookup finds is the first row that starts at the time or later. -/
theorem indexAt?_eq_some_iff
    (hsorted : chunk.times.Pairwise (· ≤ ·)) :
    chunk.indexAt? time = some index ↔
      (∃ start, chunk.timeAt? index = some start ∧ time ≤ start) ∧
        ∀ earlier < index, ∀ start, chunk.timeAt? earlier = some start → start < time := by
  simp only [indexAt?_eq_findIdx? hsorted, List.findIdx?_eq_some_iff_getElem, timeAt?_eq,
    decide_eq_true_eq, UInt64.not_le]
  constructor
  · rintro ⟨hinside, hle, hearlier⟩
    refine ⟨⟨_, List.getElem?_eq_getElem hinside, hle⟩, fun earlier hless start hstart => ?_⟩
    obtain ⟨_, rfl⟩ := List.getElem?_eq_some_iff.1 hstart
    exact hearlier earlier hless
  · rintro ⟨⟨start, hstart, hle⟩, hearlier⟩
    obtain ⟨hinside, rfl⟩ := List.getElem?_eq_some_iff.1 hstart
    exact ⟨hinside, hle, fun earlier hless =>
      hearlier earlier hless _ (List.getElem?_eq_getElem (Nat.lt_trans hless hinside))⟩

/-- The lookup finds nothing if every row starts before the time. -/
theorem indexAt?_eq_none_iff
    (hsorted : chunk.times.Pairwise (· ≤ ·)) :
    chunk.indexAt? time = none ↔ ∀ start ∈ chunk.times, start < time := by
  simp only [indexAt?_eq_findIdx? hsorted, List.findIdx?_eq_none_iff, decide_eq_false_iff_not,
    UInt64.not_le]

/-- The later the time, the later the row, nothing counting as the number of rows. -/
theorem indexAt?_mono
    {later : Timestamp}
    (hsorted : chunk.times.Pairwise (· ≤ ·))
    (hle : time ≤ later) :
    (chunk.indexAt? time).getD chunk.size ≤ (chunk.indexAt? later).getD chunk.size := by
  cases hlater : chunk.indexAt? later with
  | none =>
      cases hfound : chunk.indexAt? time with
      | none => exact Nat.le_refl _
      | some index =>
          obtain ⟨⟨start, hstart, -⟩, -⟩ := (indexAt?_eq_some_iff hsorted).1 hfound
          obtain ⟨hinside, -⟩ := List.getElem?_eq_some_iff.1 (chunk.timeAt?_eq index ▸ hstart)
          exact Nat.le_of_lt (chunk.length_times ▸ hinside)
  | some place =>
      obtain ⟨⟨start, hstart, hfrom⟩, -⟩ := (indexAt?_eq_some_iff hsorted).1 hlater
      have hreached : time ≤ start := UInt64.le_trans hle hfrom
      cases hfound : chunk.indexAt? time with
      | none =>
          have hmem := List.mem_of_getElem? (chunk.timeAt?_eq place ▸ hstart)
          exact absurd hreached
            (UInt64.not_le.2 ((indexAt?_eq_none_iff hsorted).1 hfound start hmem))
      | some index =>
          obtain ⟨-, hearlier⟩ := (indexAt?_eq_some_iff hsorted).1 hfound
          refine Nat.le_of_not_lt fun hless => ?_
          exact absurd hreached (UInt64.not_le.2 (hearlier place hless start hstart))

end Scan

section Ends

variable {chunk : Chunk} {time : Timestamp}

/-- The start of the first row is the least of all starts. -/
theorem firstTime?_eq_some_iff
    (hsorted : chunk.times.Pairwise (· ≤ ·)) :
    chunk.firstTime? = some time ↔ time ∈ chunk.times ∧ ∀ start ∈ chunk.times, time ≤ start := by
  constructor
  · intro hfirst
    refine ⟨List.mem_of_mem_head? (chunk.firstTime?_eq ▸ hfirst), fun start hstart => ?_⟩
    obtain ⟨first, hsame, hle⟩ := exists_firstTime?_le hsorted hstart
    cases hsame.symm.trans hfirst
    exact hle
  · rintro ⟨hmem, hleast⟩
    obtain ⟨first, hfirst, hle⟩ := exists_firstTime?_le hsorted hmem
    have hheld := List.mem_of_mem_head? (chunk.firstTime?_eq ▸ hfirst)
    rw [hfirst, UInt64.le_antisymm hle (hleast first hheld)]

/-- The start of the last row is the greatest of all starts. -/
theorem lastTime?_eq_some_iff
    (hsorted : chunk.times.Pairwise (· ≤ ·)) :
    chunk.lastTime? = some time ↔ time ∈ chunk.times ∧ ∀ start ∈ chunk.times, start ≤ time := by
  constructor
  · intro hlast
    refine ⟨List.mem_of_mem_getLast? (chunk.lastTime?_eq ▸ hlast), fun start hstart => ?_⟩
    obtain ⟨last, hsame, hle⟩ := exists_le_lastTime? hsorted hstart
    cases hsame.symm.trans hlast
    exact hle
  · rintro ⟨hmem, hgreatest⟩
    obtain ⟨last, hlast, hle⟩ := exists_le_lastTime? hsorted hmem
    have hheld := List.mem_of_mem_getLast? (chunk.lastTime?_eq ▸ hlast)
    rw [hlast, UInt64.le_antisymm (hgreatest last hheld) hle]

/-- A chunk has ends unless it is empty. -/
theorem ends_eq_none_iff :
    (chunk.firstTime? = none ↔ chunk.size = 0) ∧ (chunk.lastTime? = none ↔ chunk.size = 0) := by
  rw [firstTime?_eq, lastTime?_eq, List.head?_eq_none_iff, List.getLast?_eq_none_iff,
    ← length_times, List.length_eq_zero_iff]
  exact ⟨Iff.rfl, Iff.rfl⟩

/-- Lookups in the chunk answer as a scan of its rows would.  The lookup of a time finds the first
row that starts then or later, and nothing if every row starts before; a later time leads to no
earlier row, nothing counting as the number of rows; and the first and the last start are the least
and the greatest of all, which there are unless the chunk is empty. -/
structure Scans (chunk : Chunk) : Prop where
  index : ∀ time, chunk.indexAt? time = chunk.times.findIdx? fun start => decide (time ≤ start)
  found : ∀ time index, chunk.indexAt? time = some index ↔
    (∃ start, chunk.timeAt? index = some start ∧ time ≤ start) ∧
      ∀ earlier < index, ∀ start, chunk.timeAt? earlier = some start → start < time
  missing : ∀ time, chunk.indexAt? time = none ↔ ∀ start ∈ chunk.times, start < time
  ordered : ∀ time later, time ≤ later →
    (chunk.indexAt? time).getD chunk.size ≤ (chunk.indexAt? later).getD chunk.size
  first : ∀ time, chunk.firstTime? = some time ↔
    time ∈ chunk.times ∧ ∀ start ∈ chunk.times, time ≤ start
  last : ∀ time, chunk.lastTime? = some time ↔
    time ∈ chunk.times ∧ ∀ start ∈ chunk.times, start ≤ time
  ends : (chunk.firstTime? = none ↔ chunk.size = 0) ∧ (chunk.lastTime? = none ↔ chunk.size = 0)

end Ends

section Build

theorem map_time_storeAll :
    ∀ (rows : List EventRow) (table : StringTable),
      (storeAll table rows).1.map (·.time) = rows.map (·.time)
  | [], _ => rfl
  | row :: rows, table => by
      simp only [storeAll, List.map_cons, map_time_storeAll rows]
      rfl

variable
  (track : TrackId) (window : Window) (counter : Bool)
  (rows : List Row) (table : StringTable)

/-- The starts of a chunk are those of the rows of its layout that it is made of. -/
theorem perm_times_build :
    (build track window counter rows table).1.times.Perm
      ((rows.filter (Row.fits counter)).map Row.time) := by
  cases counter with
  | true =>
      have hsorted := (List.mergeSort_perm (sampleRows rows) fun a b => a.time ≤ b.time).map
        Sample.time
      simpa [times, build, filter_fits_samples, Function.comp_def, Row.time] using hsorted
  | false =>
      have hsorted := (List.mergeSort_perm (storeAll table (eventRows rows)).1
        fun a b => a.time ≤ b.time).map Entry.time
      rw [map_time_storeAll] at hsorted
      simpa [times, records_build_events, map_time_nest, filter_fits_events, Function.comp_def,
        Row.time] using hsorted

/-- **Lookups in a chunk find what a scan of its rows finds.**  For every chunk that is made of
some rows, in either layout, its starts are those of the rows of its layout, and lookups answer as
a scan of them would. -/
theorem lookup_scans :
    (build track window counter rows table).1.times.Perm
        ((rows.filter (Row.fits counter)).map Row.time) ∧
      (build track window counter rows table).1.Scans := by
  have hsorted := pairwise_times_build track window counter rows table
  exact ⟨perm_times_build .., indexAt?_eq_findIdx? hsorted,
    fun _ _ => indexAt?_eq_some_iff hsorted, fun _ => indexAt?_eq_none_iff hsorted,
    fun _ _ => indexAt?_mono hsorted, fun _ => firstTime?_eq_some_iff hsorted,
    fun _ => lastTime?_eq_some_iff hsorted, ends_eq_none_iff⟩

end Build

end Chunk

end TimelineStore
