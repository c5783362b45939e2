import Mathlib.Data.Int.Order.Basic
import Mathlib.Data.List.Sort
import Mathlib.Data.Prod.Lex
import Mathlib.Data.String.Basic
import TimelineStore.Proofs.Outcome
import TimelineStore.Proofs.Rocpd.Entries
import TimelineStore.Proofs.Sql.Order
import TimelineStore.Proofs.Text.Digits

/-!
# The tracks of tables

The metadata has one track for each key that an entry has.  Distinct key columns are
found by sorting and dropping neighbours, which is exact because the columns of a table
are ordered linearly; and the key that a query reads back from the texts of a track's
descriptor is the key that the descriptor was made from.

**Results.**
* `TrackKey.ofDescriptor_eq`: a key is read back from a descriptor that names it.
* `Tables.Sound.exists_metadata`: the tracks are those of the keys of all entries, each once.
-/

namespace TimelineStore

open Sql

namespace Rocpd

section Distinct

variable
  {κ : Type} [LinearOrder κ]
  {columns : κ → Cell × Cell}

/-- Among sorted pairs the distinct ones ascend. -/
theorem exists_distinct
    (horder : ∀ a b, orderPairs (columns a) (columns b) = compare a b)
    (keys : List κ)
    (first : κ)
    (hsorted : (first :: keys).Pairwise (· ≤ ·)) :
    ∃ kept : List κ,
      distinct ((first :: keys).map columns) = kept.map columns ∧
        kept.Pairwise (· < ·) ∧ ∀ key, key ∈ kept ↔ key ∈ first :: keys := by
  induction keys generalizing first with
  | nil =>
      refine ⟨[first], ?_, List.pairwise_singleton _ _, fun _ => Iff.rfl⟩
      simp [distinct]
  | cons next keys ih =>
      rw [List.map_cons, List.map_cons, distinct, horder]
      have hbelow := (List.pairwise_cons.1 hsorted).1
      by_cases hsame : first = next
      · subst hsame
        obtain ⟨kept, hkept, hascending, hmem⟩ := ih first (List.pairwise_cons.1 hsorted).2
        refine ⟨kept, ?_, hascending, fun key => ?_⟩
        · rw [if_pos (compare_eq_iff_eq.2 rfl)]
          exact hkept
        · rw [hmem]
          simp
      · obtain ⟨kept, hkept, hascending, hmem⟩ := ih next (List.pairwise_cons.1 hsorted).2
        refine ⟨first :: kept, ?_, ?_, fun key => ?_⟩
        · rw [if_neg fun heq => hsame (compare_eq_iff_eq.1 heq)]
          exact congrArg _ hkept
        · refine List.pairwise_cons.2 ⟨fun key hkey => ?_, hascending⟩
          have hless : first < next := lt_of_le_of_ne (hbelow next List.mem_cons_self) hsame
          rcases List.mem_cons.1 ((hmem key).1 hkey) with rfl | hkey
          · exact hless
          · have hrest := (List.pairwise_cons.1 (List.pairwise_cons.1 hsorted).2).1
            exact lt_of_lt_of_le hless (hrest key hkey)
        · rw [List.mem_cons, hmem, ← List.mem_cons]

/-- Pairs that keys of a linear order stand for are found distinct as those keys are. -/
theorem exists_distinctInOrder
    (horder : ∀ a b, orderPairs (columns a) (columns b) = compare a b)
    (keys : List κ) :
    ∃ kept : List κ,
      distinctInOrder (keys.map columns) = kept.map columns ∧
        kept.Nodup ∧ ∀ key, key ∈ kept ↔ key ∈ keys := by
  have hsort :
      (keys.map columns).mergeSort (fun a b => orderPairs a b ≠ .gt) =
        (keys.mergeSort (· ≤ ·)).map columns := by
    refine (List.map_mergeSort fun a _ b _ => ?_).symm
    rw [horder, decide_eq_decide, Ne, compare_gt_iff_gt, not_lt]
  unfold distinctInOrder
  rw [hsort]
  have hmem : ∀ key, key ∈ keys.mergeSort (· ≤ ·) ↔ key ∈ keys := fun key => List.mem_mergeSort
  have hsorted := List.pairwise_mergeSort' (· ≤ ·) keys
  revert hmem hsorted
  cases keys.mergeSort (· ≤ ·) with
  | nil =>
      intro hmem _
      refine ⟨[], ?_, List.nodup_nil, hmem⟩
      simp [distinct]
  | cons first sorted =>
      intro hmem hsorted
      obtain ⟨kept, hkept, hascending, hkeys⟩ := exists_distinct horder sorted first hsorted
      refine ⟨kept, hkept, hascending.imp fun hless => ne_of_lt hless, fun key => ?_⟩
      rw [hkeys, hmem]

end Distinct

section Keys

/-- The descriptor of the track with a key. -/
def TrackKey.descriptor : TrackKey → Descriptor
  | .thread process subprocess =>
    ⟨0, .region, toString process, toString subprocess,
      keyAttributes .region (toString process) (toString subprocess)⟩
  | .queue process subprocess =>
    ⟨0, .kernel, toString process, toString subprocess,
      keyAttributes .kernel (toString process) (toString subprocess)⟩
  | .monitor device name =>
    ⟨0, .counter, toString device, name, keyAttributes .counter (toString device) name⟩

/-- The whole numbers of a key fit 64 signed bits. -/
def TrackKey.Fits : TrackKey → Prop
  | .thread process subprocess =>
    (Cell.integer process).IsWord ∧ (Cell.integer subprocess).IsWord
  | .queue process subprocess =>
    (Cell.integer process).IsWord ∧ (Cell.integer subprocess).IsWord
  | .monitor device _ => (Cell.integer device).IsWord

theorem number_toString
    {value : Int}
    (hword : (Cell.integer value).IsWord) :
    TrackKey.number (toString value) = .ok value := by
  rcases hword with ⟨hlow, hhigh⟩
  unfold TrackKey.number
  rw [Text.integer?_toString value hlow hhigh]

/-- The descriptor names the key columns. -/
def TrackKey.IsNamedBy : TrackKey → Descriptor → Prop
  | .thread process subprocess, descriptor =>
    descriptor.names .region (toString process) (toString subprocess)
  | .queue process subprocess, descriptor =>
    descriptor.names .kernel (toString process) (toString subprocess)
  | .monitor device name, descriptor => descriptor.names .counter (toString device) name

theorem names_iff
    {descriptor : Descriptor} {category : Category} {process subprocess : String} :
    descriptor.names category process subprocess = true ↔
      descriptor.category = category ∧ descriptor.process = process ∧
        descriptor.subprocess = subprocess := by
  simp [Descriptor.names, and_assoc]

theorem TrackKey.isNamedBy_descriptor (key : TrackKey) : key.IsNamedBy key.descriptor := by
  cases key <;> exact names_iff.2 ⟨rfl, rfl, rfl⟩

/-- **A key is read back from the texts of any descriptor that names it.** -/
theorem TrackKey.ofDescriptor_eq
    {key : TrackKey} {descriptor : Descriptor}
    (hnamed : key.IsNamedBy descriptor)
    (hfits : key.Fits) :
    ofDescriptor descriptor = .ok key := by
  cases key with
  | thread process subprocess =>
      obtain ⟨hcategory, hprocess, hsubprocess⟩ := names_iff.1 hnamed
      simp only [ofDescriptor, hcategory, hprocess, hsubprocess, number_toString hfits.1,
        number_toString hfits.2]
      rfl
  | queue process subprocess =>
      obtain ⟨hcategory, hprocess, hsubprocess⟩ := names_iff.1 hnamed
      simp only [ofDescriptor, hcategory, hprocess, hsubprocess, number_toString hfits.1,
        number_toString hfits.2]
      rfl
  | monitor device name =>
      obtain ⟨hcategory, hprocess, hsubprocess⟩ := names_iff.1 hnamed
      have hdevice : (Cell.integer device).IsWord := hfits
      simp only [ofDescriptor, hcategory, hprocess, hsubprocess, number_toString hdevice]
      rfl

theorem TrackKey.ofDescriptor_descriptor
    {key : TrackKey}
    (hfits : key.Fits) :
    ofDescriptor key.descriptor = .ok key :=
  ofDescriptor_eq key.isNamedBy_descriptor hfits

/-- A key names the track of no other key. -/
theorem TrackKey.isNamedBy_descriptor_iff
    {key other : TrackKey}
    (hkey : key.Fits)
    (hother : other.Fits) :
    key.IsNamedBy other.descriptor ↔ other = key := by
  constructor
  · intro hnamed
    have hread := ofDescriptor_eq hnamed hkey
    rw [ofDescriptor_descriptor hother, Except.ok.injEq] at hread
    exact hread
  · rintro rfl
    exact other.isNamedBy_descriptor

/-- The position of a key among distinct keys is that of the one descriptor that names it. -/
theorem isNamedBy_iff_of_nodup
    {keys : List TrackKey} {key : TrackKey} {index : Nat}
    (hnodup : keys.Nodup)
    (hfits : ∀ other ∈ keys, other.Fits)
    (hindex : keys[index]? = some key)
    (other : Nat)
    (descriptor : Descriptor)
    (hother : (keys.map TrackKey.descriptor)[other]? = some descriptor) :
    key.IsNamedBy descriptor ↔ other = index := by
  rw [List.getElem?_map, Option.map_eq_some_iff] at hother
  obtain ⟨named, hnamed, rfl⟩ := hother
  rw [TrackKey.isNamedBy_descriptor_iff (hfits key (List.mem_of_getElem? hindex))
    (hfits named (List.mem_of_getElem? hnamed))]
  constructor
  · rintro rfl
    have hinside := (List.getElem?_eq_some_iff.1 hnamed).1
    exact (List.getElem?_inj hinside hnodup).1 (hnamed.trans hindex.symm)
  · rintro rfl
    rw [hnamed] at hindex
    exact Option.some.inj hindex

theorem EventSelection.Sound.fits
    {row : EventSelection}
    {table : EventTable}
    (hsound : row.Sound)
    (htable : table = callEvents ∨ table = dispatchEvents) :
    (table.entry row).key.Fits := by
  have hprocess := hsound.columns.process
  have hsubprocess := hsound.columns.subprocess
  rw [← hprocess.integer_whole] at hprocess
  rw [← hsubprocess.integer_whole] at hsubprocess
  rcases htable with rfl | rfl
  · exact ⟨hprocess, hsubprocess⟩
  · exact ⟨hprocess, hsubprocess⟩

theorem SampleRow.Sound.fits
    {row : SampleRow}
    (hsound : row.Sound) :
    row.entry.key.Fits := by
  have hdevice := hsound.device
  rw [← hdevice.integer_whole] at hdevice
  exact hdevice

theorem Tables.Sound.fits
    {tables : Tables}
    (hsound : tables.Sound) :
    ∀ entry ∈ tables.entries, entry.key.Fits := by
  refine Tables.forall_mem_entries (fun row hrow => ?_) (fun row hrow => ?_) (fun row hrow => ?_)
  · exact (hsound.callSelections row hrow).fits (Or.inl rfl)
  · exact (hsound.dispatchSelections row hrow).fits (Or.inr rfl)
  · exact (hsound.deviceSamples row hrow).fits

end Keys

section Stages

/-- The key columns of calls and of dispatches. -/
def wholePair (key : Int ×ₗ Int) : Cell × Cell :=
  (.integer (ofLex key).1, .integer (ofLex key).2)

/-- The key columns of samples. -/
def namedPair (key : Int ×ₗ String) : Cell × Cell :=
  (.integer (ofLex key).1, .text (ofLex key).2)

theorem orderPairs_wholePair (a b : Int ×ₗ Int) :
    orderPairs (wholePair a) (wholePair b) = compare a b := rfl

theorem orderPairs_namedPair (a b : Int ×ₗ String) :
    orderPairs (namedPair a) (namedPair b) = compare a b := by
  unfold orderPairs namedPair
  rw [Cell.text_order_text]
  rfl

/-- The thread with these key columns. -/
def threadOf (key : Int ×ₗ Int) : TrackKey :=
  .thread (ofLex key).1 (ofLex key).2

/-- The queue with these key columns. -/
def queueOf (key : Int ×ₗ Int) : TrackKey :=
  .queue (ofLex key).1 (ofLex key).2

/-- The monitor with these key columns. -/
def monitorOf (key : Int ×ₗ String) : TrackKey :=
  .monitor (ofLex key).1 (ofLex key).2

theorem threadOf_injective : Function.Injective threadOf := by
  rintro ⟨a, b⟩ ⟨c, d⟩ hsame
  rcases TrackKey.thread.inj hsame with ⟨rfl, rfl⟩
  rfl

theorem queueOf_injective : Function.Injective queueOf := by
  rintro ⟨a, b⟩ ⟨c, d⟩ hsame
  rcases TrackKey.queue.inj hsame with ⟨rfl, rfl⟩
  rfl

theorem monitorOf_injective : Function.Injective monitorOf := by
  rintro ⟨a, b⟩ ⟨c, d⟩ hsame
  rcases TrackKey.monitor.inj hsame with ⟨rfl, rfl⟩
  rfl

/-- One stage of reading metadata: a track for each key among the rows of a table. -/
theorem exists_stage
    {ρ κ : Type} [LinearOrder κ]
    {columns : κ → Cell × Cell} {track : κ → TrackKey}
    {category : Category} {column : String}
    (horder : ∀ a b, orderPairs (columns a) (columns b) = compare a b)
    (hinjective : Function.Injective track)
    (hdescribe : ∀ key, describe category column (columns key) = .ok (track key).descriptor)
    (pairOf : ρ → Cell × Cell)
    (keyOf : ρ → κ)
    (rows : List ρ)
    (hpairs : ∀ row ∈ rows, pairOf row = columns (keyOf row)) :
    ∃ keys : List TrackKey,
      (distinctInOrder (rows.map pairOf)).mapM (describe category column) =
          .ok (keys.map TrackKey.descriptor) ∧
        keys.Nodup ∧ ∀ key, key ∈ keys ↔ ∃ row ∈ rows, track (keyOf row) = key := by
  have hmap : rows.map pairOf = (rows.map keyOf).map columns := by
    rw [List.map_map]
    exact List.map_congr_left hpairs
  obtain ⟨kept, hkept, hnodup, hmem⟩ := exists_distinctInOrder horder (rows.map keyOf)
  refine ⟨kept.map track, ?_, hnodup.map hinjective, fun key => ?_⟩
  · rw [hmap, hkept, List.map_map]
    exact Outcome.mapM_map_eq_ok fun key _ => hdescribe key
  · simp only [List.mem_map, hmem]
    constructor
    · rintro ⟨_, ⟨row, hrow, rfl⟩, hkey⟩
      exact ⟨row, hrow, hkey⟩
    · rintro ⟨row, hrow, hkey⟩
      exact ⟨_, ⟨row, hrow, rfl⟩, hkey⟩

variable {tables : Tables}

theorem Tables.Sound.exists_threads
    (hsound : tables.Sound) :
    ∃ keys : List TrackKey,
      tables.threads = .ok (keys.map TrackKey.descriptor) ∧ keys.Nodup ∧
        ∀ key, key ∈ keys ↔
          ∃ row ∈ tables.calls, .thread row.process.whole row.thread.whole = key := by
  refine exists_stage orderPairs_wholePair threadOf_injective (fun _ => rfl) _
    (fun row => toLex (row.process.whole, row.thread.whole)) tables.calls ?_
  intro row hrow
  have hcolumns := hsound.calls row hrow
  rw [wholePair, ofLex_toLex, hcolumns.process.integer_whole, hcolumns.subprocess.integer_whole]

theorem Tables.Sound.exists_queues
    (hsound : tables.Sound) :
    ∃ keys : List TrackKey,
      tables.queues = .ok (keys.map TrackKey.descriptor) ∧ keys.Nodup ∧
        ∀ key, key ∈ keys ↔
          ∃ row ∈ tables.dispatches, .queue row.device.whole row.queue.whole = key := by
  refine exists_stage orderPairs_wholePair queueOf_injective (fun _ => rfl) _
    (fun row => toLex (row.device.whole, row.queue.whole)) tables.dispatches ?_
  intro row hrow
  have hcolumns := hsound.dispatches row hrow
  rw [wholePair, ofLex_toLex, hcolumns.process.integer_whole, hcolumns.subprocess.integer_whole]

theorem Tables.Sound.exists_monitors
    (hsound : tables.Sound) :
    ∃ keys : List TrackKey,
      tables.monitors = .ok (keys.map TrackKey.descriptor) ∧ keys.Nodup ∧
        ∀ key, key ∈ keys ↔
          ∃ row ∈ tables.deviceSamples, .monitor row.device.whole row.monitor.words = key := by
  refine exists_stage orderPairs_namedPair monitorOf_injective (fun _ => rfl) _
    (fun row => toLex (row.device.whole, row.monitor.words)) tables.deviceSamples ?_
  intro row hrow
  have hrowSound := hsound.deviceSamples row hrow
  rw [namedPair, ofLex_toLex, hrowSound.device.integer_whole, hrowSound.monitor.text_words]

/-- **The tracks are those of the keys of all entries, each once.** -/
theorem Tables.Sound.exists_metadata
    {window : Window}
    (hsound : tables.Sound)
    (hbounds : tables.bounds = .ok window) :
    ∃ keys : List TrackKey,
      tables.metadata.answer = .ok ⟨window, keys.map TrackKey.descriptor⟩ ∧ keys.Nodup ∧
        ∀ key, key ∈ keys ↔ ∃ entry ∈ tables.entries, entry.key = key := by
  obtain ⟨threads, hthreads, hthreadsNodup, hthread⟩ := hsound.exists_threads
  obtain ⟨queues, hqueues, hqueuesNodup, hqueue⟩ := hsound.exists_queues
  obtain ⟨monitors, hmonitors, hmonitorsNodup, hmonitor⟩ := hsound.exists_monitors
  refine ⟨threads ++ (queues ++ monitors), ?_, ?_, fun key => ?_⟩
  · unfold Tables.metadata Tables.stages
    rw [hbounds, hthreads, hqueues, hmonitors]
    simp only [List.map_append]
    simp [describeStages, Except.map, reportFailure]
  · refine List.nodup_append.2 ⟨hthreadsNodup, List.nodup_append.2 ⟨hqueuesNodup,
      hmonitorsNodup, ?_⟩, ?_⟩
    · rintro key hkey other hother rfl
      obtain ⟨_, _, rfl⟩ := (hqueue key).1 hkey
      obtain ⟨_, _, habsurd⟩ := (hmonitor _).1 hother
      cases habsurd
    · rintro key hkey other hother rfl
      obtain ⟨_, _, rfl⟩ := (hthread key).1 hkey
      rcases List.mem_append.1 hother with hother | hother
      · obtain ⟨_, _, habsurd⟩ := (hqueue _).1 hother
        cases habsurd
      · obtain ⟨_, _, habsurd⟩ := (hmonitor _).1 hother
        cases habsurd
  · rw [List.mem_append, List.mem_append, hthread, hqueue, hmonitor, Tables.entries]
    simp only [List.mem_append, List.mem_map, or_and_right, exists_or, exists_exists_and_eq_and,
      Tables.callSelections, Tables.dispatchSelections, or_assoc]
    rfl

end Stages

end Rocpd

end TimelineStore
