import TimelineStore.Proofs.Sorting
import TimelineStore.Proofs.Source.Memory
import TimelineStore.Proofs.Window

/-!
# What a source in memory was given

A source in memory is put together from tracks and detail.  Without a window of its own it covers
its rows, and reads of its tracks over that window return the rows that it was given.  Two things
are lost.  A track is asked for by its descriptor, so of the tracks that share one only the first
is ever read.  And a window ends before its stop, so none holds the last time there is.

**Results.**
* `MemorySource.belongsTo_hull_iff`: what the window of some rows misses of them.
* `MemorySource.reads_given`: what each track of a source is read as.
* `MemorySource.not_readsOwn`: so not every track is read as it was given.
-/

namespace TimelineStore

/-- No window holds the last time, so nothing that starts there belongs to one. -/
theorem Row.time_ne_latest
    {row : Row} {window : Window}
    (hbelongs : row.belongsTo window = true) :
    row.time ≠ Timestamp.latest := by
  have hbefore : row.time < window.stop := by
    cases row with
    | event row => exact (Window.meets_iff.1 hbelongs).1
    | sample time value => exact (Window.contains_iff.1 hbelongs).2
  intro hlatest
  rw [hlatest, UInt64.lt_iff_toNat_lt] at hbefore
  have hbound := window.stop.toNat_lt
  simp only [Timestamp.latest, UInt64.reduceToNat] at hbefore
  omega

theorem Row.belongsTo_of_contains
    {row : Row} {window : Window}
    (hstart : window.contains row.time = true) :
    row.belongsTo window = true := by
  cases row with
  | event row => exact Window.meets_of_contains hstart
  | sample time value => exact hstart

theorem Row.time_le_stop
    (row : Row) :
    row.time ≤ row.stop := by
  cases row with
  | sample time value => exact UInt64.le_refl time
  | event row =>
      have hbound := row.time.toNat_lt
      change row.time ≤ row.time.later row.duration.toInt.toNat
      rw [UInt64.le_iff_toNat_le, Timestamp.toNat_later]
      omega

namespace MemorySource

section Hull

variable {rows : List Row} {row : Row}

/-- The hull of some rows begins at the start of one of them and ends one past the end of one. -/
theorem exists_hull
    (hmem : row ∈ rows) :
    ∃ first last, hull rows = ⟨first, Timestamp.later last 1⟩ ∧
      first ≤ row.time ∧ row.stop ≤ last := by
  have htimes : rows.map Row.time ≠ [] := List.ne_nil_of_mem (List.mem_map_of_mem hmem)
  have hstops : rows.map Row.stop ≠ [] := List.ne_nil_of_mem (List.mem_map_of_mem hmem)
  obtain ⟨first, hfirst⟩ := Option.ne_none_iff_exists'.1 (List.min?_eq_none_iff.not.2 htimes)
  obtain ⟨last, hlast⟩ := Option.ne_none_iff_exists'.1 (List.max?_eq_none_iff.not.2 hstops)
  refine ⟨first, last, by simp [hull, hfirst, hlast], ?_, ?_⟩
  · exact (List.min?_eq_some_iff.1 hfirst).2 _ (List.mem_map_of_mem hmem)
  · exact (List.max?_eq_some_iff.1 hlast).2 _ (List.mem_map_of_mem hmem)

/-- **Of some rows their hull misses those at the last time**, and no others. -/
theorem belongsTo_hull_iff
    (hmem : row ∈ rows) :
    row.belongsTo (hull rows) = true ↔ row.time ≠ Timestamp.latest := by
  refine ⟨Row.time_ne_latest, fun hne => Row.belongsTo_of_contains ?_⟩
  obtain ⟨first, last, hhull, hfirst, hlast⟩ := exists_hull hmem
  have hreach := UInt64.le_iff_toNat_le.1 (UInt64.le_trans row.time_le_stop hlast)
  have hbound := row.time.toNat_lt
  have hearly : row.time.toNat ≠ 2 ^ 64 - 1 := fun hsame => hne (UInt64.toNat_inj.1 hsame)
  rw [hhull, Window.contains_iff, UInt64.lt_iff_toNat_lt, Timestamp.toNat_later]
  exact ⟨hfirst, by omega⟩

end Hull

/-- One step in putting a source together. -/
inductive Part where
  | track (descriptor : Descriptor) (rows : List Row)
  | detail (event : EventId) (detail : RawDetail)

/-- The source with one more part. -/
def add (source : MemorySource) : Part → MemorySource
  | .track descriptor rows => source.addTrack descriptor rows
  | .detail event detail => source.addDetail event detail

/-- The source that is put together from some parts. -/
def ofParts (name : String) (parts : List Part) : MemorySource :=
  parts.foldl add (named name)

/-- The tracks among some parts, each with its rows as they were given. -/
def given (parts : List Part) : List (Descriptor × List Row) :=
  parts.filterMap fun
    | .track descriptor rows => some (descriptor, rows)
    | .detail _ _ => none

section Parts

variable (name : String) (parts : List Part)

theorem foldl_add
    (source : MemorySource) :
    (parts.foldl add source).window = source.window ∧
      (parts.foldl add source).tracks =
        source.tracks ++ (given parts).map (Prod.map id Row.sortByTime) := by
  induction parts generalizing source with
  | nil => exact ⟨rfl, (List.append_nil _).symm⟩
  | cons part parts ih =>
      obtain ⟨hwindow, htracks⟩ := ih (source.add part)
      refine ⟨hwindow.trans (by cases part <;> rfl), htracks.trans ?_⟩
      cases part with
      | track descriptor rows => simp [add, addTrack, given]
      | detail event detail => simp [add, addDetail, given]

theorem window_ofParts :
    (ofParts name parts).window = none :=
  (foldl_add parts (named name)).1

theorem tracks_ofParts :
    (ofParts name parts).tracks = (given parts).map (Prod.map id Row.sortByTime) :=
  (foldl_add parts (named name)).2

theorem metadata_tracks_ofParts :
    (ofParts name parts).metadata.tracks = (given parts).map Prod.fst := by
  rw [metadata, tracks_ofParts, List.map_map]
  rfl

/-- Every row of a given track is among the rows that the source covers. -/
theorem mem_rows_ofParts
    {track : Descriptor × List Row} {row : Row}
    (htrack : track ∈ given parts)
    (hrow : row ∈ Row.sortByTime track.2) :
    row ∈ (ofParts name parts).rows := by
  rw [rows, tracks_ofParts]
  exact List.mem_flatMap.2 ⟨_, List.mem_map_of_mem htrack, hrow⟩

end Parts

/-- The first track of a descriptor among the given ones is the first among those of the source. -/
theorem First.sorted
    {parts : List Part} {descriptor : Descriptor} {place : Nat} {rows : List Row}
    (hfirst : First (given parts) descriptor place rows)
    (name : String) :
    First (ofParts name parts).tracks descriptor place (Row.sortByTime rows) := by
  rw [tracks_ofParts]
  refine ⟨by rw [List.getElem?_map, hfirst.found]; rfl, fun earlier hearlier others hothers => ?_⟩
  rw [List.getElem?_map, Option.map_eq_some_iff] at hothers
  obtain ⟨⟨other, own⟩, hown, hsame⟩ := hothers
  obtain rfl : other = descriptor := congrArg Prod.fst hsame
  exact hfirst.first earlier hearlier own hown

/-- The metadata names a track at the position, and a read of it over the window of the metadata
returns these rows by start, those of one start in their order. -/
def ReadsAt (source : MemorySource) (index : Nat) (rows : List Row) : Prop :=
  ∃ metadata descriptor answer,
    source.toSource.metadata.answer = .ok metadata ∧
    metadata.tracks[index]? = some descriptor ∧
    source.toSource.readTrack descriptor metadata.window = .ok answer ∧
    SortsStably Row.time rows answer

/-- A read returns one answer only. -/
theorem ReadsAt.perm
    {source : MemorySource} {index : Nat} {rows others : List Row}
    (hrows : source.ReadsAt index rows)
    (hothers : source.ReadsAt index others) :
    rows.Perm others := by
  obtain ⟨metadata, descriptor, answer, hmetadata, hnamed, hanswer, hsorts⟩ := hrows
  obtain ⟨metadata', descriptor', answer', hmetadata', hnamed', hanswer', hsorts'⟩ := hothers
  obtain rfl : metadata = metadata' := Except.ok.inj (hmetadata.symm.trans hmetadata')
  obtain rfl : descriptor = descriptor' := Option.some.inj (hnamed.symm.trans hnamed')
  obtain rfl : answer = answer' := Except.ok.inj (hanswer.symm.trans hanswer')
  exact hsorts.perm.symm.trans hsorts'.perm

/-- A track is read with the rows of the first track of its descriptor, less those that start at
the last time. -/
theorem First.readsAt
    {parts : List Part} {descriptor : Descriptor} {place index : Nat} {rows own : List Row}
    (hfirst : First (given parts) descriptor place rows)
    (htrack : (given parts)[index]? = some (descriptor, own))
    (name : String) :
    (ofParts name parts).ReadsAt index (rows.filter fun row => row.time ≠ Timestamp.latest) := by
  refine ⟨_, descriptor, _, rfl, ?_, ?_,
    (sortsStably_mergeSort Row.time rows).filter fun row => row.time ≠ Timestamp.latest⟩
  · rw [metadata_tracks_ofParts, List.getElem?_map, htrack]
    rfl
  · change (ofParts name parts).readTrack descriptor (ofParts name parts).covered = _
    rw [(hfirst.sorted name).readTrack_eq, covered, window_ofParts, Option.getD_none]
    refine congrArg Except.ok (List.filter_congr fun row hrow => ?_)
    have hthere := mem_rows_ofParts name parts (List.mem_of_getElem? hfirst.found) hrow
    rw [Bool.eq_iff_iff, decide_eq_true_eq]
    exact belongsTo_hull_iff hthere

/-- **A source without a window of its own returns what it was given**, as far as descriptors and
windows can tell: it names the given tracks in order, and reads each of them, over the window of
its metadata, as the first track that was given with the same descriptor, by start, less the rows
at the last time, which belong to no window. -/
theorem reads_given
    (name : String) (parts : List Part) :
    (ofParts name parts).metadata.tracks = (given parts).map Prod.fst ∧
      ∀ (index : Nat) (descriptor : Descriptor) (own : List Row),
        (given parts)[index]? = some (descriptor, own) →
          ∃ place rows, place ≤ index ∧ First (given parts) descriptor place rows ∧
            (ofParts name parts).ReadsAt index
              (rows.filter fun row => row.time ≠ Timestamp.latest) := by
  refine ⟨metadata_tracks_ofParts name parts, fun index descriptor own htrack => ?_⟩
  obtain ⟨place, rows, hplace, hfirst⟩ := exists_first htrack
  exact ⟨place, rows, hplace, hfirst, hfirst.readsAt htrack name⟩

section Lost

/-- A counter of the first process. -/
def utilization : Descriptor :=
  ⟨0, .counter, "0", "utilization", []⟩

/-- The counter is given with a sample, and a second time without any. -/
def twins : List Part :=
  [.track utilization [.sample 10 0.5], .track utilization []]

/-- The counter is given with a sample at the last time. -/
def late : List Part :=
  [.track utilization [.sample Timestamp.latest 0.5]]

/-- The second of two tracks with one descriptor is read, with what the first was given with. -/
theorem reads_given_twins :
    (given twins)[1]? = some (utilization, []) ∧
      ∃ place rows, place ≤ 1 ∧ First (given twins) utilization place rows ∧
        (ofParts "twins" twins).ReadsAt 1
          (rows.filter fun row => row.time ≠ Timestamp.latest) :=
  ⟨rfl, (reads_given "twins" twins).2 1 utilization [] rfl⟩

/-- Every track of the source is read as the rows that were given with it. -/
def ReadsOwn (name : String) (parts : List Part) : Prop :=
  ∀ (index : Nat) (descriptor : Descriptor) (own : List Row),
    (given parts)[index]? = some (descriptor, own) → (ofParts name parts).ReadsAt index own

/-- **Some tracks are not read as they were given**: one whose descriptor an earlier track has, and
one with a row at the last time. -/
theorem not_readsOwn :
    ¬ ReadsOwn "twins" twins ∧ ¬ ReadsOwn "late" late := by
  constructor
  · intro howns
    have hfirst : First (given twins) utilization 0 [.sample 10 0.5] :=
      ⟨rfl, fun _ hless => absurd hless (Nat.not_lt_zero _)⟩
    -- the second track is read with the row of the first
    have hread : (ofParts "twins" twins).ReadsAt 1 _ := hfirst.readsAt rfl "twins"
    have hsame := (hread.perm (howns 1 utilization [] rfl)).length_eq
    simp [Row.time, Timestamp.latest] at hsame
  · intro howns
    have hfirst : First (given late) utilization 0 [.sample Timestamp.latest 0.5] :=
      ⟨rfl, fun _ hless => absurd hless (Nat.not_lt_zero _)⟩
    -- the only track is read without a row
    have hread : (ofParts "late" late).ReadsAt 0 _ := hfirst.readsAt rfl "late"
    have hsame := (hread.perm (howns 0 utilization _ rfl)).length_eq
    simp [Row.time] at hsame

end Lost

end MemorySource

end TimelineStore
