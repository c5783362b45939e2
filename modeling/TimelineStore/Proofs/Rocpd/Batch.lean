import TimelineStore.Proofs.Outcome
import TimelineStore.Rocpd.Source

/-!
# Batches and single reads

A batch reads a table once for all keys that are wanted of it, a single read once for its own
key.  What is wanted decides which rows of a scan are read in full and which are passed over
after their keys, so a scan for fewer keys finds those of the rows found that have them, and a
batch can be read exactly if each of its tracks can.

The rows of a key go to the first track of the batch that names it, and from there to the tracks
with an equal descriptor.  A track may name the key of another in other words: its node and its
attributes do not count, and a number has several texts.  Such a track gets no rows unless it
is the first of those with its key.

**Results.**
* `collect_fewer`, `exists_collect_iff`: what a collection finds, and when it can be made.
* `Tables.readOne_eq`: a single read is a scan for one key.
* `Tables.readTracks_firsts`: which rows the tracks of a batch get.
-/

namespace TimelineStore

theorem reportFailure_eq_ok_iff
    {α : Type} {outcome : Except DatabaseFailure α} {value : α} :
    reportFailure outcome = .ok value ↔ outcome = .ok value := by
  cases outcome <;> simp [reportFailure]

namespace Rocpd

section Collections

variable
  {ρ : Type} {key : ρ → Except DatabaseFailure TrackKey} {row : ρ → Except DatabaseFailure Row}
  {wanted fewer : List TrackKey} {rows : List ρ} {found : List (TrackKey × Row)}

/-- The key of every row must be read, and the row as well if its key is wanted. -/
theorem collect_cons_eq_ok_iff
    {selected : ρ} {rest : List ρ} :
    collect key row wanted (selected :: rest) = .ok found ↔
      ∃ own others, key selected = .ok own ∧ collect key row wanted rest = .ok others ∧
        (own ∉ wanted ∧ found = others ∨
          own ∈ wanted ∧ ∃ value, row selected = .ok value ∧ found = (own, value) :: others) := by
  rw [collect, Outcome.bind_eq_ok_iff]
  constructor
  · rintro ⟨own, hown, hrest⟩
    by_cases hwanted : own ∈ wanted
    · rw [if_pos hwanted] at hrest
      obtain ⟨value, hvalue, hrest⟩ := Outcome.bind_eq_ok_iff.1 hrest
      obtain ⟨others, hothers, hfound⟩ := Outcome.bind_eq_ok_iff.1 hrest
      cases hfound
      exact ⟨own, others, hown, hothers, Or.inr ⟨hwanted, value, hvalue, rfl⟩⟩
    · rw [if_neg hwanted] at hrest
      exact ⟨own, found, hown, hrest, Or.inl ⟨hwanted, rfl⟩⟩
  · rintro ⟨own, others, hown, hothers, ⟨hwanted, rfl⟩ | ⟨hwanted, value, hvalue, rfl⟩⟩
    · exact ⟨own, hown, by rw [if_neg hwanted, hothers]⟩
    · refine ⟨own, hown, ?_⟩
      rw [if_pos hwanted, hvalue, hothers]
      rfl

theorem mem_wanted_of_mem_collect
    (hcollect : collect key row wanted rows = .ok found) :
    ∀ pair ∈ found, pair.1 ∈ wanted := by
  induction rows generalizing found with
  | nil =>
      cases hcollect
      exact List.forall_mem_nil _
  | cons selected rest ih =>
      obtain ⟨own, others, -, hothers, ⟨-, rfl⟩ | ⟨hwanted, value, -, rfl⟩⟩ :=
        collect_cons_eq_ok_iff.1 hcollect
      · exact ih hothers
      · exact List.forall_mem_cons.2 ⟨hwanted, ih hothers⟩

/-- What a collection finds it has read. -/
theorem exists_of_mem_collect
    (hcollect : collect key row wanted rows = .ok found) :
    ∀ pair ∈ found, ∃ selected ∈ rows, row selected = .ok pair.2 := by
  induction rows generalizing found with
  | nil =>
      cases hcollect
      exact List.forall_mem_nil _
  | cons selected rest ih =>
      obtain ⟨own, others, -, hothers, hcase⟩ := collect_cons_eq_ok_iff.1 hcollect
      have hrest : ∀ pair ∈ others, ∃ other ∈ selected :: rest, row other = .ok pair.2 := by
        intro pair hpair
        obtain ⟨later, hlater, hvalue⟩ := ih hothers pair hpair
        exact ⟨later, List.mem_cons_of_mem _ hlater, hvalue⟩
      rcases hcase with ⟨-, rfl⟩ | ⟨-, value, hvalue, rfl⟩
      · exact hrest
      · exact List.forall_mem_cons.2 ⟨⟨selected, List.mem_cons_self, hvalue⟩, hrest⟩

/-- **A collection for fewer keys** finds the rows that have them. -/
theorem collect_fewer
    (hfewer : ∀ own ∈ fewer, own ∈ wanted)
    (hcollect : collect key row wanted rows = .ok found) :
    collect key row fewer rows = .ok (found.filter (·.1 ∈ fewer)) := by
  induction rows generalizing found with
  | nil =>
      cases hcollect
      rfl
  | cons selected rest ih =>
      obtain ⟨own, others, hown, hothers, hcase⟩ := collect_cons_eq_ok_iff.1 hcollect
      refine collect_cons_eq_ok_iff.2 ⟨own, _, hown, ih hothers, ?_⟩
      rcases hcase with ⟨hwanted, rfl⟩ | ⟨hwanted, value, hvalue, rfl⟩
      · exact Or.inl ⟨fun hkept => hwanted (hfewer own hkept), rfl⟩
      · by_cases hkept : own ∈ fewer
        · exact Or.inr ⟨hkept, value, hvalue, by simp [hkept]⟩
        · exact Or.inl ⟨hkept, by simp [hkept]⟩

/-- **A collection can be made** if every key is read and every row with a wanted key. -/
theorem exists_collect_iff :
    (∃ found, collect key row wanted rows = .ok found) ↔
      ∀ selected ∈ rows, ∃ own, key selected = .ok own ∧
        (own ∈ wanted → ∃ value, row selected = .ok value) := by
  induction rows with
  | nil => exact ⟨fun _ => List.forall_mem_nil _, fun _ => ⟨[], rfl⟩⟩
  | cons selected rest ih =>
      rw [List.forall_mem_cons, ← ih]
      constructor
      · rintro ⟨found, hcollect⟩
        obtain ⟨own, others, hown, hothers, hcase⟩ := collect_cons_eq_ok_iff.1 hcollect
        refine ⟨⟨own, hown, fun hwanted => ?_⟩, others, hothers⟩
        rcases hcase with ⟨hnot, -⟩ | ⟨-, value, hvalue, -⟩
        · exact absurd hwanted hnot
        · exact ⟨value, hvalue⟩
      · rintro ⟨⟨own, hown, hrow⟩, others, hothers⟩
        by_cases hwanted : own ∈ wanted
        · obtain ⟨value, hvalue⟩ := hrow hwanted
          exact ⟨_, collect_cons_eq_ok_iff.2
            ⟨own, others, hown, hothers, Or.inr ⟨hwanted, value, hvalue, rfl⟩⟩⟩
        · exact ⟨_, collect_cons_eq_ok_iff.2
            ⟨own, others, hown, hothers, Or.inl ⟨hwanted, rfl⟩⟩⟩

end Collections

section Scans

variable
  {tables : Tables} {window : Window} {name : TableName} {wanted fewer : List TrackKey}
  {found : List (TrackKey × Row)}

/-- A scan is refused whatever is wanted, or it is a collection from rows that do not depend
on it. -/
def Tables.Collects (tables : Tables) (window : Window) (name : TableName) : Prop :=
  (∃ failure, ∀ wanted, tables.scan window wanted name = .error failure) ∨
    ∃ (ρ : Type) (key : ρ → Except DatabaseFailure TrackKey)
      (row : ρ → Except DatabaseFailure Row) (rows : List ρ),
      ∀ wanted, tables.scan window wanted name = collect key row wanted rows

theorem Tables.collects_of_prepare
    {ρ : Type} {statement : Statement} {key : ρ → Except DatabaseFailure TrackKey}
    {row : ρ → Except DatabaseFailure Row} {rows : List ρ}
    (hscan : ∀ wanted, tables.scan window wanted name =
      (tables.prepare statement >>= fun _ => collect key row wanted rows)) :
    tables.Collects window name := by
  cases hprepare : tables.prepare statement with
  | error failure =>
      refine Or.inl ⟨failure, fun wanted => ?_⟩
      rw [hscan, hprepare]
      rfl
  | ok _ =>
      refine Or.inr ⟨ρ, key, row, rows, fun wanted => ?_⟩
      rw [hscan, hprepare]
      rfl

theorem Tables.collects
    (tables : Tables) (window : Window) (name : TableName) :
    tables.Collects window name := by
  cases name with
  | calls => exact collects_of_prepare fun _ => rfl
  | dispatches => exact collects_of_prepare fun _ => rfl
  | samples => exact collects_of_prepare fun _ => rfl

theorem Tables.mem_wanted_of_mem_scan
    (hscan : tables.scan window wanted name = .ok found) :
    ∀ pair ∈ found, pair.1 ∈ wanted := by
  rcases tables.collects window name with ⟨failure, hrefused⟩ | ⟨ρ, key, row, rows, heq⟩
  · rw [hrefused] at hscan
    cases hscan
  · rw [heq] at hscan
    exact mem_wanted_of_mem_collect hscan

theorem Tables.scan_fewer
    (hfewer : ∀ own ∈ fewer, own ∈ wanted)
    (hscan : tables.scan window wanted name = .ok found) :
    tables.scan window fewer name = .ok (found.filter (·.1 ∈ fewer)) := by
  rcases tables.collects window name with ⟨failure, hrefused⟩ | ⟨ρ, key, row, rows, heq⟩
  · rw [hrefused] at hscan
    cases hscan
  · rw [heq] at hscan ⊢
    exact collect_fewer hfewer hscan

/-- A scan for some keys succeeds if a scan for each of them does. -/
theorem Tables.exists_scan_of_each
    (hsome : wanted ≠ [])
    (heach : ∀ own ∈ wanted, ∃ found, tables.scan window [own] name = .ok found) :
    ∃ found, tables.scan window wanted name = .ok found := by
  obtain ⟨first, hfirst⟩ := List.exists_mem_of_ne_nil wanted hsome
  rcases tables.collects window name with ⟨failure, hrefused⟩ | ⟨ρ, key, row, rows, heq⟩
  · obtain ⟨found, hfound⟩ := heach first hfirst
    rw [hrefused] at hfound
    cases hfound
  · simp only [heq, exists_collect_iff] at heach ⊢
    intro selected hselected
    obtain ⟨own, hown, -⟩ := heach first hfirst selected hselected
    refine ⟨own, hown, fun hwanted => ?_⟩
    obtain ⟨again, hagain, hrow⟩ := heach own hwanted selected hselected
    obtain rfl : again = own := Except.ok.inj (hagain.symm.trans hown)
    exact hrow List.mem_cons_self

section ScanFor

variable {keys : List TrackKey} {key : TrackKey}

theorem Tables.scanFor_singleton
    (tables : Tables) (window : Window) (key : TrackKey) (name : TableName) :
    tables.scanFor window [key] name =
      if key.table = name then tables.scan window [key] name else .ok [] := by
  unfold Tables.scanFor
  by_cases htable : key.table = name <;> simp [htable]

/-- A table gives rows to keys of its own only. -/
theorem Tables.table_of_mem_scanFor
    (hscan : tables.scanFor window keys name = .ok found) :
    ∀ pair ∈ found, pair.1.table = name := by
  unfold Tables.scanFor at hscan
  split at hscan
  · cases hscan
    exact List.forall_mem_nil _
  · intro pair hpair
    simpa using (List.mem_filter.1 (mem_wanted_of_mem_scan hscan pair hpair)).2

/-- What a table has for some keys holds what it has for one of them. -/
theorem Tables.scan_of_scanFor
    (hmem : key ∈ keys)
    (hscan : tables.scanFor window keys key.table = .ok found) :
    tables.scan window [key] key.table = .ok (found.filter (·.1 ∈ [key])) := by
  have hwanted : key ∈ keys.filter (·.table = key.table) := by
    simp [hmem]
  unfold Tables.scanFor at hscan
  split at hscan
  · next hnone =>
      rw [hnone] at hwanted
      cases hwanted
  · refine scan_fewer (fun own hown => ?_) hscan
    rwa [List.mem_singleton.1 hown]

theorem Tables.exists_scanFor
    (heach : ∀ key ∈ keys, ∃ found, tables.scan window [key] key.table = .ok found)
    (name : TableName) :
    ∃ found, tables.scanFor window keys name = .ok found := by
  unfold Tables.scanFor
  split
  · exact ⟨[], rfl⟩
  · next hsome =>
      refine exists_scan_of_each hsome fun own hown => ?_
      obtain ⟨hmem, htable⟩ := List.mem_filter.1 hown
      obtain rfl : own.table = name := by simpa using htable
      exact heach own hmem

end ScanFor

end Scans

section Reads

variable
  {tables : Tables} {window : Window} {track : Descriptor} {tracks : List Descriptor}
  {key : TrackKey} {keys : List TrackKey} {sets : List (List Row)}
  {part : TableName → List (TrackKey × Row)}

/-- What the tables have for a batch, one after the other. -/
def gathered (part : TableName → List (TrackKey × Row)) : List (TrackKey × Row) :=
  part .calls ++ part .dispatches ++ part .samples

/-- What is found in the three tables, by the table. -/
def parted (calls dispatches samples : List (TrackKey × Row)) :
    TableName → List (TrackKey × Row)
  | .calls => calls
  | .dispatches => dispatches
  | .samples => samples

/-- A batch can be read if its tracks name keys and the tables have their rows. -/
theorem Tables.read_eq_ok_iff :
    tables.read tracks window = .ok sets ↔
      ∃ keys part, tracks.mapM TrackKey.ofDescriptor = .ok keys ∧
        (∀ name, tables.scanFor window keys name = .ok (part name)) ∧
        sets = tracks.map fun track => ownRows keys (gathered part) (tracks.idxOf track) := by
  constructor
  · intro hread
    obtain ⟨keys, hkeys, hread⟩ := Outcome.bind_eq_ok_iff.1 hread
    obtain ⟨calls, hcalls, hread⟩ := Outcome.bind_eq_ok_iff.1 hread
    obtain ⟨dispatches, hdispatches, hread⟩ := Outcome.bind_eq_ok_iff.1 hread
    obtain ⟨samples, hsamples, hread⟩ := Outcome.bind_eq_ok_iff.1 hread
    cases hread
    refine ⟨keys, parted calls dispatches samples, hkeys, fun name => ?_, rfl⟩
    cases name with
    | calls => exact hcalls
    | dispatches => exact hdispatches
    | samples => exact hsamples
  · rintro ⟨keys, part, hkeys, hparts, rfl⟩
    simp only [Tables.read, hkeys, hparts, bind, Except.bind]
    rfl

/-- **A single read is a scan for one key.** -/
theorem Tables.readOne_eq
    (tables : Tables) (window : Window)
    (hkey : TrackKey.ofDescriptor track = .ok key) :
    tables.readOne track window =
      (tables.scan window [key] key.table).map (rowsWith key) := by
  have hkeys : [track].mapM TrackKey.ofDescriptor = .ok [key] := by
    rw [List.mapM_cons, hkey]
    rfl
  have hown : ∀ found, ownRows [key] found ([track].idxOf track) = rowsWith key found := by
    intro found
    simp [ownRows]
  have hread : tables.read [track] window =
      (tables.scan window [key] key.table).map fun found => [rowsWith key found] := by
    simp only [Tables.read, hkeys, bind, Except.bind, Tables.scanFor_singleton, List.map_cons,
      List.map_nil, hown]
    cases key.table <;> cases tables.scan window [key] _ <;>
      simp [Except.map, pure, Except.pure]
  rw [Tables.readOne, hread]
  cases tables.scan window [key] key.table <;>
    simp [bind, Except.bind, Except.map, pure, Except.pure]

theorem rowsWith_eq_nil
    {found : List (TrackKey × Row)}
    (hothers : ∀ pair ∈ found, pair.1 ≠ key) :
    rowsWith key found = [] := by
  have hnone : found.filter (·.1 = key) = [] :=
    List.filter_eq_nil_iff.2 fun pair hpair => by simpa using hothers pair hpair
  rw [rowsWith, hnone]
  rfl

/-- Of the rows of a batch a key has those of its own table. -/
theorem rowsWith_gathered
    (htables : ∀ name, ∀ pair ∈ part name, pair.1.table = name) :
    rowsWith key (gathered part) = rowsWith key (part key.table) := by
  have hothers : ∀ name, key.table ≠ name → rowsWith key (part name) = [] := by
    intro name hother
    refine rowsWith_eq_nil fun pair hpair hsame => hother ?_
    rw [← hsame]
    exact htables name pair hpair
  have hsplit : rowsWith key (gathered part) =
      rowsWith key (part .calls) ++ rowsWith key (part .dispatches) ++
        rowsWith key (part .samples) := by
    simp [rowsWith, gathered]
  rw [hsplit]
  cases htable : key.table <;> simp [hothers, htable]

/-- The rows that a batch has for a key are those of a single read. -/
theorem Tables.readOne_of_scanFor
    (hparts : ∀ name, tables.scanFor window keys name = .ok (part name))
    (hmem : key ∈ keys)
    (hkey : TrackKey.ofDescriptor track = .ok key) :
    tables.readOne track window = .ok (rowsWith key (gathered part)) := by
  have hown : rowsWith key ((part key.table).filter (·.1 ∈ [key])) =
      rowsWith key (part key.table) := by
    simp [rowsWith, List.filter_filter]
  rw [readOne_eq tables window hkey, scan_of_scanFor hmem (hparts key.table),
    rowsWith_gathered fun name => table_of_mem_scanFor (hparts name), ← hown]
  rfl

end Reads

section Firsts

variable
  {tables : Tables} {window : Window} {track : Descriptor} {tracks : List Descriptor}
  {key : TrackKey} {keys : List TrackKey} {sets : List (List Row)}

/-- The track stands first in the batch among those that name its key. -/
def standsFirst (tracks : List Descriptor) (track : Descriptor) : Bool :=
  tracks.find? (fun other =>
    (TrackKey.ofDescriptor other).toOption = (TrackKey.ofDescriptor track).toOption) = some track

/-- The track that stands first is where its key first occurs. -/
theorem standsFirst_iff
    (hkeys : List.Forall₂ (fun track key => TrackKey.ofDescriptor track = .ok key) tracks keys)
    (hkey : TrackKey.ofDescriptor track = .ok key)
    (hmem : track ∈ tracks) :
    standsFirst tracks track = true ↔ keys.idxOf key = tracks.idxOf track := by
  rw [standsFirst, decide_eq_true_iff]
  induction hkeys with
  | nil => cases hmem
  | @cons first own tracks keys hfirst hrest ih =>
      by_cases hsame : own = key
      · rw [List.find?_cons_of_pos (by simp [hfirst, hkey, hsame]), List.idxOf_cons_eq _ hsame]
        constructor
        · intro hstands
          rw [List.idxOf_cons_eq _ (Option.some.inj hstands)]
        · intro hplace
          by_contra hother
          rw [List.idxOf_cons_ne _ fun heq => hother (congrArg some heq)] at hplace
          cases hplace
      · have hother : first ≠ track := by
          rintro rfl
          exact hsame (Except.ok.inj (hfirst.symm.trans hkey))
        have hlater : track ∈ tracks := (List.mem_cons.1 hmem).resolve_left (Ne.symm hother)
        rw [List.find?_cons_of_neg (by simp [hfirst, hkey, hsame, Except.toOption]), ih hlater,
          List.idxOf_cons_ne _ hsame, List.idxOf_cons_ne _ hother, Nat.succ_inj]

theorem ownRows_eq
    {found : List (TrackKey × Row)}
    (hkeys : List.Forall₂ (fun track key => TrackKey.ofDescriptor track = .ok key) tracks keys)
    (hkey : TrackKey.ofDescriptor track = .ok key)
    (hmem : track ∈ tracks) :
    ownRows keys found (tracks.idxOf track) =
      if standsFirst tracks track then rowsWith key found else [] := by
  have hinside : tracks.idxOf track < tracks.length := List.idxOf_lt_length_of_mem hmem
  have hplace : tracks.idxOf track < keys.length := hkeys.length_eq ▸ hinside
  have hown : keys[tracks.idxOf track] = key := by
    have hnamed := hkeys.get hinside hplace
    simp only [List.get_eq_getElem, List.getElem_idxOf] at hnamed
    exact Except.ok.inj (hnamed.symm.trans hkey)
  simp only [ownRows, List.getElem?_eq_getElem hplace, hown,
    ← standsFirst_iff hkeys hkey hmem]

/-- A track that can be read alone names a key, and its table has rows for it. -/
theorem Tables.exists_scan_of_readOne
    {rows : List Row}
    (hread : tables.readOne track window = .ok rows) :
    ∃ key found, TrackKey.ofDescriptor track = .ok key ∧
      tables.scan window [key] key.table = .ok found := by
  cases hkey : TrackKey.ofDescriptor track with
  | error failure => simp [readOne, read, List.mapM_cons, hkey, bind, Except.bind] at hread
  | ok key =>
      rw [readOne_eq tables window hkey] at hread
      cases hscan : tables.scan window [key] key.table with
      | error failure => simp [hscan, Except.map] at hread
      | ok found => exact ⟨key, found, rfl, hscan⟩

/-- **A batch can be read if each of its tracks can.** -/
theorem Tables.exists_read_of_each
    (heach : ∀ track ∈ tracks, ∃ rows, tables.readOne track window = .ok rows) :
    ∃ sets, tables.read tracks window = .ok sets := by
  obtain ⟨keys, hkeys⟩ := Outcome.exists_mapM_eq_ok (f := TrackKey.ofDescriptor)
    fun track hmem => by
      obtain ⟨rows, hrows⟩ := heach track hmem
      obtain ⟨key, -, hkey, -⟩ := exists_scan_of_readOne hrows
      exact ⟨key, hkey⟩
  have hscans : ∀ key ∈ keys, ∃ found, tables.scan window [key] key.table = .ok found := by
    intro key hmem
    obtain ⟨track, htrack, hkey⟩ := Outcome.exists_of_mem_values hkeys hmem
    obtain ⟨rows, hrows⟩ := heach track htrack
    obtain ⟨own, found, hown, hfound⟩ := exists_scan_of_readOne hrows
    obtain rfl : own = key := Except.ok.inj (hown.symm.trans hkey)
    exact ⟨found, hfound⟩
  choose part hparts using exists_scanFor hscans
  exact ⟨_, read_eq_ok_iff.2 ⟨keys, part, hkeys, hparts, rfl⟩⟩

/-- **A track of a batch gets its rows if it stands first**, and none otherwise. -/
theorem Tables.exists_readOne_of_read
    {place : Nat}
    (hread : tables.read tracks window = .ok sets)
    (hplace : tracks[place]? = some track) :
    ∃ rows, tables.readOne track window = .ok rows ∧
      sets[place]? = some (if standsFirst tracks track then rows else []) := by
  obtain ⟨keys, part, hkeys, hparts, rfl⟩ := read_eq_ok_iff.1 hread
  have hmem := List.mem_of_getElem? hplace
  obtain ⟨key, hkey, hpair⟩ := Outcome.exists_mem_zip hkeys hmem
  refine ⟨_, readOne_of_scanFor hparts (List.of_mem_zip hpair).2 hkey, ?_⟩
  rw [List.getElem?_map, hplace, Option.map_some,
    ownRows_eq (Outcome.mapM_eq_ok_iff.1 hkeys) hkey hmem]

theorem Tables.length_of_read
    (hread : tables.read tracks window = .ok sets) :
    sets.length = tracks.length := by
  obtain ⟨keys, part, -, -, rfl⟩ := read_eq_ok_iff.1 hread
  exact List.length_map _

/-- A batch that is read gives the rows of single reads exactly if the tracks that do not stand
first have none. -/
theorem Tables.oneByOne_eq_iff
    (hread : tables.read tracks window = .ok sets) :
    tracks.mapM (fun track => tables.readOne track window) = .ok sets ↔
      ∀ track ∈ tracks, standsFirst tracks track = true ∨ tables.readOne track window = .ok [] := by
  rw [Outcome.mapM_eq_ok_iff, List.forall₂_iff_get]
  constructor
  · rintro ⟨hlength, heach⟩ track hmem
    obtain ⟨place, hinside, rfl⟩ := List.getElem_of_mem hmem
    obtain ⟨rows, hrows, hset⟩ :=
      exists_readOne_of_read hread (List.getElem?_eq_getElem hinside)
    have hsame := heach place hinside (hlength ▸ hinside)
    simp only [List.get_eq_getElem] at hsame
    rw [List.getElem?_eq_getElem (hlength ▸ hinside), Option.some.injEq] at hset
    rw [hsame, Except.ok.injEq] at hrows
    cases hfirst : standsFirst tracks tracks[place] with
    | true => exact Or.inl rfl
    | false =>
        rw [hset, hfirst] at hsame
        exact Or.inr hsame
  · intro hall
    refine ⟨(length_of_read hread).symm, fun place hinside hset => ?_⟩
    obtain ⟨rows, hrows, hvalue⟩ :=
      exists_readOne_of_read hread (List.getElem?_eq_getElem hinside)
    rw [List.getElem?_eq_getElem hset, Option.some.injEq] at hvalue
    simp only [List.get_eq_getElem, hvalue]
    rcases hall _ (List.getElem_mem hinside) with hfirst | hnone
    · rw [hfirst]
      exact hrows
    · rw [hnone, Except.ok.injEq] at hrows
      rw [← hrows, ite_self]
      exact hnone

/-- **A batch can be read exactly if each of its tracks can, and gives each track that stands
first the rows of a single read and the others none.**  So it agrees with single reads unless
a track has rows and names its key in other words than a track before it, by its node, its
attributes or another text of a number. -/
theorem Tables.readTracks_firsts
    (tables : Tables) (name : String) (tracks : List Descriptor) (window : Window) :
    ((∃ sets, (tables.toSource name).readTracks tracks window = .ok sets) ↔
      ∀ track ∈ tracks, ∃ rows, (tables.toSource name).readTrack track window = .ok rows) ∧
    ∀ sets : List (List Row), (tables.toSource name).readTracks tracks window = .ok sets →
      sets.length = tracks.length ∧
      (∀ (place : Nat) (track : Descriptor), tracks[place]? = some track →
        ∃ rows, (tables.toSource name).readTrack track window = .ok rows ∧
          sets[place]? = some (if standsFirst tracks track then rows else [])) ∧
      (Source.oneByOne (tables.toSource name).readTrack tracks window = .ok sets ↔
        ∀ track ∈ tracks, standsFirst tracks track = true ∨
          (tables.toSource name).readTrack track window = .ok []) := by
  simp only [Tables.toSource, Source.oneByOne, Outcome.mapM_eq_ok_iff, reportFailure_eq_ok_iff]
  simp only [← Outcome.mapM_eq_ok_iff (f := fun track => tables.readOne track window)]
  refine ⟨⟨fun ⟨sets, hread⟩ track hmem => ?_, exists_read_of_each⟩, fun sets hread => ?_⟩
  · obtain ⟨place, hplace⟩ := List.mem_iff_getElem?.1 hmem
    obtain ⟨rows, hrows, -⟩ := exists_readOne_of_read hread hplace
    exact ⟨rows, hrows⟩
  · exact ⟨length_of_read hread, fun place track hplace => exists_readOne_of_read hread hplace,
      oneByOne_eq_iff hread⟩

section Example

/-- A call without a name. -/
def namelessCall : Tables where
  strings := []
  calls := [⟨1, .integer 100, .integer 100, .integer 10, .integer 20, .null, .null⟩]
  dispatches := []
  samples := none
  links := none
  frames := none
  bare := []

/-- The thread of the call in several words: on a node, and with a text for its process. -/
def namelessThread (node : Nat) (process : String) : Descriptor :=
  ⟨node, .region, process, "100", []⟩

/-- The row of the call. -/
def namelessRow : Row :=
  .event ⟨1, .launch, 10, 10, "", ""⟩

theorem ofDescriptor_namelessThread
    {process : String}
    (node : Nat)
    (hprocess : TrackKey.number process = .ok 100) :
    TrackKey.ofDescriptor (namelessThread node process) = .ok (.thread 100 100) := by
  have hthread : TrackKey.number "100" = .ok 100 := rfl
  simp only [TrackKey.ofDescriptor, namelessThread, hprocess, hthread]
  rfl

theorem readOne_namelessThread
    {process : String}
    (node : Nat)
    (hprocess : TrackKey.number process = .ok 100) :
    namelessCall.readOne (namelessThread node process) ⟨0, 100⟩ = .ok [namelessRow] := by
  have hselected : inWindow ⟨0, 100⟩ namelessCall.callSelections =
      namelessCall.callSelections := List.mergeSort_singleton _
  have hscan : namelessCall.scan ⟨0, 100⟩ [.thread 100 100] .calls =
      .ok [(.thread 100 100, namelessRow)] := by
    simp only [Tables.scan, EventTable.scan, hselected]
    rfl
  rw [Tables.readOne_eq namelessCall ⟨0, 100⟩ (ofDescriptor_namelessThread node hprocess)]
  exact congrArg (Except.map _) hscan

/-- The thread of the call, again on another node, again with a sign, and again as it was. -/
def namelessBatch : List Descriptor :=
  [namelessThread 0 "100", namelessThread 1 "100", namelessThread 0 "+100",
    namelessThread 0 "100"]

theorem readTrack_of_mem_namelessBatch :
    ∀ track ∈ namelessBatch,
      (namelessCall.toSource "capture.rpd").readTrack track ⟨0, 100⟩ = .ok [namelessRow] := by
  simp only [namelessBatch, List.forall_mem_cons, Tables.toSource, reportFailure_eq_ok_iff]
  exact ⟨readOne_namelessThread 0 rfl, readOne_namelessThread 1 rfl, readOne_namelessThread 0 rfl,
    readOne_namelessThread 0 rfl, List.forall_mem_nil _⟩

theorem readTracks_firsts_nameless :
    ∃ sets : List (List Row),
      (namelessCall.toSource "capture.rpd").readTracks namelessBatch ⟨0, 100⟩ = .ok sets ∧
        sets[0]? = some [namelessRow] ∧ sets[1]? = some [] ∧ sets[2]? = some [] ∧
        sets[3]? = some [namelessRow] := by
  obtain ⟨hsucceeds, hgives⟩ :=
    Tables.readTracks_firsts namelessCall "capture.rpd" namelessBatch ⟨0, 100⟩
  obtain ⟨sets, hread⟩ := hsucceeds.2 fun track hmem =>
    ⟨_, readTrack_of_mem_namelessBatch track hmem⟩
  have hplace : ∀ (place : Nat) (track : Descriptor) (stands : Bool),
      namelessBatch[place]? = some track → standsFirst namelessBatch track = stands →
        sets[place]? = some (if stands then [namelessRow] else []) := by
    rintro place track _ htrack rfl
    obtain ⟨rows, hrows, hset⟩ := (hgives sets hread).2.1 place track htrack
    rw [readTrack_of_mem_namelessBatch track (List.mem_of_getElem? htrack),
      Except.ok.injEq] at hrows
    rwa [hrows]
  exact ⟨sets, hread, hplace 0 _ true rfl (by decide), hplace 1 _ false rfl (by decide),
    hplace 2 _ false rfl (by decide), hplace 3 _ true rfl (by decide)⟩

/-- A batch whose tracks can all be read, one of which is not given its rows. -/
theorem exists_batch_apart :
    ∃ (tables : Tables) (name : String) (tracks : List Descriptor) (window : Window)
      (sets : List (List Row)) (place : Nat) (track : Descriptor) (rows : List Row),
      (tables.toSource name).readTracks tracks window = .ok sets ∧
        tracks[place]? = some track ∧ (tables.toSource name).readTrack track window = .ok rows ∧
        sets[place]? ≠ some rows := by
  have hsingle := readTrack_of_mem_namelessBatch
  simp only [Tables.toSource, reportFailure_eq_ok_iff] at hsingle
  obtain ⟨sets, hread⟩ := Tables.exists_read_of_each fun track hmem => ⟨_, hsingle track hmem⟩
  have hsecond : namelessBatch[1]? = some (namelessThread 1 "100") := rfl
  obtain ⟨rows, -, hset⟩ := Tables.exists_readOne_of_read hread hsecond
  refine ⟨namelessCall, "capture.rpd", namelessBatch, ⟨0, 100⟩, sets, 1, namelessThread 1 "100",
    [namelessRow], reportFailure_eq_ok_iff.2 hread, hsecond,
    readTrack_of_mem_namelessBatch _ (by decide), ?_⟩
  have hlater : standsFirst namelessBatch (namelessThread 1 "100") = false := by
    decide
  rw [hset, hlater]
  nofun

end Example

end Firsts

end Rocpd

end TimelineStore
