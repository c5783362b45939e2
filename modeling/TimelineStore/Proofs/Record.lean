import TimelineStore.Proofs.Sorting
import TimelineStore.Record

/-!
# The rows of a track that a chunk is due to hold

A track is a list of rows, and a row is known by its position in the list: two
rows may be equal.  `Row.due` lists the rows that a chunk over a window is due to
hold, each with its position, in the order of the chunk.

**Results.**
* `Row.mem_due_iff`: a row is due exactly if it has the layout of the track and belongs
  to the window.
* `Row.due_pairwise`: rows are due by start, and rows of one start by position.
* `Row.due_order_iff`: so which of two rows comes first does not depend on the window.
-/

namespace TimelineStore

namespace Row

/-- The row is a sample of a counter. -/
def isSample : Row → Bool
  | .event _ => false
  | .sample _ _ => true

/-- The row has the layout of a track: samples stand on counters, events elsewhere. -/
def fits (counter : Bool) (row : Row) : Bool :=
  row.isSample = counter

/-- The row has the layout of a track and belongs to the window. -/
def isDue (counter : Bool) (window : Window) (row : Row) : Bool :=
  row.fits counter && row.belongsTo window

/-- Rows of a track, each with its position in it, by start. -/
def sortPlaced (rows : List (Row × Nat)) : List (Row × Nat) :=
  rows.mergeSort fun a b => a.1.time ≤ b.1.time

/-- The rows that a chunk over the window is due to hold, each with its position among
the rows of the track, in the order of the chunk. -/
def due (counter : Bool) (window : Window) (rows : List Row) : List (Row × Nat) :=
  sortPlaced (rows.zipIdx.filter fun placed => placed.1.isDue counter window)

/-- One row of a track comes before another: it starts earlier, or it has the same start
and an earlier position. -/
def Earlier (a b : Row × Nat) : Prop :=
  a.1.time < b.1.time ∨ a.1.time = b.1.time ∧ a.2 < b.2

instance (a b : Row × Nat) : Decidable (Earlier a b) :=
  inferInstanceAs (Decidable (_ ∨ _))

section Earlier

variable {a b : Row × Nat}

theorem Earlier.irrefl
    (a : Row × Nat) :
    ¬ Earlier a a := by
  rintro (hless | ⟨-, hless⟩)
  · exact UInt64.lt_irrefl _ hless
  · exact Nat.lt_irrefl _ hless

theorem Earlier.asymm
    (hab : Earlier a b) :
    ¬ Earlier b a := by
  intro hba
  rcases hab with hless | ⟨hsame, hless⟩
  · rcases hba with hback | ⟨hback, -⟩
    · exact UInt64.lt_asymm hless hback
    · rw [hback] at hless
      exact UInt64.lt_irrefl _ hless
  · rcases hba with hback | ⟨-, hback⟩
    · rw [hsame] at hback
      exact UInt64.lt_irrefl _ hback
    · exact Nat.lt_asymm hless hback

/-- Of two rows at different positions one comes first. -/
theorem Earlier.total
    (hne : a.2 ≠ b.2) :
    Earlier a b ∨ Earlier b a := by
  by_cases hless : a.1.time < b.1.time
  · exact Or.inl (Or.inl hless)
  · by_cases hback : b.1.time < a.1.time
    · exact Or.inr (Or.inl hback)
    · have hsame := UInt64.le_antisymm (UInt64.not_lt.1 hback) (UInt64.not_lt.1 hless)
      rcases Nat.lt_or_gt_of_ne hne with hposition | hposition
      · exact Or.inl (Or.inr ⟨hsame, hposition⟩)
      · exact Or.inr (Or.inr ⟨hsame.symm, hposition⟩)

theorem Earlier.time_le
    (hab : Earlier a b) :
    a.1.time ≤ b.1.time := by
  rcases hab with hless | ⟨hsame, -⟩
  · exact UInt64.le_of_lt hless
  · exact UInt64.le_of_eq hsame

end Earlier

section Due

variable
  (counter : Bool) (window : Window) (rows : List Row)

theorem mem_due_iff
    {placed : Row × Nat} :
    placed ∈ due counter window rows ↔
      rows[placed.2]? = some placed.1 ∧ placed.1.isDue counter window = true := by
  unfold due sortPlaced
  rw [List.mem_mergeSort, List.mem_filter, List.mem_zipIdx_iff_getElem?]

/-- Without their positions, the rows that are due are the selected rows of the track by
start; rows of one start keep their order. -/
theorem map_fst_due :
    (due counter window rows).map Prod.fst =
      sortByTime (rows.filter (isDue counter window)) := by
  have hselected :
      (rows.zipIdx.filter fun placed => placed.1.isDue counter window).map Prod.fst =
        rows.filter (isDue counter window) := by
    rw [← Function.comp_def, ← List.filter_map, List.zipIdx_map_fst]
  unfold due sortPlaced sortByTime
  rw [List.map_mergeSort (s := fun a b => decide (a.time ≤ b.time)), hselected]
  intro a _ b _
  rfl

/-- Positions increase along the rows of a track. -/
theorem zipIdx_pairwise
    (start : Nat) :
    (rows.zipIdx start).Pairwise fun a b => a.2 < b.2 := by
  induction rows generalizing start with
  | nil => exact .nil
  | cons row rows ih =>
      rw [List.zipIdx_cons]
      refine List.pairwise_cons.2 ⟨fun placed hmem => ?_, ih (start + 1)⟩
      have hbound := (List.mem_zipIdx hmem).1
      exact hbound

/-- Sorting by start is stable: rows that come with increasing positions come out in the
order of their starts, and rows of one start by position. -/
theorem sortPlaced_pairwise
    {placed : List (Row × Nat)}
    (hplaces : placed.Pairwise fun a b => a.2 < b.2) :
    (sortPlaced placed).Pairwise Earlier := by
  let le (a b : Row × Nat) : Bool := a.1.time ≤ b.1.time
  have htrans := time_le_trans fun placed : Row × Nat => placed.1.time
  have htotal := time_le_total fun placed : Row × Nat => placed.1.time
  -- sorting with the place in the list as a tie-break gives the stable order
  have hsorted : (placed.zipIdx.mergeSort (List.zipIdxLE le)).Pairwise _ :=
    List.pairwise_mergeSort (List.zipIdxLE_trans htrans) (List.zipIdxLE_total htotal) placed.zipIdx
  have hstable : (placed.zipIdx.mergeSort (List.zipIdxLE le)).map Prod.fst =
      sortPlaced placed := List.mergeSort_zipIdx
  rw [← hstable, List.pairwise_map]
  have hnodup : (placed.zipIdx.mergeSort (List.zipIdxLE le)).Pairwise fun a b => a.2 ≠ b.2 := by
    have hperm := List.mergeSort_perm placed.zipIdx (List.zipIdxLE le)
    refine (hperm.pairwise_iff fun hne => Ne.symm hne).2 ?_
    rw [← List.pairwise_map (R := (· ≠ ·)), List.zipIdx_map_snd]
    exact List.nodup_range'
  refine (hsorted.and hnodup).imp_of_mem fun {a b} ha hb ⟨hle, hne⟩ => ?_
  have hat := List.mem_zipIdx_iff_getElem?.1 (List.mem_mergeSort.1 ha)
  have hbt := List.mem_zipIdx_iff_getElem?.1 (List.mem_mergeSort.1 hb)
  obtain ⟨hain, hag⟩ := List.getElem?_eq_some_iff.1 hat
  obtain ⟨hbin, hbg⟩ := List.getElem?_eq_some_iff.1 hbt
  have hupward : a.2 < b.2 → a.1.2 < b.1.2 := by
    intro hless
    have := List.pairwise_iff_getElem.1 hplaces a.2 b.2 hain hbin hless
    rwa [hag, hbg] at this
  simp only [List.zipIdxLE] at hle
  by_cases hab : a.1.1.time ≤ b.1.1.time
  · by_cases hba : b.1.1.time ≤ a.1.1.time
    · simp only [hab, hba, decide_true, if_true, decide_eq_true_eq] at hle
      exact Or.inr ⟨UInt64.le_antisymm hab hba, hupward (by omega)⟩
    · exact Or.inl (UInt64.not_le.1 hba)
  · simp [hab] at hle

/-- Rows are due by start, and rows of one start by position. -/
theorem due_pairwise :
    (due counter window rows).Pairwise Earlier :=
  sortPlaced_pairwise ((zipIdx_pairwise rows 0).filter _)

/-- Which of two due rows comes first is decided by their starts and positions alone. -/
theorem due_order_iff
    {k l : Nat} {a b : Row × Nat}
    (ha : (due counter window rows)[k]? = some a)
    (hb : (due counter window rows)[l]? = some b) :
    k < l ↔ Earlier a b := by
  obtain ⟨hk, rfl⟩ := List.getElem?_eq_some_iff.1 ha
  obtain ⟨hl, rfl⟩ := List.getElem?_eq_some_iff.1 hb
  have hpairwise := List.pairwise_iff_getElem.1 (due_pairwise counter window rows)
  constructor
  · exact fun hless => hpairwise k l hk hl hless
  · intro hearlier
    rcases Nat.lt_trichotomy k l with hless | rfl | hless
    · exact hless
    · exact absurd hearlier (Earlier.irrefl _)
    · exact absurd hearlier (hpairwise l k hl hk hless).asymm

/-- The positions in the track of the rows that are due, in the order of the chunk. -/
def positions : List Nat :=
  (due counter window rows).map Prod.snd

theorem mem_positions_iff
    {position : Nat} {row : Row}
    (hrow : rows[position]? = some row) :
    position ∈ positions counter window rows ↔ row.isDue counter window = true := by
  constructor
  · intro hmem
    obtain ⟨placed, hplaced, rfl⟩ := List.mem_map.1 hmem
    obtain ⟨hvalue, hdue⟩ := (mem_due_iff counter window rows).1 hplaced
    rw [hrow, Option.some.injEq] at hvalue
    rw [hvalue]
    exact hdue
  · intro hdue
    exact List.mem_map.2 ⟨(row, position), (mem_due_iff counter window rows).2 ⟨hrow, hdue⟩, rfl⟩

/-- The place in the chunk of the row at a position of the track. -/
def place (position : Nat) : Nat :=
  (due counter window rows).findIdx (·.2 = position)

/-- A row that is due stands at its place. -/
theorem due_place
    {position : Nat} {row : Row}
    (hrow : rows[position]? = some row)
    (hdue : row.isDue counter window = true) :
    (due counter window rows)[place counter window rows position]? = some (row, position) := by
  have hmem : (row, position) ∈ due counter window rows :=
    (mem_due_iff counter window rows).2 ⟨hrow, hdue⟩
  have hinside : (due counter window rows).findIdx (·.2 = position) <
      (due counter window rows).length :=
    List.findIdx_lt_length_of_exists ⟨_, hmem, decide_eq_true rfl⟩
  have hposition := of_decide_eq_true (List.findIdx_getElem (w := hinside))
  have hvalue := ((mem_due_iff counter window rows).1 (List.getElem_mem hinside)).1
  rw [hposition, hrow] at hvalue
  rw [place, List.getElem?_eq_getElem hinside]
  exact congrArg some (Prod.ext (Option.some.inj hvalue).symm hposition)

/-- Of a list in order, the members before one of them are the earlier ones. -/
theorem countP_take
    {placed : List (Row × Nat)} {k : Nat} {a : Row × Nat}
    (counts : Row × Nat → Bool)
    (hordered : placed.Pairwise Earlier)
    (ha : placed[k]? = some a) :
    (placed.take k).countP counts = placed.countP fun b => decide (Earlier b a) && counts b := by
  induction placed generalizing k with
  | nil => simp at ha
  | cons b placed ih =>
      obtain ⟨hbefore, hordered⟩ := List.pairwise_cons.1 hordered
      cases k with
      | zero =>
          obtain rfl : b = a := by simpa using ha
          have hnone : (placed.countP fun c => decide (Earlier c b) && counts c) = 0 := by
            refine List.countP_eq_zero.2 fun c hc => ?_
            simp [(hbefore c hc).asymm]
          simp [hnone, Earlier.irrefl]
      | succ k =>
          rw [List.getElem?_cons_succ] at ha
          have hearlier : Earlier b a := hbefore a (List.mem_of_getElem? ha)
          rw [List.take_succ_cons, List.countP_cons, List.countP_cons, ih hordered ha]
          simp [hearlier]

/-- Counting due rows is counting selected rows of the track. -/
theorem countP_due
    (counts : Row × Nat → Bool) :
    (due counter window rows).countP counts =
      rows.zipIdx.countP fun placed => counts placed && placed.1.isDue counter window := by
  unfold due sortPlaced
  rw [(List.mergeSort_perm _ _).countP_eq, List.countP_filter]

end Due

end Row

end TimelineStore
