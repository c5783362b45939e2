import Mathlib.Algebra.Group.Nat.Defs
import TimelineStore.Time

/-!
# Windows and tilings

The conditions on times in the form in which proofs use them, the ends of
saturating sums, and tilings: a list of windows tiles a whole when each begins
where the one before ends, so every time of the whole is in exactly one of them.

**Results.**
* `Tiles.countP_contains`: a time of the whole is in exactly one of the windows.
* `Tiles.exists_meets`: what shares time with the whole shares time with one of the windows.
-/

namespace TimelineStore

namespace Timestamp

theorem toNat_later
    (time : Timestamp) (amount : Nat) :
    (time.later amount).toNat = min (time.toNat + amount) (2 ^ 64 - 1) := by
  unfold later UInt64.ofNatClamp
  split <;> rename_i hsize <;> simp only [UInt64.size] at hsize
  · simp only [UInt64.toNat_ofNatLT]
    omega
  · simp only [UInt64.toNat_ofNatLT, UInt64.size]
    omega

end Timestamp

/-- The greater of two times is the one that the order says. -/
instance : Std.LawfulOrderMax Timestamp where
  max_eq_or a b := by
    change (if a ≤ b then b else a) = a ∨ (if a ≤ b then b else a) = b
    split <;> simp
  max_le_iff a b bound := by
    change (if a ≤ b then b else a) ≤ bound ↔ a ≤ bound ∧ b ≤ bound
    split
    · rename_i hle
      exact ⟨fun hb => ⟨UInt64.le_trans hle hb, hb⟩, And.right⟩
    · rename_i hless
      have hle : b ≤ a := UInt64.le_of_lt (UInt64.not_le.1 hless)
      exact ⟨fun ha => ⟨ha, UInt64.le_trans hle ha⟩, And.left⟩

namespace Window

variable {window : Window} {time start stop : Timestamp}

theorem contains_iff :
    window.contains time = true ↔ window.start ≤ time ∧ time < window.stop := by
  simp [contains]

theorem meets_iff :
    window.meets start stop = true ↔
      start < window.stop ∧ (window.start < stop ∨ window.start ≤ start) := by
  simp [meets]

theorem isEmpty_eq_false_iff :
    window.isEmpty = false ↔ window.start < window.stop := by
  simp [isEmpty, UInt64.not_le]

/-- What starts in a window belongs to it, however long it lasts. -/
theorem meets_of_contains
    (hstart : window.contains start = true) :
    window.meets start stop = true := by
  obtain ⟨hfrom, hto⟩ := contains_iff.1 hstart
  exact meets_iff.2 ⟨hto, Or.inr hfrom⟩

/-- The windows follow each other without a gap from the start of the whole to
its end, and none of them is empty. -/
def Tiles : List Window → Window → Prop
  | [], whole => whole.start = whole.stop
  | window :: rest, whole =>
      window.start = whole.start ∧ window.start < window.stop ∧
        Tiles rest ⟨window.stop, whole.stop⟩

namespace Tiles

/-- The end of the whole is not before its start. -/
theorem start_le_stop :
    ∀ {windows : List Window} {whole : Window},
      Tiles windows whole → whole.start ≤ whole.stop
  | [], _, htiles => UInt64.le_of_eq htiles
  | window :: rest, whole, ⟨hstart, hless, hrest⟩ => by
      have hle : window.stop ≤ whole.stop := start_le_stop hrest
      rw [← hstart]
      exact UInt64.le_trans (UInt64.le_of_lt hless) hle

/-- No window of a tiling reaches back before the whole. -/
theorem start_le :
    ∀ {windows : List Window} {whole : Window},
      Tiles windows whole → ∀ window ∈ windows, whole.start ≤ window.start
  | window :: rest, whole, ⟨hstart, hless, hrest⟩, other, hmem => by
      rcases List.mem_cons.1 hmem with rfl | hmem
      · exact UInt64.le_of_eq hstart.symm
      · have hle : window.stop ≤ other.start := start_le hrest other hmem
        rw [← hstart]
        exact UInt64.le_trans (UInt64.le_of_lt hless) hle

/-- No window of a tiling reaches past the whole. -/
theorem stop_le :
    ∀ {windows : List Window} {whole : Window},
      Tiles windows whole → ∀ window ∈ windows, window.stop ≤ whole.stop
  | window :: rest, whole, ⟨hstart, hless, hrest⟩, other, hmem => by
      rcases List.mem_cons.1 hmem with rfl | hmem
      · exact start_le_stop hrest
      · exact stop_le hrest other hmem

/-- The windows of a tiling come by increasing start. -/
theorem pairwise_start :
    ∀ {windows : List Window} {whole : Window},
      Tiles windows whole → windows.Pairwise fun a b => a.start < b.start
  | [], _, _ => .nil
  | window :: rest, whole, ⟨hstart, hless, hrest⟩ => by
      refine List.pairwise_cons.2 ⟨fun other hmem => ?_, pairwise_start hrest⟩
      exact UInt64.lt_of_lt_of_le hless (start_le hrest other hmem)

/-- What shares time with a window of a tiling shares time with the whole. -/
theorem meets_whole
    {windows : List Window} {whole : Window}
    (htiles : Tiles windows whole)
    (hmem : window ∈ windows)
    (hmeets : window.meets start stop = true) :
    whole.meets start stop = true := by
  obtain ⟨hto, hreach⟩ := meets_iff.1 hmeets
  have hstart := start_le htiles window hmem
  refine meets_iff.2 ⟨UInt64.lt_of_lt_of_le hto (stop_le htiles window hmem), ?_⟩
  rcases hreach with hlast | hstarted
  · exact Or.inl (UInt64.lt_of_le_of_lt hstart hlast)
  · exact Or.inr (UInt64.le_trans hstart hstarted)

theorem contains_whole
    {windows : List Window} {whole : Window}
    (htiles : Tiles windows whole)
    (hmem : window ∈ windows)
    (hcontains : window.contains time = true) :
    whole.contains time = true := by
  obtain ⟨hfrom, hto⟩ := contains_iff.1 hcontains
  exact contains_iff.2 ⟨UInt64.le_trans (start_le htiles window hmem) hfrom,
    UInt64.lt_of_lt_of_le hto (stop_le htiles window hmem)⟩

/-- A time of the whole is in exactly one window of a tiling. -/
theorem countP_contains :
    ∀ {windows : List Window} {whole : Window},
      Tiles windows whole → whole.contains time = true →
        windows.countP (·.contains time) = 1
  | [], whole, htiles, hin => by
      obtain ⟨hfrom, hto⟩ := contains_iff.1 hin
      have hempty : whole.start = whole.stop := htiles
      rw [← hempty] at hto
      exact absurd hfrom (UInt64.not_le.2 hto)
  | window :: rest, whole, ⟨hstart, hless, hrest⟩, hin => by
      obtain ⟨hfrom, hto⟩ := contains_iff.1 hin
      by_cases hhere : time < window.stop
      · have hnone : rest.countP (·.contains time) = 0 := by
          refine List.countP_eq_zero.2 fun other hmem hother => ?_
          have hle : window.stop ≤ other.start := start_le hrest other hmem
          have hstarted := (contains_iff.1 hother).1
          exact absurd hhere (UInt64.not_lt.2 (UInt64.le_trans hle hstarted))
        have hcontains : window.contains time = true :=
          contains_iff.2 ⟨hstart ▸ hfrom, hhere⟩
        rw [List.countP_cons, hnone]
        simp [hcontains]
      · have hmissed : window.contains time = false := by
          simp [contains, hhere]
        have hlater : Window.contains ⟨window.stop, whole.stop⟩ time = true :=
          contains_iff.2 ⟨UInt64.not_lt.1 hhere, hto⟩
        rw [List.countP_cons, countP_contains hrest hlater]
        simp [hmissed]

/-- What shares time with the whole shares time with a window of the tiling: with the
one that holds its start, or with the first if it starts before the whole. -/
theorem exists_meets
    {windows : List Window} {whole : Window}
    (htiles : Tiles windows whole)
    (hwhole : whole.start < whole.stop)
    (hmeets : whole.meets start stop = true) :
    ∃ window ∈ windows, window.meets start stop = true := by
  obtain ⟨hto, hreach⟩ := meets_iff.1 hmeets
  by_cases hfrom : whole.start ≤ start
  · have hcount := countP_contains htiles (contains_iff.2 ⟨hfrom, hto⟩)
    have hpos : 0 < windows.countP (·.contains start) := by
      omega
    obtain ⟨window, hmem, hin⟩ := List.countP_pos_iff.1 hpos
    exact ⟨window, hmem, meets_of_contains hin⟩
  · have hlast : whole.start < stop := by
      rcases hreach with hlast | hstarted
      · exact hlast
      · exact absurd hstarted hfrom
    cases windows with
    | nil =>
        have hempty : whole.start = whole.stop := htiles
        rw [hempty] at hwhole
        exact absurd hwhole (UInt64.lt_irrefl _)
    | cons window rest =>
        obtain ⟨hstart, hless, -⟩ := htiles
        have hbefore : start < window.stop := by
          rw [← hstart] at hfrom
          exact UInt64.lt_trans (UInt64.not_le.1 hfrom) hless
        refine ⟨window, List.mem_cons_self, meets_iff.2 ⟨hbefore, Or.inl ?_⟩⟩
        rw [hstart]
        exact hlast

end Tiles

end Window

end TimelineStore
