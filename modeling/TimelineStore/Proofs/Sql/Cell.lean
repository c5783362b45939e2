import Mathlib.Data.Int.Order.Basic
import Mathlib.Order.Compare
import TimelineStore.Sql.Cell

/-!
# Whole numbers in cells

Conditions and extremes over cells that hold a whole number or nothing.  `least` and
`greatest` are one fold that differs in the side on which a cell counts as better; what
is proved of `extreme` holds of both.

**Results.**
* `extreme_eq_integer_iff`: an extreme is a member that no member is beyond.
* `extreme_map_extreme`: the extreme of the extremes of parts is that of all of them.
-/

namespace TimelineStore

namespace Sql

namespace Cell

section Conditions

@[simp] theorem integer_order_integer (a b : Int) :
    (integer a).order (integer b) = compare a b := rfl

@[simp] theorem integer_isLess_integer (a b : Int) :
    (integer a).isLess (integer b) = decide (a < b) := by
  simp [isLess, compare_lt_iff_lt]

@[simp] theorem integer_isAtLeast_integer (a b : Int) :
    (integer a).isAtLeast (integer b) = decide (b ≤ a) := by
  simp [isAtLeast, compare_lt_iff_lt]

@[simp] theorem isLess_null (cell : Cell) : cell.isLess null = false := by
  simp [isLess]

end Conditions

/-- The cell holds a whole number or nothing. -/
inductive Countable : Cell → Prop
  | null : Countable .null
  | integer (value : Int) : Countable (.integer value)

section Extremes

/-- The better of two cells, where there are two. -/
def better (side : Ordering) (best : Option Cell) (cell : Cell) : Option Cell :=
  match best with
  | some best => some (if cell.order best = side then cell else best)
  | none => some cell

/-- The cell that is on this side of all others that are not null, or null. -/
def extreme (side : Ordering) (cells : List Cell) : Cell :=
  ((cells.filter (· ≠ .null)).foldl (better side) none).getD .null

theorem least_eq_extreme (cells : List Cell) : least cells = extreme .lt cells := rfl

theorem greatest_eq_extreme (cells : List Cell) : greatest cells = extreme .gt cells := rfl

section Sides

variable {side : Ordering}

theorem compare_ne_trans
    {a b c : Int}
    (hside : side ≠ .eq)
    (hfirst : compare a b ≠ side)
    (hsecond : compare b c ≠ side) :
    compare a c ≠ side := by
  cases side with
  | lt =>
      rw [Ne, compare_lt_iff_lt] at *
      omega
  | eq => exact absurd rfl hside
  | gt =>
      rw [Ne, compare_gt_iff_gt] at *
      omega

theorem compare_ne_of_eq
    {a b : Int}
    (hside : side ≠ .eq)
    (hsame : compare a b = side) :
    compare b a ≠ side := by
  subst hsame
  intro hback
  rcases lt_trichotomy a b with hless | heq | hgreater
  · rw [compare_lt_iff_lt.2 hless, compare_lt_iff_lt] at hback
    omega
  · exact hside (compare_eq_iff_eq.2 heq)
  · rw [compare_gt_iff_gt.2 hgreater, compare_gt_iff_gt] at hback
    omega

end Sides

variable (side : Ordering)

/-- The fold keeps a number that it has seen and that no number it has seen is beyond. -/
theorem foldl_better
    (hside : side ≠ .eq)
    (values : List Int)
    (start : Int) :
    ∃ value,
      (values.map integer).foldl (better side) (some (integer start)) = some (integer value) ∧
        value ∈ start :: values ∧ ∀ other ∈ start :: values, compare other value ≠ side := by
  induction values generalizing start with
  | nil =>
      refine ⟨start, rfl, List.mem_cons_self, fun other hother => ?_⟩
      rw [List.mem_singleton.1 hother, compare_eq_iff_eq.2 rfl]
      exact hside.symm
  | cons next values ih =>
      rw [List.map_cons, List.foldl_cons]
      by_cases hbetter : compare next start = side
      · obtain ⟨value, hvalue, hmem, hbound⟩ := ih next
        refine ⟨value, ?_, List.mem_cons_of_mem _ hmem, fun other hother => ?_⟩
        · simpa [better, hbetter] using hvalue
        · rcases List.mem_cons.1 hother with rfl | hother
          · have hnext := hbound next List.mem_cons_self
            exact compare_ne_trans hside (compare_ne_of_eq hside hbetter) hnext
          · exact hbound other hother
      · obtain ⟨value, hvalue, hmem, hbound⟩ := ih start
        refine ⟨value, ?_, ?_, fun other hother => ?_⟩
        · simpa [better, hbetter] using hvalue
        · rcases List.mem_cons.1 hmem with rfl | hmem
          · exact List.mem_cons_self
          · exact List.mem_cons_of_mem _ (List.mem_cons_of_mem _ hmem)
        · rcases List.mem_cons.1 hother with rfl | hother
          · exact hbound other List.mem_cons_self
          · rcases List.mem_cons.1 hother with rfl | hother
            · exact compare_ne_trans hside hbetter (hbound start List.mem_cons_self)
            · exact hbound other (List.mem_cons_of_mem _ hother)

/-- Cells that are not null, of those that hold a whole number or nothing, hold numbers. -/
theorem exists_filter_eq_map
    {cells : List Cell}
    (hall : ∀ cell ∈ cells, cell.Countable) :
    ∃ values : List Int, cells.filter (· ≠ null) = values.map integer := by
  induction cells with
  | nil => exact ⟨[], rfl⟩
  | cons cell cells ih =>
      obtain ⟨values, hvalues⟩ := ih fun other hother => hall other (List.mem_cons_of_mem _ hother)
      cases hall cell List.mem_cons_self with
      | null => exact ⟨values, by simpa using hvalues⟩
      | integer value => exact ⟨value :: values, by simpa using hvalues⟩

/-- An extreme is null where there is nothing else, and otherwise a member that no member
is beyond. -/
theorem extreme_cases
    {cells : List Cell}
    (hside : side ≠ .eq)
    (hall : ∀ cell ∈ cells, cell.Countable) :
    (extreme side cells = null ∧ ∀ cell ∈ cells, cell = null) ∨
      ∃ value, extreme side cells = integer value ∧ integer value ∈ cells ∧
        ∀ other, integer other ∈ cells → compare other value ≠ side := by
  obtain ⟨values, hvalues⟩ := exists_filter_eq_map hall
  have hmem : ∀ value, integer value ∈ cells ↔ value ∈ values := by
    intro value
    have hfilter : integer value ∈ cells.filter (· ≠ null) ↔ value ∈ values := by
      rw [hvalues]
      simp
    rw [← hfilter]
    simp
  unfold extreme
  rw [hvalues]
  cases values with
  | nil =>
      refine Or.inl ⟨rfl, fun cell hcell => ?_⟩
      have hnone := List.filter_eq_nil_iff.1 hvalues cell hcell
      simpa using hnone
  | cons first values =>
      obtain ⟨value, hvalue, hin, hbound⟩ := foldl_better side hside values first
      refine Or.inr ⟨value, ?_, (hmem value).2 hin, fun other hother => ?_⟩
      · rw [List.map_cons, List.foldl_cons, better, hvalue]
        rfl
      · exact hbound other ((hmem other).1 hother)

theorem countable_extreme
    {cells : List Cell}
    (hside : side ≠ .eq)
    (hall : ∀ cell ∈ cells, cell.Countable) :
    (extreme side cells).Countable := by
  rcases extreme_cases side hside hall with ⟨hnull, -⟩ | ⟨value, hvalue, -⟩
  · rw [hnull]
    exact .null
  · rw [hvalue]
    exact .integer value

/-- **An extreme is a member that no member is beyond.** -/
theorem extreme_eq_integer_iff
    {cells : List Cell} {value : Int}
    (hside : side ≠ .eq)
    (hall : ∀ cell ∈ cells, cell.Countable) :
    extreme side cells = integer value ↔
      integer value ∈ cells ∧ ∀ other, integer other ∈ cells → compare other value ≠ side := by
  rcases extreme_cases side hside hall with ⟨hnull, hnone⟩ | ⟨found, hfound, hmem, hbound⟩
  · rw [hnull]
    constructor
    · intro habsurd
      cases habsurd
    · rintro ⟨hin, -⟩
      cases hnone _ hin
  · rw [hfound]
    constructor
    · rintro ⟨⟩
      exact ⟨hmem, hbound⟩
    · rintro ⟨hin, hother⟩
      -- neither of the two numbers is beyond the other
      have hback := hbound value hin
      have hforth := hother found hmem
      have hsame : found = value := by
        cases side with
        | lt =>
            rw [Ne, compare_lt_iff_lt] at hback hforth
            omega
        | eq => exact absurd rfl hside
        | gt =>
            rw [Ne, compare_gt_iff_gt] at hback hforth
            omega
      rw [hsame]

theorem extreme_eq_null_iff
    {cells : List Cell}
    (hside : side ≠ .eq)
    (hall : ∀ cell ∈ cells, cell.Countable) :
    extreme side cells = null ↔ ∀ cell ∈ cells, cell = null := by
  rcases extreme_cases side hside hall with ⟨hnull, hnone⟩ | ⟨found, hfound, hmem, -⟩
  · exact ⟨fun _ => hnone, fun _ => hnull⟩
  · rw [hfound]
    constructor
    · intro habsurd
      cases habsurd
    · intro hnone
      cases hnone _ hmem

/-- **The extreme of the extremes of parts is the extreme of all of them.** -/
theorem extreme_map_extreme
    {parts : List (List Cell)}
    (hside : side ≠ .eq)
    (hall : ∀ part ∈ parts, ∀ cell ∈ part, cell.Countable) :
    extreme side (parts.map (extreme side)) = extreme side parts.flatten := by
  have hflat : ∀ cell ∈ parts.flatten, cell.Countable := by
    intro cell hcell
    obtain ⟨part, hpart, hin⟩ := List.mem_flatten.1 hcell
    exact hall part hpart cell hin
  have hmap : ∀ cell ∈ parts.map (extreme side), cell.Countable := by
    intro cell hcell
    obtain ⟨part, hpart, rfl⟩ := List.mem_map.1 hcell
    exact countable_extreme side hside (hall part hpart)
  rcases extreme_cases side hside hflat with ⟨hnull, hnone⟩ | ⟨value, hvalue, hmem, hbound⟩
  · rw [hnull, extreme_eq_null_iff side hside hmap]
    intro cell hcell
    obtain ⟨part, hpart, rfl⟩ := List.mem_map.1 hcell
    rw [extreme_eq_null_iff side hside (hall part hpart)]
    intro cell hcell
    exact hnone cell (List.mem_flatten_of_mem hpart hcell)
  · rw [hvalue, extreme_eq_integer_iff side hside hmap]
    constructor
    · obtain ⟨part, hpart, hin⟩ := List.mem_flatten.1 hmem
      have hown : extreme side part = integer value := by
        rw [extreme_eq_integer_iff side hside (hall part hpart)]
        exact ⟨hin, fun other hother => hbound other (List.mem_flatten_of_mem hpart hother)⟩
      rw [← hown]
      exact List.mem_map_of_mem hpart
    · intro other hother
      obtain ⟨part, hpart, hown⟩ := List.mem_map.1 hother
      have hin := ((extreme_eq_integer_iff side hside (hall part hpart)).1 hown).1
      exact hbound other (List.mem_flatten_of_mem hpart hin)

end Extremes

end Cell

end Sql

end TimelineStore
