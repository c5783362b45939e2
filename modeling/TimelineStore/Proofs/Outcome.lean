import Mathlib.Data.List.Forall2

/-!
# Lists of outcomes

An operation applied along a list ends with the first failure, or with one value per
member.  `mapM_eq_ok_iff` says so as a relation between the two lists, from which
lengths and members are read off.
-/

namespace TimelineStore

namespace Outcome

universe u

variable {ε α β : Type u}

theorem bind_eq_ok_iff
    {first : Except ε α} {next : α → Except ε β} {value : β} :
    first >>= next = .ok value ↔
      ∃ middle, first = .ok middle ∧ next middle = .ok value := by
  cases first with
  | error failure => simp [bind, Except.bind]
  | ok middle => simp [bind, Except.bind]

theorem map_eq_ok_iff
    {change : α → β} {outcome : Except ε α} {value : β} :
    outcome.map change = .ok value ↔ ∃ before, outcome = .ok before ∧ change before = value := by
  cases outcome <;> simp [Except.map]

theorem map_eq_error_iff
    {change : α → β} {outcome : Except ε α} {failure : ε} :
    outcome.map change = .error failure ↔ outcome = .error failure := by
  cases outcome <;> simp [Except.map]

variable {f : α → Except ε β}

theorem toOption_eq_some_iff
    {outcome : Except ε α} {value : α} :
    outcome.toOption = some value ↔ outcome = .ok value := by
  cases outcome <;> simp [Except.toOption]

theorem mapM_cons_eq_ok_iff
    {x : α} {xs : List α} {ys : List β} :
    (x :: xs).mapM f = .ok ys ↔
      ∃ y rest, f x = .ok y ∧ xs.mapM f = .ok rest ∧ ys = y :: rest := by
  rw [List.mapM_cons]
  simp only [bind_eq_ok_iff, pure, Except.pure, Except.ok.injEq]
  constructor
  · rintro ⟨y, hy, rest, hrest, rfl⟩
    exact ⟨y, rest, hy, hrest, rfl⟩
  · rintro ⟨y, rest, hy, hrest, rfl⟩
    exact ⟨y, hy, rest, hrest, rfl⟩

/-- All members succeed, and the values are theirs in order. -/
theorem mapM_eq_ok_iff
    {xs : List α} {ys : List β} :
    xs.mapM f = .ok ys ↔ List.Forall₂ (fun x y => f x = .ok y) xs ys := by
  induction xs generalizing ys with
  | nil =>
      rw [List.mapM_nil, List.forall₂_nil_left_iff]
      simp only [pure, Except.pure, Except.ok.injEq]
      exact eq_comm
  | cons x xs ih =>
      rw [mapM_cons_eq_ok_iff, List.forall₂_cons_left_iff]
      constructor
      · rintro ⟨y, rest, hy, hrest, rfl⟩
        exact ⟨y, rest, hy, ih.1 hrest, rfl⟩
      · rintro ⟨y, rest, hy, hrest, rfl⟩
        exact ⟨y, rest, hy, ih.2 hrest, rfl⟩

/-- The value of a member stands at its place among the values. -/
theorem exists_mem_zip
    {xs : List α} {ys : List β} {x : α}
    (hall : xs.mapM f = .ok ys)
    (hx : x ∈ xs) :
    ∃ y, f x = .ok y ∧ (x, y) ∈ xs.zip ys := by
  have heach := mapM_eq_ok_iff.1 hall
  clear hall
  induction heach with
  | nil => cases hx
  | cons hy _ ih =>
      rcases List.mem_cons.1 hx with rfl | hx
      · exact ⟨_, hy, List.mem_cons_self⟩
      · obtain ⟨y, hvalue, hmem⟩ := ih hx
        exact ⟨y, hvalue, List.mem_cons_of_mem _ hmem⟩

/-- A value is that of a member. -/
theorem exists_of_mem_values
    {xs : List α} {ys : List β} {y : β}
    (hall : xs.mapM f = .ok ys)
    (hy : y ∈ ys) :
    ∃ x ∈ xs, f x = .ok y := by
  have heach := mapM_eq_ok_iff.1 hall
  clear hall
  induction heach with
  | nil => cases hy
  | @cons x value xs values hvalue _ ih =>
      rcases List.mem_cons.1 hy with rfl | hy
      · exact ⟨x, List.mem_cons_self, hvalue⟩
      · obtain ⟨other, hmem, hother⟩ := ih hy
        exact ⟨other, List.mem_cons_of_mem _ hmem, hother⟩

theorem exists_mapM_eq_ok
    {xs : List α}
    (hall : ∀ x ∈ xs, ∃ y, f x = .ok y) :
    ∃ ys, xs.mapM f = .ok ys := by
  induction xs with
  | nil => exact ⟨[], rfl⟩
  | cons x xs ih =>
      obtain ⟨y, hy⟩ := hall x List.mem_cons_self
      obtain ⟨rest, hrest⟩ := ih fun z hz => hall z (List.mem_cons_of_mem x hz)
      exact ⟨y :: rest, mapM_cons_eq_ok_iff.2 ⟨y, rest, hy, hrest, rfl⟩⟩

/-- If each member of a list succeeds as its image, so does the list of the images. -/
theorem mapM_map_eq_ok
    {γ : Type u}
    {image : γ → α} {value : γ → β} {xs : List γ}
    (hall : ∀ x ∈ xs, f (image x) = .ok (value x)) :
    (xs.map image).mapM f = .ok (xs.map value) := by
  rw [mapM_eq_ok_iff, List.forall₂_map_left_iff, List.forall₂_map_right_iff, List.forall₂_same]
  exact hall

end Outcome

end TimelineStore
