import TimelineStore.Time

/-!
# Sorting by time

What a sorted list of values is can be said without an algorithm: it holds the same values, by
time, and values of one time in the order in which they were given.

**Results.**
* `filter_mergeSort`: what is kept of sorted rows is what is kept of the rows, sorted.
* `sortsStably_mergeSort`: sorting by time is stable.
* `SortsStably.filter`: leaving values out of a list leaves them out of the sorted one.
-/

namespace TimelineStore

section Filter

variable {ρ : Type} {le : ρ → ρ → Bool} {p : ρ → Bool}

/-- Where all members of a first part pass a test and none of a second does, the first part is
what passes. -/
theorem filter_append_eq_left
    {first second : List ρ}
    (hfirst : ∀ a ∈ first, p a = true)
    (hsecond : ∀ a ∈ second, p a = false) :
    (first ++ second).filter p = first := by
  rw [List.filter_append, List.filter_eq_self.2 hfirst,
    List.filter_eq_nil_iff.2 fun a ha => by simp [hsecond a ha], List.append_nil]

/-- A list parts in one way only into members that pass a test and members that do not. -/
theorem parts_unique
    {first second before after : List ρ}
    (hsame : first ++ second = before ++ after)
    (hfirst : ∀ a ∈ first, p a = true)
    (hsecond : ∀ a ∈ second, p a = false)
    (hbefore : ∀ a ∈ before, p a = true)
    (hafter : ∀ a ∈ after, p a = false) :
    first = before ∧ second = after := by
  have hleft : first = before := by
    rw [← filter_append_eq_left hfirst hsecond, hsame, filter_append_eq_left hbefore hafter]
  rw [hleft] at hsame
  exact ⟨hleft, List.append_cancel_left hsame⟩

section Line

variable
  (htrans : ∀ a b c, le a b = true → le b c = true → le a c = true)
  (htotal : ∀ a b, (le a b || le b a) = true)
include htrans htotal

/-- A row goes between the sorted rows that it does not precede and those that it precedes. -/
theorem exists_mergeSort_cons
    (row : ρ) (rows : List ρ) :
    ∃ before after,
      (row :: rows).mergeSort le = before ++ row :: after ∧
        rows.mergeSort le = before ++ after ∧
        (∀ other ∈ before, (!le row other) = true) ∧ ∀ other ∈ after, (!le row other) = false := by
  obtain ⟨before, after, hsorted, hrest, hbefore⟩ := List.mergeSort_cons htrans htotal row rows
  have hordered := List.pairwise_mergeSort htrans htotal (row :: rows)
  rw [hsorted, List.pairwise_append, List.pairwise_cons] at hordered
  refine ⟨before, after, hsorted, hrest, hbefore, fun other hother => ?_⟩
  rw [hordered.2.1.1 other hother]
  rfl

/-- **What is kept of sorted rows is what is kept of the rows, sorted.** -/
theorem filter_mergeSort
    (p : ρ → Bool) (rows : List ρ) :
    (rows.mergeSort le).filter p = (rows.filter p).mergeSort le := by
  induction rows with
  | nil => simp
  | cons row rows ih =>
      obtain ⟨before, after, hsorted, hrest, hbefore, hafter⟩ :=
        exists_mergeSort_cons htrans htotal row rows
      rw [hrest, List.filter_append] at ih
      rw [hsorted, List.filter_append]
      by_cases hkept : p row = true
      · obtain ⟨first, last, hkeptSorted, hkeptRest, hfirst, hlast⟩ :=
          exists_mergeSort_cons htrans htotal row (rows.filter p)
        obtain ⟨rfl, rfl⟩ := parts_unique (ih.trans hkeptRest).symm hfirst hlast
          (fun other hother => hbefore other (List.mem_filter.1 hother).1)
          (fun other hother => hafter other (List.mem_filter.1 hother).1)
        rw [List.filter_cons_of_pos hkept, List.filter_cons_of_pos hkept, hkeptSorted]
      · rw [List.filter_cons_of_neg hkept, List.filter_cons_of_neg hkept, ih]

end Line

end Filter

/-- The list holds the values of another by time, and values of one time in the order in which
they stand there. -/
structure SortsStably {α : Type} (time : α → Timestamp) (values sorted : List α) : Prop where
  perm : sorted.Perm values
  ordered : sorted.Pairwise fun a b => time a ≤ time b
  stable : ∀ instant,
    sorted.filter (fun a => time a = instant) = values.filter fun a => time a = instant

section Stable

variable {α : Type} (time : α → Timestamp)

theorem time_le_trans
    (a b c : α)
    (hab : decide (time a ≤ time b) = true)
    (hbc : decide (time b ≤ time c) = true) :
    decide (time a ≤ time c) = true :=
  decide_eq_true (UInt64.le_trans (of_decide_eq_true hab) (of_decide_eq_true hbc))

theorem time_le_total
    (a b : α) :
    (decide (time a ≤ time b) || decide (time b ≤ time a)) = true := by
  simpa using UInt64.le_total (time a) (time b)

/-- **Sorting by time is stable.** -/
theorem sortsStably_mergeSort
    (values : List α) :
    SortsStably time values (values.mergeSort fun a b => time a ≤ time b) where
  perm := List.mergeSort_perm values _
  ordered := by
    have hsorted := List.pairwise_mergeSort (time_le_trans time) (time_le_total time) values
    exact hsorted.imp fun hle => of_decide_eq_true hle
  stable instant := by
    -- the values of one time are sorted as they are
    rw [filter_mergeSort (time_le_trans time) (time_le_total time)]
    refine List.mergeSort_of_pairwise (List.pairwise_of_forall_mem_list fun a ha b hb => ?_)
    have hfirst : time a = instant := by simpa using (List.mem_filter.1 ha).2
    have hsecond : time b = instant := by simpa using (List.mem_filter.1 hb).2
    rw [hfirst, hsecond]
    exact decide_eq_true (UInt64.le_refl instant)

variable {time}

/-- Leaving values out of a list leaves them out of the sorted one. -/
theorem SortsStably.filter
    {values sorted : List α}
    (hsorts : SortsStably time values sorted)
    (keep : α → Bool) :
    SortsStably time (values.filter keep) (sorted.filter keep) where
  perm := hsorts.perm.filter keep
  ordered := hsorts.ordered.filter keep
  stable instant := by
    have hswap (list : List α) : (list.filter keep).filter (fun a => time a = instant) =
        (list.filter fun a => time a = instant).filter keep := by
      rw [List.filter_filter, List.filter_filter]
      exact List.filter_congr fun a _ => Bool.and_comm _ _
    rw [hswap, hswap, hsorts.stable]

end Stable

end TimelineStore
