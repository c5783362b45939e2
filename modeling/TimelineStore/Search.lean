/-!
# Search by halving

`firstFrom` finds where a condition begins to hold among positions at which,
once it holds, it goes on to hold.
-/

namespace TimelineStore.Search

/-- The least position from `low` on, below `high`, at which `reached` holds, or `high`. -/
def firstFrom (reached : Nat → Bool) (low high : Nat) : Nat :=
  if low < high then
    let middle := (low + high) / 2
    if reached middle then firstFrom reached low middle
    else firstFrom reached (middle + 1) high
  else
    low
termination_by high - low

theorem firstFrom_le (reached : Nat → Bool) {low high : Nat} (ordered : low ≤ high) :
    firstFrom reached low high ≤ high := by
  fun_induction firstFrom reached low high with
  | case1 low high less middle found ih =>
      have := ih (by omega)
      omega
  | case2 low high less middle missed ih => exact ih (by omega)
  | case3 low high done => exact ordered

theorem le_firstFrom (reached : Nat → Bool) {low high : Nat} :
    low ≤ firstFrom reached low high := by
  fun_induction firstFrom reached low high with
  | case1 low high less middle found ih => exact ih
  | case2 low high less middle missed ih => omega
  | case3 low high done => exact Nat.le_refl _

end TimelineStore.Search
