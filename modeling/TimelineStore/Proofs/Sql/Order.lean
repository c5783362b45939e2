import Mathlib.Data.Int.Order.Basic
import Mathlib.Data.String.Basic
import Mathlib.Order.Compare
import TimelineStore.Sql.Cell

/-!
# The order of cells

Cells compare by their types, and those of one type by the number, the text or the bytes that
they hold.  Numbers of both types are compared by their places, so no rounding gets in between:
any two cells come one before the other, and what comes before a cell comes before all that
come after it.

**Results.**
* `order_eq_compareLex`: the order compares types, numbers, texts and bytes one after the other.
* `precedes_trans`, `precedes_total`: of all cells, one precedes another.
-/

namespace TimelineStore

namespace Decimal

theorem power_two_pos
    (exponent : Int) :
    0 < power 2 exponent :=
  Nat.pow_pos Nat.two_pos

theorem compare_mul_right
    {a b c : Int}
    (hpositive : 0 < c) :
    compare (a * c) (b * c) = compare a b := by
  rcases lt_trichotomy a b with hless | rfl | hgreater
  · rw [compare_lt_iff_lt.2 hless, compare_lt_iff_lt]
    exact Int.mul_lt_mul_of_pos_right hless hpositive
  · rw [compare_eq_iff_eq.2 rfl, compare_eq_iff_eq.2 rfl]
  · rw [compare_gt_iff_gt.2 hgreater, compare_gt_iff_gt]
    exact Int.mul_lt_mul_of_pos_right hgreater hpositive

/-- Whole numbers compare as their places do. -/
theorem Place.compare_ofInt
    (a b : Int) :
    (ofInt a).compare (ofInt b) = Ord.compare a b :=
  compare_mul_right (Int.natCast_pos.2 (power_two_pos _))

instance : Ord Place where
  compare := Place.compare

instance : Std.TransOrd Place :=
  inferInstanceAs (Std.TransCmp (compareLex (compareOn Place.side) (compareOn Place.multiple)))

end Decimal

namespace Sql

namespace Cell

open Decimal

/-- The place of the number in a cell; zero stands for none. -/
def place : Cell → Place
  | .integer value => .ofInt value
  | .real value => .ofFloat value
  | _ => ⟨0, 0⟩

/-- The text in a cell; the empty one stands for none. -/
def wording : Cell → String
  | .text value => value
  | _ => ""

/-- The bytes in a cell; there are none but in a blob. -/
def content : Cell → List UInt8
  | .blob bytes => bytes
  | _ => []

theorem text_order_text
    (a b : String) :
    (text a).order (text b) = compare a b := by
  simp only [Cell.order]
  rcases lt_trichotomy a b with hless | rfl | hgreater
  · rw [if_pos hless, compare_lt_iff_lt.2 hless]
  · rw [if_neg (lt_irrefl a), if_neg (lt_irrefl a), compare_eq_iff_eq.2 rfl]
  · rw [if_neg hgreater.asymm, if_pos hgreater, compare_gt_iff_gt.2 hgreater]

theorem compareBytes_eq_compare
    (a b : List UInt8) :
    compareBytes a b = compare a b := by
  induction a, b using compareBytes.induct with
  | case1 => rfl
  | case2 => rfl
  | case3 => rfl
  | case4 a as b bs hless =>
      have hhead : compare a b = .lt := Std.compare_eq_lt.2 hless
      rw [compareBytes, if_pos hless, List.compare_cons_cons, hhead]
      rfl
  | case5 a as b bs hnot hgreater =>
      have hhead : compare a b = .gt := Std.compare_eq_gt.2 hgreater
      rw [compareBytes, if_neg hnot, if_pos hgreater, List.compare_cons_cons, hhead]
      rfl
  | case6 a as b bs hnot hother ih =>
      obtain rfl : a = b := UInt8.le_antisymm (UInt8.not_lt.1 hother) (UInt8.not_lt.1 hnot)
      rw [compareBytes, if_neg hnot, if_neg hnot, List.compare_cons_cons, Std.compare_self, ih]
      rfl

theorem order_of_rank_ne
    {a b : Cell}
    (hrank : a.rank ≠ b.rank) :
    a.order b = compare a.rank b.rank := by
  cases a <;> cases b <;> first | rfl | exact absurd rfl hrank

/-- Two cells of one type compare by what they hold. -/
theorem order_of_rank_eq :
    ∀ {a b : Cell}, a.rank = b.rank →
      a.order b = (compare a.place b.place).then
        ((compare a.wording b.wording).then (compare a.content b.content))
  | .null, .null, _ => rfl
  | .integer a, .integer b, _ => (Ordering.then_eq.trans (Place.compare_ofInt a b)).symm
  | .integer _, .real _, _ => Ordering.then_eq.symm
  | .real _, .integer _, _ => Ordering.then_eq.symm
  | .real _, .real _, _ => Ordering.then_eq.symm
  | .text a, .text b, _ => (text_order_text a b).trans Ordering.then_eq.symm
  | .blob a, .blob b, _ => compareBytes_eq_compare a b

/-- **Cells compare by their types**, and those of one type by what they hold. -/
theorem order_eq_compareLex :
    order = compareLex (compareOn rank) (compareLex (compareOn place)
      (compareLex (compareOn wording) (compareOn content))) := by
  funext a b
  simp only [compareLex, compareOn]
  by_cases hrank : a.rank = b.rank
  · rw [order_of_rank_eq hrank, hrank, Std.compare_self, Ordering.eq_then]
  · rw [order_of_rank_ne hrank]
    cases hcompare : compare a.rank b.rank with
    | eq => exact absurd (compare_eq_iff_eq.1 hcompare) hrank
    | lt => rfl
    | gt => rfl

instance : Std.TransCmp order := by
  rw [order_eq_compareLex]
  infer_instance

theorem precedes_iff
    {a b : Cell} :
    a.precedes b = true ↔ (a.order b).isLE = true := by
  cases hcompare : a.order b <;> simp [precedes, hcompare]

theorem precedes_trans
    (a b c : Cell)
    (hfirst : a.precedes b = true)
    (hsecond : b.precedes c = true) :
    a.precedes c = true :=
  precedes_iff.2 (Std.TransCmp.isLE_trans (precedes_iff.1 hfirst) (precedes_iff.1 hsecond))

theorem precedes_total
    (a b : Cell) :
    (a.precedes b || b.precedes a) = true := by
  have hswap : b.order a = (a.order b).swap := Std.OrientedCmp.eq_swap
  cases hcompare : a.order b <;> simp [precedes, hcompare, hswap]

end Cell

end Sql

end TimelineStore
