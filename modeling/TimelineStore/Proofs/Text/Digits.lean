import Mathlib.Algebra.Group.Int.Defs
import TimelineStore.Text.Digits

/-!
# Whole numbers in digits

A whole number that fits 64 signed bits is what its own text is read as.

**Results.**
* `integer?_toString`: `Text.integer?` undoes `toString`.
-/

namespace TimelineStore

namespace Text

theorem digits?_toDigits (n : Nat) : digits? (Nat.toDigits 10 n) = some n := by
  have hall : (Nat.toDigits 10 n).all Char.isDigit = true := by
    rw [List.all_eq_true]
    intro c hc
    exact Nat.isDigit_of_mem_toDigits (by omega) (by omega) hc
  have hvalue :
      (Nat.toDigits 10 n).foldl (fun value c => value * 10 + (c.toNat - '0'.toNat)) 0 = n := by
    have hdigits := Nat.ofDigitChars_ten_toDigits (n := n)
    rw [Nat.ofDigitChars_eq_foldl] at hdigits
    simpa only [Nat.mul_comm] using hdigits
  unfold digits?
  rw [hall, hvalue]
  simp [Nat.toDigits_ne_nil]

/-- A text without a sign is read as its digits. -/
theorem integer?_of_digits
    {text : String} {n : Nat}
    (hdigits : digits? text.toList = some n)
    (hless : (n : Int) < 2 ^ 63) :
    integer? text = some (n : Int) := by
  have hlow : Int64.minValue.toInt ≤ (n : Int) := by
    rw [Int64.toInt_minValue]
    omega
  have hhigh : (n : Int) ≤ Int64.maxValue.toInt := by
    rw [Int64.toInt_maxValue]
    omega
  unfold integer?
  split
  · next hlist => simp [hlist, digits?] at hdigits
  · next hlist => simp [hlist, digits?] at hdigits
  · simp only [hdigits, Option.pure_def, Option.bind_eq_bind, Option.bind_some, Option.map_some,
      Option.filter_some, hlow, hhigh, decide_true, Bool.and_self, if_true]

/-- A text with a minus sign is read as the negative of its digits. -/
theorem integer?_of_minus
    {text : String} {cs : List Char} {n : Nat}
    (htext : text.toList = '-' :: cs)
    (hdigits : digits? cs = some n)
    (hbound : -(2 ^ 63) ≤ -(n : Int)) :
    integer? text = some (-(n : Int)) := by
  have hlow : Int64.minValue.toInt ≤ -(n : Int) := by
    rw [Int64.toInt_minValue]
    omega
  have hhigh : -(n : Int) ≤ Int64.maxValue.toInt := by
    rw [Int64.toInt_maxValue]
    omega
  unfold integer?
  simp only [htext, hdigits, Option.pure_def, Option.bind_eq_bind, Option.bind_some,
    Option.map_some, Option.filter_some, hlow, hhigh, decide_true, Bool.and_self, if_true]

theorem integer?_toString
    (value : Int)
    (hlow : -(2 ^ 63) ≤ value)
    (hhigh : value < 2 ^ 63) :
    integer? (toString value) = some value := by
  rw [Int.toString_eq_repr, Int.repr_eq_if]
  by_cases hsign : 0 ≤ value
  · have hvalue : (value.toNat : Int) = value := Int.toNat_of_nonneg hsign
    rw [if_pos hsign]
    have hread : integer? value.toNat.repr = some (value.toNat : Int) := by
      refine integer?_of_digits ?_ (by omega)
      rw [Nat.toList_repr, digits?_toDigits]
    rw [hread, hvalue]
  · have hvalue : -((-value).toNat : Int) = value := by
      omega
    rw [if_neg hsign]
    have hread :
        integer? ("-" ++ (-value).toNat.repr) = some (-((-value).toNat : Int)) := by
      refine integer?_of_minus ?_ (digits?_toDigits _) (by omega)
      rw [String.toList_append, Nat.toList_repr]
      rfl
    rw [hread, hvalue]

end Text

end TimelineStore
