import TimelineStore.Decimal.Binary

/-!
# Decimal forms of a floating-point number

`Numeral` is a whole multiple of a power of ten.  `shortestOf` finds the one with
the fewest digits among those that read back as the number, and of these the
nearest.
-/

namespace TimelineStore.Decimal

/-- The number `coefficient * 10 ^ exponent`. -/
structure Numeral where
  coefficient : Nat
  exponent : Int
deriving DecidableEq

namespace Numeral

/-- The digits of the coefficient, the highest first. -/
def digits (numeral : Numeral) : List Char :=
  Nat.toDigits 10 numeral.coefficient

/-- Where the decimal point stands, counted in digits from the front. -/
def point (numeral : Numeral) : Int :=
  numeral.digits.length + numeral.exponent

/-- Moves trailing zeros of a coefficient into the exponent, at most `fuel` of them. -/
def trimFrom : Nat → Numeral → Numeral
  | 0, numeral => numeral
  | fuel + 1, numeral =>
    if numeral.coefficient ≠ 0 ∧ numeral.coefficient % 10 = 0 then
      trimFrom fuel ⟨numeral.coefficient / 10, numeral.exponent + 1⟩
    else
      numeral

/-- The same number with no trailing zero in its coefficient. -/
def trim (numeral : Numeral) : Numeral :=
  trimFrom numeral.digits.length numeral

/-- Zero, with one digit. -/
def zero : Numeral :=
  ⟨0, 0⟩

end Numeral

/-- How many digits a natural number has. -/
def digitCount (n : Nat) : Nat :=
  (Nat.toDigits 10 n).length

/-- The power of ten of the leading digit of `mantissa * 2 ^ exponent`. -/
def leadingPower (mantissa : Nat) (exponent : Int) : Int :=
  let numerator := mantissa * power 2 exponent
  let denominator := power 2 (-exponent)
  let guess : Int := digitCount numerator - digitCount denominator
  if compareScaled 1 guess mantissa exponent = .gt then guess - 1 else guess

/-- The largest multiple of `10 ^ k` that does not exceed `mantissa * 2 ^ exponent`. -/
def floorAt (mantissa : Nat) (exponent : Int) (k : Int) : Nat :=
  mantissa * power 2 exponent * power 10 (-k) / (power 2 (-exponent) * power 10 k)

/-- The decimal `a * 10 ^ k` reads back as `mantissa * 2 ^ exponent`: no other floating-point
number is nearer, and at equal distance the one with an even mantissa is taken. -/
def readsBack (mantissa : Nat) (exponent : Int) (a : Nat) (k : Int) : Bool :=
  let below :=
    if mantissa = Magnitude.implicitBit ∧ exponent ≠ Magnitude.leastExponent then 1 else 2
  let even := mantissa % 2 = 0
  let low := compareScaled a k (4 * mantissa - below) (exponent - 2)
  let high := compareScaled a k (4 * mantissa + 2) (exponent - 2)
  (low = .gt || (even && low = .eq)) && (high = .lt || (even && high = .eq))

/-- Which of two neighbours a number half way between them goes to. -/
inductive Tie where
  | toEven
  | up
deriving DecidableEq

/-- The neighbour of `a` and `a + 1` that a tie goes to. -/
def Tie.resolve : Tie → Nat → Nat
  | .toEven, a => if a % 2 = 0 then a else a + 1
  | .up, a => a + 1

/-- Of two neighbours `a` and `a + 1` on the grid of `10 ^ k`, the one nearer to
`mantissa * 2 ^ exponent`. -/
def nearer (tie : Tie) (mantissa : Nat) (exponent : Int) (a : Nat) (k : Int) : Nat :=
  match compareScaled (2 * a + 1) k (2 * mantissa) exponent with
  | .gt => a
  | .lt => a + 1
  | .eq => tie.resolve a

/-- A decimal with at most `count` digits that reads back as `mantissa * 2 ^ exponent`: one of
the two neighbours on the grid of that many digits, the nearer one if both do. -/
def withDigits? (tie : Tie) (mantissa : Nat) (exponent : Int) (count : Nat) : Option Numeral :=
  let k := leadingPower mantissa exponent - (count - 1 : Nat)
  let a := floorAt mantissa exponent k
  match readsBack mantissa exponent a k, readsBack mantissa exponent (a + 1) k with
  | true, true => some ⟨nearer tie mantissa exponent a k, k⟩
  | true, false => some ⟨a, k⟩
  | false, true => some ⟨a + 1, k⟩
  | false, false => none

/-- The shortest decimal that reads back as `mantissa * 2 ^ exponent`; seventeen digits
always do. -/
def shortestOf (tie : Tie) (mantissa : Nat) (exponent : Int) : Numeral :=
  let k := leadingPower mantissa exponent - 16
  let last : Numeral := ⟨nearer tie mantissa exponent (floorAt mantissa exponent k) k, k⟩
  let counts := (List.range 17).map (· + 1)
  ((counts.findSome? (withDigits? tie mantissa exponent)).getD last).trim

/-- The floating-point number nearest to a decimal. -/
def Numeral.toFloat (numeral : Numeral) : Float :=
  let top := numeral.point
  if numeral.coefficient = 0 ∨ top < -400 then
    0.0
  else if 400 < top then
    1.0 / 0.0
  else if numeral.exponent < 0 then
    Float.ofScientific numeral.coefficient true (-numeral.exponent).toNat
  else
    Float.ofScientific numeral.coefficient false numeral.exponent.toNat

end TimelineStore.Decimal
