import TimelineStore.Decimal.Shortest

/-!
# Extended numbers

An extended number is a whole multiple of a power of two whose multiple takes at
most 64 bits.  A product of two is rounded to the nearest one, and half way
between two to the even one.  Scaling by a power of ten goes in steps of a
hundred, ten and one decimal places, each a rounded product, so that the last
digits show the order of the steps.
-/

namespace TimelineStore.Decimal

/-- The whole number nearest to `n / 2 ^ bits`; half way between two, the even one. -/
def roundedShift (n bits : Nat) : Nat :=
  let low := n >>> bits
  match compare (2 * (n % (1 <<< bits))) (1 <<< bits) with
  | .lt => low
  | .gt => low + 1
  | .eq => if low % 2 = 0 then low else low + 1

/-- How many bits a natural number takes. -/
def bitCount (n : Nat) : Nat :=
  if n = 0 then 0 else n.log2 + 1

/-- The floating-point number nearest to `n * 2 ^ exponent`; half way between two, the one
with an even mantissa. -/
def nearestFloat (n : Nat) (exponent : Int) : Float :=
  if n = 0 then
    0.0
  else
    let least := max Magnitude.leastExponent (exponent + bitCount n - 53)
    let mantissa :=
      if least ≤ exponent then n <<< (exponent - least).toNat
      else roundedShift n (least - exponent).toNat
    let bits := (least - Magnitude.leastExponent).toNat * Magnitude.implicitBit + mantissa
    Float.ofBits (UInt64.ofNat (min bits (2047 * Magnitude.implicitBit)))

/-- The number `mantissa * 2 ^ exponent`. -/
structure Extended where
  mantissa : Nat
  exponent : Int
deriving DecidableEq

namespace Extended

/-- The bits of a mantissa. -/
def width : Nat := 64

/-- The extended number nearest to `n * 2 ^ exponent`. -/
def nearest (n : Nat) (exponent : Int) : Extended :=
  let excess := bitCount n - width
  ⟨roundedShift n excess, exponent + excess⟩

/-- The rounded product. -/
def mul (a b : Extended) : Extended :=
  nearest (a.mantissa * b.mantissa) (a.exponent + b.exponent)

/-- The extended number nearest to `10 ^ places`. -/
def tenTo (places : Nat) : Extended :=
  nearest (Nat.pow 10 places) 0

/-- The extended number nearest to `1 / 10 ^ places`.  The quotient is taken with more bits
than a mantissa has and a last bit that is set when some remainder is left, which decides
the rounding as the whole quotient would. -/
def tenthTo (places : Nat) : Extended :=
  let divisor := Nat.pow 10 places
  let bits := bitCount divisor + width + 2
  let quotient := (1 <<< bits) / divisor
  let rest := if (1 <<< bits) % divisor = 0 then 0 else 1
  nearest (2 * quotient + rest) (-(bits + 1 : Nat))

/-- Compares two extended numbers. -/
def compareTo (a b : Extended) : Ordering :=
  let least := min a.exponent b.exponent
  compare (a.mantissa <<< (a.exponent - least).toNat)
    (b.mantissa <<< (b.exponent - least).toNat)

/-- The whole part. -/
def floor (a : Extended) : Nat :=
  if 0 ≤ a.exponent then a.mantissa <<< a.exponent.toNat
  else a.mantissa >>> (-a.exponent).toNat

/-- The largest finite floating-point number. -/
def greatestFinite : Extended :=
  ⟨(1 <<< 53) - 1, 971⟩

/-- The nearest floating-point number; whatever exceeds all finite ones is infinite. -/
def toFloat (a : Extended) : Float :=
  if a.compareTo greatestFinite = .gt then 1.0 / 0.0 else nearestFloat a.mantissa a.exponent

section Scaling

/-- The product with a factor, taken so many times. -/
def mulTimes (factor : Extended) : Nat → Extended → Extended
  | 0, a => a
  | times + 1, a => mulTimes factor times (a.mul factor)

/-- The number scaled by `10 ^ places`: first by hundreds of places, then by tens, then one
by one. -/
def scale (a : Extended) (places : Int) : Extended :=
  let count := places.natAbs
  let power := if places < 0 then tenthTo else tenTo
  mulTimes (power 1) (count % 10)
    (mulTimes (power 10) (count % 100 / 10) (mulTimes (power 100) (count / 100) a))

/-- Multiplies by a factor while a condition holds, at most `fuel` times.  Gives how often
that was. -/
def mulWhile (condition : Extended → Bool) (factor : Extended) :
    (fuel : Nat) → Extended → Nat × Extended
  | 0, a => (0, a)
  | fuel + 1, a =>
    if condition a then
      let (times, a) := mulWhile condition factor fuel (a.mul factor)
      (times + 1, a)
    else
      (0, a)

/-- No finite floating-point number needs more steps of one size. -/
def stepLimit : Nat := 20

/-- The number is at least `10 ^ places`. -/
def reaches (places : Nat) (a : Extended) : Bool :=
  a.compareTo (tenTo places) ≠ .lt

/-- The number as a decimal of 18 or 19 digits; what lies below its last digit is cut off. -/
def toNumeral (a : Extended) : Numeral :=
  if a.reaches 19 then
    let (hundreds, a) := mulWhile (reaches 119) (tenthTo 100) stepLimit a
    let (tens, a) := mulWhile (reaches 29) (tenthTo 10) stepLimit a
    let (ones, a) := mulWhile (reaches 19) (tenthTo 1) stepLimit a
    ⟨a.floor, (100 * hundreds + 10 * tens + ones : Nat)⟩
  else
    let isTiny (a : Extended) : Bool := a.compareTo (tenthTo 97) = .lt
    let (hundreds, a) := mulWhile isTiny (tenTo 100) stepLimit a
    let (tens, a) := mulWhile (!reaches 7 ·) (tenTo 10) stepLimit a
    let (ones, a) := mulWhile (!reaches 17 ·) (tenTo 1) stepLimit a
    ⟨a.floor, -(100 * hundreds + 10 * tens + ones : Nat)⟩

end Scaling

end Extended

/-- A decimal cut to a number of digits; it is rounded up when the first digit cut off is
five or more. -/
def Numeral.cut (numeral : Numeral) (count : Nat) : Numeral :=
  let excess := numeral.digits.length - count
  if excess = 0 then
    numeral
  else
    ⟨(numeral.coefficient / Nat.pow 10 (excess - 1) + 5) / 10, numeral.exponent + excess⟩

/-- A decimal of at most `count` digits for `mantissa * 2 ^ exponent`, by way of an extended
number scaled to 18 or 19 digits. -/
def scaledOf (mantissa : Nat) (exponent : Int) (count : Nat) : Numeral :=
  ((Extended.toNumeral ⟨mantissa, exponent⟩).cut count).trim

end TimelineStore.Decimal
