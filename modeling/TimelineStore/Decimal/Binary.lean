/-!
# Floating-point numbers as exact fractions

A finite 64-bit floating-point number is a whole multiple of a power of two.
`Magnitude.ofFloat` reads sign, multiple and power off the bits, so that the
decimal forms of a number can be chosen in exact arithmetic on natural numbers.
All of them are multiples of the least power, by which they are compared with
each other and with whole numbers.
-/

namespace TimelineStore.Decimal

/-- What a floating-point number is, apart from its sign. -/
inductive Magnitude where
  | notANumber
  | infinite
  | zero
  /-- The number `mantissa * 2 ^ exponent`. -/
  | finite (mantissa : Nat) (exponent : Int)
deriving DecidableEq

namespace Magnitude

/-- The mantissa of normal numbers starts here; smaller ones are subnormal. -/
def implicitBit : Nat := 1 <<< 52

/-- The exponent of the subnormal numbers. -/
def leastExponent : Int := -1074

/-- The bits below the sign, taken apart. -/
def ofFloat (x : Float) : Magnitude :=
  let bits := x.toBits.toNat
  let fraction := bits % implicitBit
  let biased := bits / implicitBit % 2048
  if biased = 2047 then
    if fraction = 0 then .infinite else .notANumber
  else if biased = 0 then
    if fraction = 0 then .zero else .finite fraction leastExponent
  else
    .finite (implicitBit + fraction) (leastExponent + (biased - 1 : Nat))

end Magnitude

/-- The sign bit is set. -/
def isNegative (x : Float) : Bool :=
  1 <<< 63 ≤ x.toBits.toNat

/-- A power with a negative exponent counted as zero; with `exponent` negated it is
the denominator that belongs to it. -/
def power (base : Nat) (exponent : Int) : Nat :=
  Nat.pow base exponent.toNat

/-- Where a number stands among all numbers: past the finite ones on one side, or among them
at a multiple of the least power of two.  What is no number stands before all others. -/
structure Place where
  side : Int
  multiple : Int

namespace Place

/-- The place of a whole number. -/
def ofInt (value : Int) : Place :=
  ⟨0, value * power 2 (-Magnitude.leastExponent)⟩

/-- The place of a floating-point number. -/
def ofFloat (x : Float) : Place :=
  match Magnitude.ofFloat x with
  | .notANumber => ⟨-2, 0⟩
  | .infinite => ⟨if isNegative x then -1 else 1, 0⟩
  | .zero => ⟨0, 0⟩
  | .finite mantissa exponent =>
    let multiple : Int := mantissa * power 2 (exponent - Magnitude.leastExponent)
    ⟨0, if isNegative x then -multiple else multiple⟩

/-- Compares two places. -/
def compare (a b : Place) : Ordering :=
  (Ord.compare a.side b.side).then (Ord.compare a.multiple b.multiple)

end Place

/-- Compares `a * 10 ^ k` with `b * 2 ^ q` exactly. -/
def compareScaled (a : Nat) (k : Int) (b : Nat) (q : Int) : Ordering :=
  compare (a * power 10 k * power 2 (-q)) (b * power 2 q * power 10 (-k))

end TimelineStore.Decimal
