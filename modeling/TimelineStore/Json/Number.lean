import TimelineStore.Json.Value

/-!
# Reading JSON numbers

A whole number stays whole while it fits 64 bits, signed below zero and
unsigned above.  Any other number becomes a floating-point number: the digits
are gathered into a significand of 64 bits, digits beyond it only move the
exponent or are dropped, and the significand is scaled by a power of ten.  A
number too large for a finite result is refused; one too small becomes zero.
-/

namespace TimelineStore.JsonNumber

/-- The value of a decimal digit. -/
def digitValue (c : Char) : Nat :=
  c.toNat - '0'.toNat

/-- Digits gathered into a significand, how many it took and how many it did not. -/
structure Gathered where
  significand : Nat
  taken : Nat
  dropped : Nat
deriving DecidableEq

/-- Takes a digit while the significand fits 64 bits; after the first digit that does not
fit, none is taken. -/
def Gathered.take (gathered : Gathered) (c : Char) : Gathered :=
  let next := gathered.significand * 10 + digitValue c
  if gathered.dropped = 0 ∧ next < UInt64.size then
    { gathered with significand := next, taken := gathered.taken + 1 }
  else
    { gathered with dropped := gathered.dropped + 1 }

/-- Gathers digits onto a significand. -/
def gather (significand : Nat) (digits : List Char) : Gathered :=
  digits.foldl Gathered.take ⟨significand, 0, 0⟩

/-- The largest power of ten that a scaling step uses. -/
def stepExponent : Nat := 308

/-- Ten to the `n`. -/
def tenTo (n : Nat) : Float :=
  Float.ofScientific 1 false n

/-- `x * 10 ^ exponent`, if that is finite.  One multiplication or division does it, after
divisions by the largest power for an exponent far below zero. -/
def scale (x : Float) (exponent : Int) : Option Float :=
  if _ : exponent.natAbs ≤ stepExponent then
    if 0 ≤ exponent then
      let scaled := x * tenTo exponent.natAbs
      if scaled.isInf then none else some scaled
    else
      some (x / tenTo exponent.natAbs)
  else if x == 0.0 then
    some x
  else if _ : exponent < 0 then
    scale (x / tenTo stepExponent) (exponent + stepExponent)
  else
    none
termination_by exponent.natAbs
decreasing_by
  simp only [stepExponent] at *
  omega

/-- The floating-point number with a sign, a significand and an exponent. -/
def realOf (negative : Bool) (significand : Nat) (exponent : Int) : Option JsonNumber :=
  (scale significand.toUInt64.toFloat exponent).map fun x => .real (if negative then -x else x)

/-- The number that digits alone stand for. -/
def wholeOf (negative : Bool) (digits : Gathered) : Option JsonNumber :=
  if digits.dropped ≠ 0 then
    realOf negative digits.significand digits.dropped
  else if !negative then
    some (.whole digits.significand)
  else if digits.significand = 0 ∨ UInt64.size / 2 < digits.significand then
    realOf negative digits.significand 0
  else
    some (.whole (-digits.significand))

/-- Splits off a run of digits. -/
def splitDigits (cs : List Char) : List Char × List Char :=
  (cs.takeWhile Char.isDigit, cs.dropWhile Char.isDigit)

/-- The digits of a whole part: a zero alone, or digits that do not start with one. -/
def splitWhole? (cs : List Char) : Option (List Char × List Char) :=
  match splitDigits cs with
  | ([], _) => none
  | ('0' :: _ :: _, _) => none
  | split => some split

/-- The exponent after its mark: an optional sign and at least one digit. -/
def readExponent? (cs : List Char) : Option (Int × List Char) :=
  let (negative, unsigned) :=
    match cs with
    | '-' :: rest => (true, rest)
    | '+' :: rest => (false, rest)
    | _ => (false, cs)
  match splitDigits unsigned with
  | ([], _) => none
  | (digits, rest) =>
    let value : Nat := digits.foldl (fun n c => n * 10 + digitValue c) 0
    some (if negative then -value else value, rest)

/-- What follows the digits: an exponent, or nothing of the number. -/
def readScaled (negative : Bool) (significand : Nat) (exponent : Int) (cs : List Char) :
    Option (JsonNumber × List Char) :=
  match cs with
  | 'e' :: rest | 'E' :: rest =>
    match readExponent? rest with
    | none => none
    | some (more, rest) => (realOf negative significand (exponent + more)).map (·, rest)
  | _ => (realOf negative significand exponent).map (·, cs)

/-- A number without its sign at the front of a text, and the rest of the text. -/
def readUnsigned? (negative : Bool) (cs : List Char) : Option (JsonNumber × List Char) :=
  match splitWhole? cs with
  | none => none
  | some (digits, rest) =>
    let whole := gather 0 digits
    match rest with
    | '.' :: rest =>
      match splitDigits rest with
      | ([], _) => none
      | (digits, rest) =>
        let fraction := gather whole.significand digits
        readScaled negative fraction.significand (whole.dropped - fraction.taken) rest
    | 'e' :: _ | 'E' :: _ => readScaled negative whole.significand whole.dropped rest
    | _ => (wholeOf negative whole).map (·, rest)

/-- A number at the front of a text, and the rest of the text. -/
def read? : List Char → Option (JsonNumber × List Char)
  | '-' :: rest => readUnsigned? true rest
  | cs => readUnsigned? false cs

/-- The number that a text is, if it is one and nothing else. -/
def ofText? (text : String) : Option JsonNumber :=
  match read? text.toList with
  | some (number, []) => some number
  | _ => none

end TimelineStore.JsonNumber
