import TimelineStore.Decimal.Extended

/-!
# Numbers at the front of a text

A text counts as the number that its front spells: blanks are skipped, then the
longest numeral is taken, and a text that starts with none counts as zero.  The
digits are gathered into a significand of 64 bits, which is then scaled in
extended numbers; so the result is not always the nearest floating-point number.
-/

namespace TimelineStore.Sql

open TimelineStore.Decimal (Extended)

/-- Blanks that may stand before a number. -/
def isBlank (c : Char) : Bool :=
  c = ' ' || c = '\t' || c = '\n' || c = '\r' || c = '\x0b' || c = '\x0c'

/-- A sign at the front, and the rest. -/
def splitSign : List Char → Bool × List Char
  | '-' :: rest => (true, rest)
  | '+' :: rest => (false, rest)
  | cs => (false, cs)

/-- The value of a decimal digit. -/
def digitValue (c : Char) : Nat :=
  c.toNat - '0'.toNat

/-- The number `significand * 10 ^ exponent`. -/
structure Scaled where
  significand : Nat
  exponent : Int
deriving DecidableEq

namespace Scaled

/-- From here on a significand takes no further digit. -/
def full : Nat := (UInt64.size - 10) / 10

/-- Takes a digit before the point; a full significand takes its place only. -/
def takeWhole (number : Scaled) (c : Char) : Scaled :=
  if number.significand < full then ⟨number.significand * 10 + digitValue c, number.exponent⟩
  else ⟨number.significand, number.exponent + 1⟩

/-- Takes a digit after the point; a full significand drops it. -/
def takeFraction (number : Scaled) (c : Char) : Scaled :=
  if number.significand < full then
    ⟨number.significand * 10 + digitValue c, number.exponent - 1⟩
  else
    number

/-- Moves places from the exponent into the significand while it has room for them. -/
def widen (number : Scaled) : Scaled :=
  if 0 < number.exponent ∧ number.significand < (UInt64.size - 1) / 10 then
    widen ⟨number.significand * 10, number.exponent - 1⟩
  else
    number
termination_by number.exponent.toNat

/-- Moves trailing zeros of the significand into a negative exponent. -/
def narrow (number : Scaled) : Scaled :=
  if number.exponent < 0 ∧ number.significand % 10 = 0 then
    narrow ⟨number.significand / 10, number.exponent + 1⟩
  else
    number
termination_by (-number.exponent).toNat

/-- The floating-point number that it counts as. -/
def toFloat (number : Scaled) : Float :=
  if number.significand = 0 then
    0.0
  else
    let number := number.widen.narrow
    ((Extended.mk number.significand 0).scale number.exponent).toFloat

end Scaled

/-- The exponent at the front, zero where there is none that is complete.  One of more than
five digits counts as ten thousand. -/
def exponentOf : List Char → Int
  | mark :: rest =>
    if mark = 'e' || mark = 'E' then
      let (negative, rest) := splitSign rest
      let value : Nat := (rest.takeWhile Char.isDigit).foldl
        (fun value c => if value < 10000 then value * 10 + digitValue c else 10000) 0
      if negative then -value else value
    else
      0
  | [] => 0

/-- The number at the front of a text. -/
def leadingReal (cs : List Char) : Float :=
  let (negative, rest) := splitSign (cs.dropWhile isBlank)
  let whole := (rest.takeWhile Char.isDigit).foldl Scaled.takeWhole ⟨0, 0⟩
  let (number, tail) :=
    match rest.dropWhile Char.isDigit with
    | '.' :: more =>
      ((more.takeWhile Char.isDigit).foldl Scaled.takeFraction whole,
        more.dropWhile Char.isDigit)
    | more => (whole, more)
  let value := Scaled.toFloat ⟨number.significand, number.exponent + exponentOf tail⟩
  if negative then -value else value

end TimelineStore.Sql
