import TimelineStore.Decimal.Shortest
import TimelineStore.Toml.Value

/-!
# Numbers of a settings document

Digits may be grouped by single underscores between them.  A decimal number has
no leading zeros; other bases have a prefix and no sign.  A whole number must
fit 64 signed bits, and a real number must not be too large for a finite one,
unless it is negative.
-/

namespace TimelineStore.Toml

open TimelineStore.Decimal (Numeral)

/-- The value of a digit in a base. -/
def digitValue? (base : Nat) (c : Char) : Option Nat :=
  let value :=
    if c.isDigit then c.toNat - '0'.toNat
    else if 'a' ≤ c ∧ c ≤ 'f' then c.toNat - 'a'.toNat + 10
    else if 'A' ≤ c ∧ c ≤ 'F' then c.toNat - 'A'.toNat + 10
    else base
  if value < base then some value else none

/-- The digits of a group, given whether a digit came last. -/
def ungroup? (base : Nat) : Bool → List Char → Option (List Nat)
  | afterDigit, [] => if afterDigit then some [] else none
  | afterDigit, c :: rest =>
    if c = '_' then
      if afterDigit then ungroup? base false rest else none
    else
      match digitValue? base c with
      | none => none
      | some digit => (ungroup? base true rest).map (digit :: ·)

/-- The digits of a text that is nothing but grouped digits. -/
def digits? (base : Nat) (cs : List Char) : Option (List Nat) :=
  ungroup? base false cs

/-- The number that digits stand for. -/
def ofDigits (base : Nat) (digits : List Nat) : Nat :=
  digits.foldl (fun value digit => value * base + digit) 0

/-- Decimal digits without leading zeros. -/
def decimalDigits? (cs : List Char) : Option (List Nat) :=
  match digits? 10 cs with
  | some (0 :: _ :: _) => none
  | found => found

/-- The sign in front of a number, and the rest. -/
def splitSign : List Char → Bool × List Char
  | '-' :: rest => (true, rest)
  | '+' :: rest => (false, rest)
  | cs => (false, cs)

/-- A whole number, if it fits 64 signed bits. -/
def whole? (cs : List Char) : Option Int :=
  let value : Option Int :=
    match cs with
    | '0' :: 'x' :: rest => (digits? 16 rest).map fun digits => (ofDigits 16 digits : Int)
    | '0' :: 'o' :: rest => (digits? 8 rest).map fun digits => (ofDigits 8 digits : Int)
    | '0' :: 'b' :: rest => (digits? 2 rest).map fun digits => (ofDigits 2 digits : Int)
    | _ =>
      let (negative, rest) := splitSign cs
      (decimalDigits? rest).map fun digits =>
        let value : Int := ofDigits 10 digits
        if negative then -value else value
  value.filter fun value => Int64.minValue.toInt ≤ value && value ≤ Int64.maxValue.toInt

/-- The exponent of a number, after its mark. -/
def exponent? (cs : List Char) : Option Int :=
  let (negative, rest) := splitSign cs
  (digits? 10 rest).map fun digits =>
    let value : Int := ofDigits 10 digits
    if negative then -value else value

/-- The decimal that a text without a sign spells: a fraction, an exponent or both follow its
whole part. -/
def numeral? (cs : List Char) : Option Numeral := do
  let (mantissa, mark) := cs.span fun c => c ≠ 'e' && c ≠ 'E'
  let (front, point) := mantissa.span (· ≠ '.')
  let whole ← decimalDigits? front
  let fraction ← if point.isEmpty then some [] else digits? 10 (point.drop 1)
  let exponent ← if mark.isEmpty then some 0 else exponent? (mark.drop 1)
  if point.isEmpty && mark.isEmpty then none
  else some ⟨ofDigits 10 (whole ++ fraction), exponent - fraction.length⟩

/-- A real number. -/
def real? (cs : List Char) : Option Float :=
  let (negative, rest) := splitSign cs
  if rest = ['i', 'n', 'f'] then
    some (if negative then -1.0 / 0.0 else 1.0 / 0.0)
  else if rest = ['n', 'a', 'n'] then
    some (0.0 / 0.0)
  else
    match numeral? rest with
    | none => none
    | some numeral =>
      let value := numeral.toFloat
      if negative then some (-value) else if value.isInf then none else some value

end TimelineStore.Toml
