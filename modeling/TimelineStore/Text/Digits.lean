/-!
# Whole numbers in digits

A whole number is read from a text that is nothing but decimal digits, with a
sign before them where one is allowed, and only if it fits 64 bits.
-/

namespace TimelineStore.Text

/-- Decimal digits, at least one. -/
def digits? (cs : List Char) : Option Nat :=
  if cs.isEmpty || !cs.all Char.isDigit then none
  else some (cs.foldl (fun value c => value * 10 + (c.toNat - '0'.toNat)) 0)

/-- A number with an optional plus sign that fits 64 bits. -/
def natural? (text : String) : Option Nat :=
  let value : Option Nat :=
    match text.toList with
    | '+' :: digits => digits? digits
    | digits => digits? digits
  value.filter (· < UInt64.size)

/-- A number with an optional sign that fits 64 signed bits. -/
def integer? (text : String) : Option Int :=
  let value : Option Int :=
    match text.toList with
    | '-' :: digits => (digits? digits).map fun value => -(value : Int)
    | '+' :: digits => (digits? digits).map fun value => (value : Int)
    | digits => (digits? digits).map fun value => (value : Int)
  value.filter fun value => Int64.minValue.toInt ≤ value && value ≤ Int64.maxValue.toInt

end TimelineStore.Text
