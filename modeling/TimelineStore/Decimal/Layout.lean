import TimelineStore.Decimal.Extended

/-!
# Written decimals

A `Layout` says how a decimal is written: for which places of the point all its
digits stand around the point, and what a whole number ends in.  Other decimals
are written with one digit before the point and an exponent.  The three layouts
of this library are the number of a JSON document, the plain text of a real
column, and the text that a real becomes in a text column.
-/

namespace TimelineStore.Decimal

/-- How a decimal is written. -/
structure Layout where
  /-- The decimal is written around its point when this is where the point stands. -/
  positional : Int → Bool
  /-- What follows the digits of a whole number. -/
  wholeTail : List Char
  /-- What follows a single digit before an exponent. -/
  singleTail : List Char
  /-- The exponent has at least so many digits. -/
  exponentWidth : Nat

namespace Layout

/-- The exponent with its sign. -/
def exponent (layout : Layout) (value : Int) : List Char :=
  let digits := Nat.toDigits 10 value.natAbs
  (if value < 0 then '-' else '+') ::
    (List.replicate (layout.exponentWidth - digits.length) '0' ++ digits)

/-- The text of a decimal that is not negative. -/
def write (layout : Layout) (numeral : Numeral) : List Char :=
  let digits := numeral.digits
  let point := numeral.point
  if layout.positional point then
    if point ≤ 0 then
      '0' :: '.' :: (List.replicate (-point).toNat '0' ++ digits)
    else if digits.length ≤ point then
      digits ++ List.replicate (point.toNat - digits.length) '0' ++ layout.wholeTail
    else
      digits.take point.toNat ++ '.' :: digits.drop point.toNat
  else
    match digits with
    | [] => []
    | [digit] => digit :: (layout.singleTail ++ 'e' :: layout.exponent (point - 1))
    | digit :: rest => digit :: '.' :: (rest ++ 'e' :: layout.exponent (point - 1))

/-- Numbers of a JSON document are written around the point from a hundred-thousandth up to,
and not including, ten to the sixteenth; a whole number ends in a point and a zero. -/
def json : Layout :=
  ⟨fun point => -5 < point && point ≤ 16, ['.', '0'], [], 1⟩

/-- Plain text always stands around the point, and a whole number has none. -/
def plain : Layout :=
  ⟨fun _ => true, [], [], 1⟩

/-- A real in a text column has a point always, and an exponent of two digits or more when
its leading digit is above the fifteenth place or below the fourth after the point. -/
def textColumn : Layout :=
  ⟨fun point => -4 < point && point ≤ 15, ['.', '0'], ['.', '0'], 2⟩

end Layout

/-- Puts a sign before the text of a negative number. -/
def signed (x : Float) (text : List Char) : List Char :=
  if isNegative x then '-' :: text else text

/-- The number of a JSON document: the fewest digits that read back, of two equally near ones
the even one.  What is not finite has no such number, and none is asked for. -/
def jsonText (x : Float) : List Char :=
  match Magnitude.ofFloat x with
  | .notANumber => "null".toList
  | .infinite => "null".toList
  | .zero => signed x (Layout.json.write .zero)
  | .finite mantissa exponent =>
    signed x (Layout.json.write (shortestOf .toEven mantissa exponent))

/-- Plain text: the fewest digits that read back, of two equally near ones the upper one. -/
def plainText (x : Float) : List Char :=
  match Magnitude.ofFloat x with
  | .notANumber => "NaN".toList
  | .infinite => signed x "inf".toList
  | .zero => signed x (Layout.plain.write .zero)
  | .finite mantissa exponent => signed x (Layout.plain.write (shortestOf .up mantissa exponent))

/-- What a real becomes in a text column: at most fifteen digits. -/
def columnText (x : Float) : List Char :=
  match Magnitude.ofFloat x with
  | .notANumber => []
  | .infinite => signed x "Inf".toList
  | .zero => Layout.textColumn.write .zero
  | .finite mantissa exponent =>
    signed x (Layout.textColumn.write (scaledOf mantissa exponent 15))

end TimelineStore.Decimal
