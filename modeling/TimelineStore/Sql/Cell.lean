import TimelineStore.Database.Failure
import TimelineStore.Decimal.Layout
import TimelineStore.Sql.Number

/-!
# Cells of tables

A cell is null, a number, a text or a blob.  All cells stand in one order, null
before numbers before texts before blobs.  A comparison in a condition holds only
between cells neither of which is null.  A query that expects a type refuses a
cell of another one.
-/

namespace TimelineStore.Sql

/-- The content of one column of one row. -/
inductive Cell where
  | null
  | integer (value : Int)
  | real (value : Float)
  | text (value : String)
  | blob (bytes : List UInt8)
deriving DecidableEq

namespace Cell

section Order

/-- The rank of the type among types. -/
def rank : Cell → Nat
  | .null => 0
  | .integer _ => 1
  | .real _ => 1
  | .text _ => 2
  | .blob _ => 3

/-- Compares two blobs byte by byte; of two of which one begins the other, it comes first. -/
def compareBytes : List UInt8 → List UInt8 → Ordering
  | [], [] => .eq
  | [], _ :: _ => .lt
  | _ :: _, [] => .gt
  | a :: as, b :: bs => if a < b then .lt else if b < a then .gt else compareBytes as bs

/-- The order of cells; numbers of both types are compared exactly. -/
def order : Cell → Cell → Ordering
  | .integer a, .integer b => compare a b
  | .integer a, .real y => (Decimal.Place.ofInt a).compare (.ofFloat y)
  | .real x, .integer b => (Decimal.Place.ofFloat x).compare (.ofInt b)
  | .real x, .real y => (Decimal.Place.ofFloat x).compare (.ofFloat y)
  | .text a, .text b => if a < b then .lt else if b < a then .gt else .eq
  | .blob a, .blob b => compareBytes a b
  | a, b => compare a.rank b.rank

/-- The first cell comes no later than the second. -/
def precedes (a b : Cell) : Bool :=
  a.order b ≠ .gt

/-- The condition `a < b` holds. -/
def isLess (a b : Cell) : Bool :=
  a ≠ .null && b ≠ .null && a.order b = .lt

/-- The condition `a >= b` holds. -/
def isAtLeast (a b : Cell) : Bool :=
  a ≠ .null && b ≠ .null && a.order b ≠ .lt

/-- The least cell that is not null, or null. -/
def least (cells : List Cell) : Cell :=
  ((cells.filter (· ≠ .null)).foldl
    (fun best cell => match best with
      | some best => some (if cell.order best = .lt then cell else best)
      | none => some cell)
    none).getD .null

/-- The greatest cell that is not null, or null. -/
def greatest (cells : List Cell) : Cell :=
  ((cells.filter (· ≠ .null)).foldl
    (fun best cell => match best with
      | some best => some (if cell.order best = .gt then cell else best)
      | none => some cell)
    none).getD .null

end Order

section Conversion

/-- The cell of a floating-point number.  No cell holds what is no number: null stands for it. -/
def ofFloat (value : Float) : Cell :=
  if value.isNaN then .null else .real value

/-- The text that a cell becomes in a column of texts. -/
def inTextColumn : Cell → Cell
  | .integer value => .text (toString value)
  | .real value => .text (String.ofList (Decimal.columnText value))
  | cell => cell

/-- The cell as plain text; null and blobs have none. -/
def plainText? : Cell → Option String
  | .integer value => some (toString value)
  | .real value => some (String.ofList (Decimal.plainText value))
  | .text value => some value
  | _ => none

/-- The bytes of a blob that are characters of a numeral, read as such. -/
def numeralChars (bytes : List UInt8) : List Char :=
  bytes.map fun byte => Char.ofNat byte.toNat

/-- The cell cast to a floating-point number; null stays null. -/
def castReal : Cell → Cell
  | .null => .null
  | .integer value => .real (Float.ofInt value)
  | .real value => .real value
  | .text value => .real (leadingReal value.toList)
  | .blob bytes => .real (leadingReal (numeralChars bytes))

end Conversion

section Reading

/-- The name of the type. -/
def typeName : Cell → String
  | .null => "Null"
  | .integer _ => "Integer"
  | .real _ => "Real"
  | .text _ => "Text"
  | .blob _ => "Blob"

/-- The cell is of a type that the column of a query cannot have. -/
def mistyped (cell : Cell) (index : Nat) (column : String) : DatabaseFailure :=
  .query s!"Invalid column type {cell.typeName} at index: {index}, name: {column}"

/-- The whole number in a column. -/
def readInteger (index : Nat) (column : String) : Cell → Except DatabaseFailure Int
  | .integer value => .ok value
  | cell => .error (cell.mistyped index column)

/-- The whole number in a column that may be null. -/
def readOptionalInteger (index : Nat) (column : String) :
    Cell → Except DatabaseFailure (Option Int)
  | .null => .ok none
  | .integer value => .ok (some value)
  | cell => .error (cell.mistyped index column)

/-- The text in a column; null counts as empty. -/
def readText (index : Nat) (column : String) : Cell → Except DatabaseFailure String
  | .null => .ok ""
  | .text value => .ok value
  | cell => .error (cell.mistyped index column)

/-- The floating-point number in a column; null counts as zero. -/
def readReal (index : Nat) (column : String) : Cell → Except DatabaseFailure Float
  | .null => .ok 0.0
  | .integer value => .ok (Float.ofInt value)
  | .real value => .ok value
  | cell => .error (cell.mistyped index column)

end Reading

end Cell

end TimelineStore.Sql
