import TimelineStore.Handle

/-!
# Property values

A property value says which type it has; the accessors answer for their own
type only.
-/

namespace TimelineStore

/-- The value of a property. -/
inductive PropertyValue where
  | natural (value : Nat)
  | integer (value : Int)
  | real (value : Float)
  | text (value : String)
  | handle (value : Handle)
deriving DecidableEq

namespace PropertyValue

/-- The name of the type. -/
def typeName : PropertyValue → String
  | .natural _ => "u64"
  | .integer _ => "i64"
  | .real _ => "f64"
  | .text _ => "str"
  | .handle _ => "handle"

/-- The unsigned value, if it is one. -/
def natural? : PropertyValue → Option Nat
  | .natural value => some value
  | _ => none

/-- The signed value, if it is one. -/
def integer? : PropertyValue → Option Int
  | .integer value => some value
  | _ => none

/-- The floating-point value, if it is one. -/
def real? : PropertyValue → Option Float
  | .real value => some value
  | _ => none

/-- The text, if it is one. -/
def text? : PropertyValue → Option String
  | .text value => some value
  | _ => none

/-- The handle, if it is one. -/
def handle? : PropertyValue → Option Handle
  | .handle value => some value
  | _ => none

end PropertyValue

end TimelineStore
