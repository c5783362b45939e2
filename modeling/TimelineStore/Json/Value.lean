/-!
# JSON values

The fields of an object are a list in strictly increasing order of their names,
so that one object has one representation.  Names compare by their characters,
which is also the order of their UTF-8 bytes.
-/

namespace TimelineStore

/-- A JSON number: a whole number, or a finite floating-point number. -/
inductive JsonNumber where
  | whole (value : Int)
  | real (value : Float)
deriving DecidableEq

/-- A JSON value. -/
inductive Json where
  | null
  | bool (value : Bool)
  | number (value : JsonNumber)
  | string (value : String)
  | array (values : List Json)
  | object (fields : List (String × Json))

namespace Json

/-- The value of a field. -/
def lookup (name : String) : List (String × Json) → Option Json
  | [] => none
  | (other, value) :: rest => if name = other then some value else lookup name rest

/-- The fields with one field set, in place of an earlier value of that name. -/
def setField (name : String) (value : Json) : List (String × Json) → List (String × Json)
  | [] => [(name, value)]
  | (other, old) :: rest =>
    if name = other then
      (name, value) :: rest
    else if name < other then
      (name, value) :: (other, old) :: rest
    else
      (other, old) :: setField name value rest

/-- The fields that a list of members leaves; of members of one name the last one wins. -/
def fieldsOf (members : List (String × Json)) : List (String × Json) :=
  members.foldl (fun fields member => setField member.1 member.2 fields) []

end Json

end TimelineStore
