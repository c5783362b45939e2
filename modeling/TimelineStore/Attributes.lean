import TimelineStore.Descriptor
import TimelineStore.Json.Printer
import TimelineStore.Json.Reader

/-!
# Attribute documents

Attributes are rendered as one JSON object with an object per category, and in
it a field per name.  A value that is the text of a number or of an object is
embedded as such; any other value is a string.
-/

namespace TimelineStore.Attribute

/-- What the text of a value stands for in a document. -/
def embed (text : String) : Json :=
  match JsonNumber.ofText? text with
  | some number => .number number
  | none =>
    if text.toList.head? = some '{' then
      match Json.read? text with
      | some (.object fields) => .object fields
      | _ => .string text
    else
      .string text

/-- The fields recorded under a category so far. -/
def group (category : String) (root : List (String × Json)) : List (String × Json) :=
  match Json.lookup category root with
  | some (.object fields) => fields
  | _ => []

/-- The document with one more attribute, which replaces an earlier one of its category and
name. -/
def record (root : List (String × Json)) (entry : Attribute) : List (String × Json) :=
  let fields := Json.setField entry.name (embed entry.value) (group entry.category root)
  Json.setField entry.category (.object fields) root

/-- The attributes as one JSON value. -/
def toJson (attributes : List Attribute) : Json :=
  .object (attributes.foldl record [])

/-- The attributes as one JSON document. -/
def document (attributes : List Attribute) : String :=
  (toJson attributes).print

end TimelineStore.Attribute
