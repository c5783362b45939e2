/-!
# Events and their detail

An event is known by the row that describes it and the operation that says in
which table the row stands.  Packed into one 64-bit word, the row takes the
low 60 bits and the operation the high four.  Three kinds of detail can be
asked for, each for the operations it applies to.
-/

namespace TimelineStore

/-- What an event did. -/
inductive Operation where
  | noOperation
  | launch
  | dispatch
  | memoryAllocate
  | memoryCopy
deriving DecidableEq

namespace Operation

/-- Every operation, at the position of its number. -/
def all : List Operation :=
  [.noOperation, .launch, .dispatch, .memoryAllocate, .memoryCopy]

/-- The number of the operation. -/
def number : Operation → Nat
  | .noOperation => 0
  | .launch => 1
  | .dispatch => 2
  | .memoryAllocate => 3
  | .memoryCopy => 4

/-- The operation with a number. -/
def ofNumber? (number : Nat) : Option Operation :=
  all[number]?

theorem ofNumber?_number (operation : Operation) :
    ofNumber? operation.number = some operation := by
  cases operation <;> rfl

instance : ToString Operation where
  toString
    | .noOperation => "No operation"
    | .launch => "Launch"
    | .dispatch => "Dispatch"
    | .memoryAllocate => "Memory Allocate"
    | .memoryCopy => "Memory Copy"

end Operation

/-- Row numbers have 60 bits. -/
abbrev rowLimit : Nat := 0x1000000000000000

/-- An event: a row number and the operation of its table. -/
structure EventId where
  row : Fin rowLimit
  operation : Operation
deriving DecidableEq

namespace EventId

/-- The event of a row; bits of `row` beyond the low 60 are dropped. -/
def ofRow (row : UInt64) (operation : Operation) : EventId :=
  ⟨Fin.ofNat rowLimit row.toNat, operation⟩

/-- The event as one word. -/
def pack (event : EventId) : UInt64 :=
  UInt64.ofNat (event.operation.number * rowLimit + event.row.val)

/-- The event packed in a word, if its high bits name an operation. -/
def unpack? (word : UInt64) : Option EventId :=
  (Operation.ofNumber? (word.toNat / rowLimit)).map (ofRow word)

instance : ToString EventId where
  toString event := s!"{event.operation} event {event.row.val}"

end EventId

/-- The kinds of detail that are kept per event. -/
inductive DetailKind where
  | flow
  | stack
  | attributes
deriving DecidableEq

namespace DetailKind

/-- Every kind, at the position of its number. -/
def all : List DetailKind :=
  [.flow, .stack, .attributes]

/-- The number of the kind. -/
def number : DetailKind → Nat
  | .flow => 0
  | .stack => 1
  | .attributes => 2

/-- The kind with a number. -/
def ofNumber? (number : Nat) : Option DetailKind :=
  all[number]?

/-- Flow links join launches and dispatches, stacks are captured for calls that
launch or allocate, and attributes exist for launches and dispatches. -/
def appliesTo : DetailKind → Operation → Bool
  | .flow, .launch => true
  | .flow, .dispatch => true
  | .stack, .launch => true
  | .stack, .memoryAllocate => true
  | .attributes, .launch => true
  | .attributes, .dispatch => true
  | _, _ => false

instance : ToString DetailKind where
  toString
    | .flow => "Flow trace"
    | .stack => "Stack trace"
    | .attributes => "Extended data"

end DetailKind

end TimelineStore
