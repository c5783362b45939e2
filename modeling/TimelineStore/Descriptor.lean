import TimelineStore.Time

/-!
# Track descriptors

A source describes each timeline by a `Descriptor`: where it was captured, what
category of rows it has, the two texts that name it, and free attributes.  The
metadata of a session is its window and its descriptors in track order.
-/

namespace TimelineStore

/-- What the rows of a track are. -/
inductive Category where
  | notATrack
  | counter
  | region
  | kernel
  | shader
  | network
deriving DecidableEq

namespace Category

/-- Every category, at the position of its number. -/
def all : List Category :=
  [.notATrack, .counter, .region, .kernel, .shader, .network]

/-- The number of the category. -/
def number : Category → Nat
  | .notATrack => 0
  | .counter => 1
  | .region => 2
  | .kernel => 3
  | .shader => 4
  | .network => 5

/-- The category with a number. -/
def ofNumber? (number : Nat) : Option Category :=
  all[number]?

/-- Rows of the category are sampled values and not events. -/
def isCounter (category : Category) : Bool :=
  category = .counter

instance : ToString Category where
  toString
    | .notATrack => "Invalid track"
    | .counter => "Counter"
    | .region => "CPU Thread"
    | .kernel => "GPU Queue"
    | .shader => "Shader Execution"
    | .network => "Network Activity"

end Category

/-- A named value under a heading. -/
structure Attribute where
  category : String
  name : String
  value : String
deriving DecidableEq

/-- What a source says about one timeline. -/
structure Descriptor where
  node : Nat
  category : Category
  process : String
  subprocess : String
  attributes : List Attribute
deriving DecidableEq

namespace Descriptor

/-- The descriptor names the timeline with this category and these two texts;
node and attributes do not count. -/
def names (descriptor : Descriptor) (category : Category) (process subprocess : String) : Bool :=
  descriptor.category = category && descriptor.process = process &&
    descriptor.subprocess = subprocess

end Descriptor

/-- What a source says about a whole session. -/
structure Metadata where
  window : Window
  tracks : List Descriptor
deriving DecidableEq

end TimelineStore
