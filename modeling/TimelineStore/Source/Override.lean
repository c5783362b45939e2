import TimelineStore.Source

/-!
# Overridden answers

A source some of whose answers are replaced, for trying out what a store does
with a source that fails or misbehaves.
-/

namespace TimelineStore

/-- The answers that are replaced. -/
structure Override where
  /-- Metadata fails. -/
  metadata : Option Failure
  /-- Reading a track with this subprocess fails. -/
  tracks : List (String × Failure)
  /-- A batched read fails. -/
  batch : Option Failure
  /-- A batched read answers with so many row sets. -/
  batchLength : Option Nat
  /-- Reading detail fails. -/
  detail : Option Failure
  /-- Reading detail answers this, whatever was asked. -/
  answer : Option RawDetail
  /-- The source has no detail of any kind. -/
  withoutDetail : Bool

namespace Override

/-- A list cut or filled up to a length. -/
def resize {α : Type} (length : Nat) (filler : α) (values : List α) : List α :=
  values.take length ++ List.replicate (length - values.length) filler

/-- The rows of a track. -/
def readTrack
    (change : Override) (source : Source) (descriptor : Descriptor) (window : Window) :
    Except Failure (List Row) :=
  match change.tracks.lookup descriptor.subprocess with
  | some failure => .error failure
  | none => source.readTrack descriptor window

/-- The row sets of a batch, read one by one. -/
def readTracks
    (change : Override) (source : Source) (descriptors : List Descriptor) (window : Window) :
    Except Failure (List (List Row)) :=
  match change.batch with
  | some failure => .error failure
  | none => do
    let sets ← Source.oneByOne (change.readTrack source) descriptors window
    return match change.batchLength with
      | some length => resize length [] sets
      | none => sets

/-- The detail of an event. -/
def readDetail
    (change : Override) (source : Source) (kind : DetailKind) (event : EventId) :
    Except Failure RawDetail :=
  match change.detail, change.answer with
  | some failure, _ => .error failure
  | none, some detail => .ok detail
  | none, none =>
    if change.withoutDetail then Source.noDetail source.name kind event
    else source.readDetail kind event

/-- The source with its answers replaced. -/
def apply (change : Override) (source : Source) : Source where
  name := source.name
  metadata :=
    match change.metadata with
    | some failure => ⟨[], .error failure⟩
    | none => source.metadata
  readTrack := change.readTrack source
  readTracks := change.readTracks source
  readDetail := change.readDetail source

end Override

end TimelineStore
