import TimelineStore.Keyed

/-!
# String table

Event rows repeat a small vocabulary, so a chunk stores positions in the table
of its trace in place of texts.  A table only grows: a text once given a
position keeps it, and forgetting a chunk forgets no text.  Texts are found by
position in a list, and positions by text in an index that goes with the list.
-/

namespace TimelineStore

/-- Distinct texts by position, the position of each text, and the bytes that they take. -/
structure StringTable where
  entries : List String
  index : Keyed String Nat
  bytes : Nat
  indexed : ∀ text, index.get? text = entries.idxOf? text

namespace StringTable

/-- The bytes charged for an entry beside its text. -/
def entryOverhead : Nat := 32

/-- No text yet. -/
def empty : StringTable :=
  ⟨[], .empty, 0, fun _ => rfl⟩

/-- The number of texts. -/
def size (table : StringTable) : Nat :=
  table.entries.length

/-- The text at a position. -/
def get? (table : StringTable) (index : Nat) : Option String :=
  table.entries[index]?

/-- The position of a text. -/
def position? (table : StringTable) (text : String) : Option Nat :=
  table.index.get? text

theorem position?_eq_none_iff {table : StringTable} {text : String} :
    table.position? text = none ↔ text ∉ table.entries := by
  rw [position?, table.indexed, List.idxOf?_eq_none_iff]

/-- The table with a text that it lacks, at the next position. -/
def push (table : StringTable) (text : String) (lacks : table.position? text = none) :
    StringTable where
  entries := table.entries ++ [text]
  index := table.index.insert text table.size
  bytes := table.bytes + text.utf8ByteSize
  indexed := by
    intro other
    have new : text ∉ table.entries := position?_eq_none_iff.1 lacks
    rw [Keyed.get?_insert, table.indexed]
    unfold List.idxOf?
    rw [List.findIdx?_append]
    by_cases same : other = text
    · have missing : table.entries.findIdx? (· == text) = none := List.idxOf?_eq_none_iff.2 new
      simp [same, missing, size]
    · simp [same, Ne.symm same, List.findIdx?_cons]

/-- The position of a text, and the table that holds it. -/
def intern (table : StringTable) (text : String) : Nat × StringTable :=
  match found : table.position? text with
  | some index => (index, table)
  | none => (table.size, table.push text found)

/-- The table after a run of texts. -/
def internAll (table : StringTable) (texts : List String) : StringTable :=
  texts.foldl (fun grown text => (grown.intern text).2) table

/-- The bytes that the table takes. -/
def footprint (table : StringTable) : Nat :=
  table.bytes + table.size * entryOverhead

end StringTable

end TimelineStore
