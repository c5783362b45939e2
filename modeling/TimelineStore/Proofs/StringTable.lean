import Mathlib.Algebra.BigOperators.Group.List.Basic
import Mathlib.Algebra.GroupWithZero.Nat
import Mathlib.Data.List.Nodup
import TimelineStore.StringTable

/-!
# Growth of string tables

A table only grows: `Extends` says that one table has the texts of another at the
same positions.  What was stored with a position in the smaller table reads the
same in the larger one.

A table holds each text once, and is charged for it once.  It does not change when it is
given texts that it has.

**Results.**
* `StringTable.mem_entries_internAll`, `StringTable.Counted.internAll`: the texts of a table
  and the bytes that they take.
* `StringTable.internAll_of_subset`: texts that a table has add nothing.
* `StringTable.intern_of_extends`: interned again, a text is given the position that it has.
-/

namespace TimelineStore

namespace StringTable

/-- The texts of `table` stand in `larger` at the same positions. -/
def Extends (table larger : StringTable) : Prop :=
  ∀ (index : Nat) (text : String),
    table.get? index = some text → larger.get? index = some text

variable {table middle larger : StringTable}

theorem Extends.refl
    (table : StringTable) :
    table.Extends table :=
  fun _ _ htext => htext

theorem Extends.trans
    (hfirst : table.Extends middle)
    (hsecond : middle.Extends larger) :
    table.Extends larger :=
  fun index text htext => hsecond index text (hfirst index text htext)

section Positions

variable {text : String} {index : Nat}

/-- The position of a text is the first at which it stands. -/
theorem position?_eq_some_iff :
    table.position? text = some index ↔
      table.get? index = some text ∧
        ∀ earlier < index, table.get? earlier ≠ some text := by
  rw [position?, table.indexed, List.idxOf?, List.findIdx?_eq_some_iff_getElem]
  constructor
  · rintro ⟨hinside, hequal, hearlier⟩
    refine ⟨?_, fun earlier hless hfound => ?_⟩
    · rw [get?, List.getElem?_eq_getElem hinside, eq_of_beq hequal]
    · rw [get?, List.getElem?_eq_getElem (Nat.lt_trans hless hinside)] at hfound
      exact hearlier earlier hless (beq_iff_eq.2 (Option.some.inj hfound))
  · rintro ⟨htext, hearlier⟩
    obtain ⟨hinside, hequal⟩ := List.getElem?_eq_some_iff.1 htext
    refine ⟨hinside, beq_iff_eq.2 hequal, fun earlier hless hfound => ?_⟩
    refine hearlier earlier hless ?_
    rw [get?, List.getElem?_eq_getElem (Nat.lt_trans hless hinside), beq_iff_eq.1 hfound]

/-- A text that has a position keeps it. -/
theorem position?_of_extends
    (hextends : table.Extends larger)
    (hposition : table.position? text = some index) :
    larger.position? text = some index := by
  obtain ⟨htext, hearlier⟩ := position?_eq_some_iff.1 hposition
  refine position?_eq_some_iff.2 ⟨hextends index text htext, fun earlier hless hfound => ?_⟩
  obtain ⟨hinside, -⟩ := List.getElem?_eq_some_iff.1 htext
  have hother : table.get? earlier = some table.entries[earlier] :=
    List.getElem?_eq_getElem (Nat.lt_trans hless hinside)
  have hsame := (hextends earlier _ hother).symm.trans hfound
  exact hearlier earlier hless (hother.trans hsame)

/-- A text that has a position is given it. -/
theorem intern_of_position?
    (hposition : table.position? text = some index) :
    table.intern text = (index, table) := by
  unfold intern
  split
  · rename_i other hother
    cases hposition.symm.trans hother
    rfl
  · rename_i hnone
    cases hposition.symm.trans hnone

/-- A text that has no position is given the next one. -/
theorem intern_of_lacks
    (hlacks : table.position? text = none) :
    table.intern text = (table.size, table.push text hlacks) := by
  unfold intern
  split
  · rename_i other hother
    cases hlacks.symm.trans hother
  · rfl

theorem extends_intern
    (table : StringTable) (text : String) :
    table.Extends (table.intern text).2 := by
  intro index other hother
  cases hposition : table.position? text with
  | some place => rwa [intern_of_position? hposition]
  | none =>
      obtain ⟨hinside, -⟩ := List.getElem?_eq_some_iff.1 hother
      rw [intern_of_lacks hposition]
      exact (List.getElem?_append_left hinside).trans hother

/-- The position that an interned text is given is its position from then on. -/
theorem position?_intern
    (table : StringTable) (text : String) :
    (table.intern text).2.position? text = some (table.intern text).1 := by
  cases hposition : table.position? text with
  | some index => rwa [intern_of_position? hposition]
  | none =>
      rw [intern_of_lacks hposition]
      exact (table.index.get?_insert text text table.size).trans (if_pos rfl)

/-- The position that an interned text is given is one where it stands. -/
theorem get?_intern
    (table : StringTable) (text : String) :
    (table.intern text).2.get? (table.intern text).1 = some text :=
  (position?_eq_some_iff.1 (table.position?_intern text)).1

/-- Interning a text again, however much the table has grown, gives the position that it
has and adds nothing. -/
theorem intern_of_extends
    (hextends : (table.intern text).2.Extends larger) :
    larger.intern text = ((table.intern text).1, larger) :=
  intern_of_position? (position?_of_extends hextends (table.position?_intern text))

/-- A text has one position only in a table without repetitions. -/
theorem position?_of_get?
    (hnodup : table.entries.Nodup)
    (htext : table.get? index = some text) :
    table.position? text = some index := by
  refine position?_eq_some_iff.2 ⟨htext, fun earlier hless hfound => ?_⟩
  obtain ⟨hinside, hequal⟩ := List.getElem?_eq_some_iff.1 htext
  obtain ⟨hbefore, hother⟩ := List.getElem?_eq_some_iff.1 hfound
  have hsame : table.entries[earlier] = table.entries[index] := hother.trans hequal.symm
  exact Nat.ne_of_lt hless (hnodup.getElem_inj_iff.1 hsame)

end Positions

section Contents

theorem intern_of_mem
    {text : String}
    (hmem : text ∈ table.entries) :
    (table.intern text).2 = table := by
  cases hposition : table.position? text with
  | none => exact absurd hmem (position?_eq_none_iff.1 hposition)
  | some index => rw [intern_of_position? hposition]

theorem intern_of_not_mem
    {text : String}
    (hnew : text ∉ table.entries) :
    (table.intern text).2 = table.push text (position?_eq_none_iff.2 hnew) := by
  rw [intern_of_lacks]

@[simp] theorem mem_entries_intern
    {text other : String} :
    other ∈ (table.intern text).2.entries ↔ other ∈ table.entries ∨ other = text := by
  by_cases hmem : text ∈ table.entries
  · rw [intern_of_mem hmem]
    refine ⟨.inl, fun hother => hother.elim id ?_⟩
    rintro rfl
    exact hmem
  · simp [intern_of_not_mem hmem, push]

/-- The texts of a table are distinct, and their bytes are counted. -/
structure Counted (table : StringTable) : Prop where
  nodup : table.entries.Nodup
  bytes : table.bytes = (table.entries.map String.utf8ByteSize).sum

theorem counted_empty : empty.Counted :=
  ⟨.nil, rfl⟩

theorem Counted.intern
    (hcounted : table.Counted) (text : String) :
    (table.intern text).2.Counted := by
  by_cases hmem : text ∈ table.entries
  · rwa [intern_of_mem hmem]
  · rw [intern_of_not_mem hmem]
    refine ⟨?_, ?_⟩
    · refine List.nodup_append.2 ⟨hcounted.nodup, List.nodup_singleton text, ?_⟩
      intro held hheld other hother hsame
      rw [List.mem_singleton.1 hother] at hsame
      exact hmem (hsame ▸ hheld)
    · simp [push, hcounted.bytes]

/-- A table is charged for each of its texts once. -/
theorem Counted.footprint_eq
    (hcounted : table.Counted) :
    table.footprint =
      (table.entries.map fun text => text.utf8ByteSize + entryOverhead).sum := by
  rw [footprint, size, hcounted.bytes, List.sum_map_add]
  simp

theorem internAll_append
    (table : StringTable) (first second : List String) :
    table.internAll (first ++ second) = (table.internAll first).internAll second :=
  List.foldl_append

theorem mem_entries_internAll
    {texts : List String} {other : String} :
    other ∈ (table.internAll texts).entries ↔ other ∈ table.entries ∨ other ∈ texts := by
  induction texts generalizing table with
  | nil => simp [internAll]
  | cons text texts ih =>
      have hstep : table.internAll (text :: texts) = (table.intern text).2.internAll texts := rfl
      rw [hstep, ih, mem_entries_intern, List.mem_cons, or_assoc]

theorem extends_internAll
    (table : StringTable) (texts : List String) :
    table.Extends (table.internAll texts) := by
  induction texts generalizing table with
  | nil => exact .refl table
  | cons text texts ih => exact (table.extends_intern text).trans (ih (table.intern text).2)

theorem Counted.internAll
    (hcounted : table.Counted) (texts : List String) :
    (table.internAll texts).Counted := by
  induction texts generalizing table with
  | nil => exact hcounted
  | cons text texts ih => exact ih (hcounted.intern text)

/-- Texts that a table has add nothing to it. -/
theorem internAll_of_subset
    {texts : List String}
    (hsubset : ∀ text ∈ texts, text ∈ table.entries) :
    table.internAll texts = table := by
  induction texts with
  | nil => rfl
  | cons text texts ih =>
      have hstep : table.internAll (text :: texts) = (table.intern text).2.internAll texts := rfl
      rw [hstep, intern_of_mem (hsubset text List.mem_cons_self)]
      exact ih fun other hother => hsubset other (List.mem_cons_of_mem text hother)

end Contents

end StringTable

end TimelineStore
