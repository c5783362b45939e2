import Mathlib.Data.Finset.Card
import Mathlib.Data.List.Induction
import TimelineStore.Proofs.StringTable

/-!
# Runs of interned texts

A table that starts out empty and is given texts one after the other lists them in the order in
which they first occur.  The list, the index and the count of bytes are kept apart, and every
call changes them together, so that they tell of the same texts after any run.

**Results.**
* `StringTable.firstsOf_internAll`: what a table lists after a run.
* `StringTable.index_eq_some_iff`: the index goes with the list.
* `StringTable.interns_in_order`: the table after a run, and what each call of the run did.
-/

namespace TimelineStore

namespace StringTable

/-- The texts of a run, each once, in the order in which they first occur in it. -/
structure FirstsOf (texts entries : List String) : Prop where
  nodup : entries.Nodup
  mem_iff : ∀ text, text ∈ entries ↔ text ∈ texts
  ordered : entries.Pairwise fun earlier later => texts.idxOf earlier < texts.idxOf later

section Order

variable {texts entries : List String} {text : String}

theorem FirstsOf.concat_of_mem
    (hfirsts : FirstsOf texts entries)
    (hmem : text ∈ texts) :
    FirstsOf (texts ++ [text]) entries := by
  refine ⟨hfirsts.nodup, fun other => ?_, hfirsts.ordered.imp_of_mem ?_⟩
  · rw [hfirsts.mem_iff, List.mem_append, List.mem_singleton]
    refine ⟨.inl, fun hother => hother.elim id ?_⟩
    rintro rfl
    exact hmem
  · intro earlier later hearlier hlater hless
    rwa [List.idxOf_append_of_mem ((hfirsts.mem_iff earlier).1 hearlier),
      List.idxOf_append_of_mem ((hfirsts.mem_iff later).1 hlater)]

theorem FirstsOf.concat_of_not_mem
    (hfirsts : FirstsOf texts entries)
    (hnew : text ∉ texts) :
    FirstsOf (texts ++ [text]) (entries ++ [text]) := by
  have hfresh : text ∉ entries := fun hmem => hnew ((hfirsts.mem_iff text).1 hmem)
  have hkept {other : String} (hother : other ∈ entries) :
      (texts ++ [text]).idxOf other = texts.idxOf other :=
    List.idxOf_append_of_mem ((hfirsts.mem_iff other).1 hother)
  refine ⟨?_, fun other => ?_, List.pairwise_append.2 ⟨?_, List.pairwise_singleton _ _, ?_⟩⟩
  · refine List.nodup_append.2 ⟨hfirsts.nodup, List.nodup_singleton text, ?_⟩
    intro held hheld other hother hsame
    rw [List.mem_singleton.1 hother] at hsame
    exact hfresh (hsame ▸ hheld)
  · rw [List.mem_append, List.mem_append, hfirsts.mem_iff]
  · refine hfirsts.ordered.imp_of_mem fun hearlier hlater hless => ?_
    rwa [hkept hearlier, hkept hlater]
  · -- whatever occurs before stands before the end of the run
    intro earlier hearlier last hlast
    rw [List.mem_singleton.1 hlast, hkept hearlier, List.idxOf_append_of_notMem hnew]
    have hinside := List.idxOf_lt_length_of_mem ((hfirsts.mem_iff earlier).1 hearlier)
    exact Nat.lt_of_lt_of_le hinside (Nat.le_add_right _ _)

end Order

section Runs

variable {table : StringTable} {text : String} {index : Nat}

theorem internAll_concat
    (table : StringTable) (texts : List String) (text : String) :
    table.internAll (texts ++ [text]) = ((table.internAll texts).intern text).2 :=
  table.internAll_append texts [text]

/-- **A table lists the texts of a run** in the order in which they first occur. -/
theorem firstsOf_internAll
    (texts : List String) :
    FirstsOf texts (empty.internAll texts).entries := by
  induction texts using List.reverseRecOn with
  | nil => exact ⟨.nil, fun text => Iff.rfl, .nil⟩
  | append_singleton texts text ih =>
      rw [internAll_concat]
      by_cases hmem : text ∈ (empty.internAll texts).entries
      · rw [intern_of_mem hmem]
        exact ih.concat_of_mem ((ih.mem_iff text).1 hmem)
      · rw [intern_of_not_mem hmem]
        exact ih.concat_of_not_mem fun hheld => hmem ((ih.mem_iff text).2 hheld)

/-- The index leads from each text to its position in the list, and from nothing else. -/
theorem index_eq_some_iff
    (hnodup : table.entries.Nodup) :
    table.index.get? text = some index ↔ table.entries[index]? = some text :=
  ⟨fun hposition => (position?_eq_some_iff.1 hposition).1, position?_of_get? hnodup⟩

/-- The number of texts that a table lists after a run. -/
theorem size_internAll
    (texts : List String) :
    (empty.internAll texts).size = texts.toFinset.card := by
  have hfirsts := firstsOf_internAll texts
  have hsame : (empty.internAll texts).entries.toFinset = texts.toFinset := by
    ext text
    simp [hfirsts.mem_iff]
  rw [← hsame, List.toFinset_card_of_nodup hfirsts.nodup, size]

/-- What a table is that has been given some texts from the first on.  It lists the texts in the
order in which they first occur, and finds each of them by its position and no others; the index
leads from each of them to its position; and their bytes are counted.  Each call gave the position
that its text has in the list, which a word of 32 bits holds, and found every position that was
taken before it as it was. -/
structure Interned (texts : List String) (table : StringTable) : Prop where
  firsts : FirstsOf texts table.entries
  found : ∀ index, table.get? index = table.entries[index]?
  beyond : ∀ index, table.entries.length ≤ index → table.get? index = none
  index : ∀ text index, table.index.get? text = some index ↔ table.entries[index]? = some text
  bytes : table.bytes = (table.entries.map String.utf8ByteSize).sum
  given : ∀ before text after, texts = before ++ text :: after →
    table.entries[((empty.internAll before).intern text).1]? = some text
  held : ∀ before text after, texts = before ++ text :: after →
    (UInt32.ofNat ((empty.internAll before).intern text).1).toNat =
      ((empty.internAll before).intern text).1
  kept : ∀ before text after, texts = before ++ text :: after →
    ∀ index found, (empty.internAll before).get? index = some found →
      ((empty.internAll before).intern text).2.get? index = some found

/-- The calls after one leave the position that it gave where it is. -/
theorem get?_internAll_given
    (before : List String) (text : String) (after : List String) :
    (empty.internAll (before ++ text :: after)).get? ((empty.internAll before).intern text).1 =
      some text := by
  rw [internAll_append]
  exact extends_internAll ((empty.internAll before).intern text).2 after _ _
    (get?_intern (empty.internAll before) text)

/-- **The list, the index and the count of bytes of a table agree**, after every run of at most
2³² different texts from the empty table. -/
theorem interns_in_order
    (texts : List String)
    (hfew : texts.toFinset.card ≤ 2 ^ 32) :
    Interned texts (empty.internAll texts) where
  firsts := firstsOf_internAll texts
  found _ := rfl
  beyond _ := List.getElem?_eq_none
  index _ _ := index_eq_some_iff (firstsOf_internAll texts).nodup
  bytes := (counted_empty.internAll texts).bytes
  given := by
    rintro before text after rfl
    exact get?_internAll_given before text after
  held := by
    rintro before text after rfl
    obtain ⟨hinside, -⟩ := List.getElem?_eq_some_iff.1 (get?_internAll_given before text after)
    refine UInt32.toNat_ofNat_of_lt' (Nat.lt_of_lt_of_le hinside ?_)
    exact (size_internAll _).trans_le hfew
  kept before text _ _ := extends_intern (empty.internAll before) text

/-- Of four texts, the third was interned before. -/
theorem interns_in_order_repeated :
    ["launch", "é", "launch", ""].toFinset.card ≤ 2 ^ 32 ∧
      (empty.internAll ["launch", "é", "launch", ""]).entries = ["launch", "é", ""] ∧
      (∀ text index, (empty.internAll ["launch", "é", "launch", ""]).index.get? text = some index ↔
        ["launch", "é", ""][index]? = some text) ∧
      (empty.internAll ["launch", "é", "launch", ""]).bytes = 8 ∧
      ["launch", "é", ""][((empty.internAll ["launch", "é"]).intern "launch").1]? =
        some "launch" := by
  have hfew : ["launch", "é", "launch", ""].toFinset.card ≤ 2 ^ 32 := by decide
  have hinterned := interns_in_order ["launch", "é", "launch", ""] hfew
  exact ⟨hfew, rfl, hinterned.index, hinterned.bytes,
    hinterned.given ["launch", "é"] "launch" [""] rfl⟩

end Runs

end StringTable

end TimelineStore
