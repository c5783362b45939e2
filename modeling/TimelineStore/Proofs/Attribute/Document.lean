import Mathlib
import TimelineStore.Attributes
import TimelineStore.Proofs.Json.RoundTrip

/-!
# Documents of attributes

A document has an object for each category, and in it a field for each name.  Whatever was
recorded before, a field has what the text stands for that was recorded last under its
category and name.

**Results.**
* `Attribute.standsFor_embed`: what a text stands for.
* `Attribute.lookup_group_root`: what a document has under a category and a name.
* `Attribute.document_reads_back`: what a document is read back as.
-/

namespace TimelineStore

open Json

namespace Attribute

/-- The attributes under a name of a category. -/
def under (category name : String) (attributes : List Attribute) : List Attribute :=
  attributes.filter fun entry => entry.category = category ∧ entry.name = name

/-- The text that was recorded last under a name of a category. -/
def last? (attributes : List Attribute) (category name : String) : Option String :=
  (under category name attributes).getLast?.map (·.value)

/-- What a text stands for: the number that it is, the object that it is from its opening
brace on, or else itself. -/
structure StandsFor (text : String) (value : Json) : Prop where
  number : ∀ n, JsonNumber.ofText? text = some n → value = .number n
  object : ∀ fields, text.toList.head? = some '{' → read? text = some (.object fields) →
    value = .object fields
  string : JsonNumber.ofText? text = none →
    (∀ fields, text.toList.head? = some '{' → read? text ≠ some (.object fields)) →
      value = .string text

section Embed

/-- A text with a brace in front is no number. -/
theorem ofText?_of_brace
    {text : String}
    (hbrace : text.toList.head? = some '{') :
    JsonNumber.ofText? text = none := by
  cases hread : JsonNumber.read? text.toList with
  | none => simp [JsonNumber.ofText?, hread]
  | some found =>
      obtain ⟨c, more, hlist, hother⟩ := JsonNumber.exists_cons_of_read? hread
      rw [hlist] at hbrace
      exact absurd (Option.some.inj hbrace) (hother '{' (by decide) (by decide))

theorem standsFor_embed
    (text : String) :
    StandsFor text (embed text) := by
  unfold embed
  cases hnumber : JsonNumber.ofText? text with
  | some n =>
      have hbrace : text.toList.head? ≠ some '{' := fun hbrace => by
        rw [ofText?_of_brace hbrace] at hnumber
        cases hnumber
      constructor
      · intro other hother
        cases hnumber.symm.trans hother
        rfl
      · intro fields hother
        exact absurd hother hbrace
      · intro hother
        cases hnumber.symm.trans hother
  | none =>
      dsimp only
      constructor
      · intro other hother
        cases hnumber.symm.trans hother
      · intro fields hbrace hread
        rw [if_pos hbrace, hread]
      · intro _ hnever
        split
        · rename_i hbrace
          split
          · rename_i fields hread
            exact absurd hread (hnever fields hbrace)
          · rfl
        · rfl

/-- Everything that a text stands for is tidy. -/
theorem everywhere_tidy_embed
    (text : String) :
    (embed text).Everywhere Tidy := by
  unfold embed
  split
  · rename_i n hnumber
    unfold JsonNumber.ofText? at hnumber
    split at hnumber
    · cases hnumber
      exact everywhere_tidy_number ‹_›
    · cases hnumber
  · split
    · split
      · exact everywhere_tidy_of_read? ‹_›
      · exact everywhere_of_leaf trivial trivial
    · exact everywhere_of_leaf trivial trivial

end Embed

section Root

variable {attributes : List Attribute} {category name : String}

/-- What was recorded last comes from the later records if they have anything. -/
theorem last?_append
    (front rest : List Attribute) :
    last? (front ++ rest) category name =
      (last? rest category name).or (last? front category name) := by
  rw [last?, under, List.filter_append, List.getLast?_append, Option.map_or]
  rfl

theorem last?_append_singleton
    (attributes : List Attribute) (entry : Attribute) :
    last? (attributes ++ [entry]) category name =
      if entry.category = category ∧ entry.name = name then some entry.value
      else last? attributes category name := by
  rw [last?_append]
  split
  · rename_i hentry
    simp [last?, under, hentry]
  · rename_i hentry
    rw [last?, under, List.filter_cons_of_neg (by simpa using hentry)]
    rfl

/-- A text was recorded last where anything was recorded. -/
theorem isSome_last?_iff :
    (last? attributes category name).isSome ↔
      ∃ entry ∈ attributes, entry.category = category ∧ entry.name = name := by
  simp [last?, under]

theorem exists_mem_of_last?
    {text : String}
    (hlast : last? attributes category name = some text) :
    ∃ entry ∈ attributes, entry.category = category ∧ entry.name = name ∧ entry.value = text := by
  obtain ⟨entry, hentry, rfl⟩ := Option.map_eq_some_iff.1 hlast
  have hmem := List.mem_of_getLast? hentry
  simp only [under, List.mem_filter, decide_eq_true_eq] at hmem
  exact ⟨entry, hmem.1, hmem.2.1, hmem.2.2, rfl⟩

/-- The fields of a document: an object for each category. -/
def root (attributes : List Attribute) : List (String × Json) :=
  attributes.foldl record []

theorem root_append_singleton
    (attributes : List Attribute) (entry : Attribute) :
    root (attributes ++ [entry]) = record (root attributes) entry := by
  rw [root, List.foldl_append]
  rfl

theorem ordered_root
    (attributes : List Attribute) :
    Ordered (root attributes) := by
  induction attributes using List.reverseRecOn with
  | nil => exact .nil
  | append_singleton attributes entry ih =>
      rw [root_append_singleton]
      exact ih.setField

/-- Recording changes the group of its category, and no other. -/
theorem group_record
    (fields : List (String × Json)) (entry : Attribute) :
    group category (record fields entry) =
      if category = entry.category then
        setField entry.name (embed entry.value) (group entry.category fields)
      else group category fields := by
  by_cases hcategory : category = entry.category <;>
    simp [group, record, lookup_setField, hcategory]

/-- **What a document has under a category and a name** is what the text stands for that was
recorded last. -/
theorem lookup_group_root
    (attributes : List Attribute) (category name : String) :
    lookup name (group category (root attributes)) =
      (last? attributes category name).map embed := by
  induction attributes using List.reverseRecOn with
  | nil => rfl
  | append_singleton attributes entry ih =>
      rw [root_append_singleton, group_record, last?_append_singleton]
      by_cases hcategory : entry.category = category
      · subst hcategory
        rw [if_pos rfl, lookup_setField, ih]
        by_cases hname : entry.name = name
        · simp [hname]
        · simp [hname, Ne.symm hname]
      · rw [if_neg (Ne.symm hcategory), ih]
        simp [hcategory]

theorem ordered_group_root
    (attributes : List Attribute) (category : String) :
    Ordered (group category (root attributes)) := by
  induction attributes using List.reverseRecOn with
  | nil => exact .nil
  | append_singleton attributes entry ih =>
      rw [root_append_singleton, group_record]
      split
      · rename_i hcategory
        exact hcategory ▸ ih.setField
      · exact ih

/-- A document has the group of each category under which anything was recorded. -/
theorem lookup_root
    (attributes : List Attribute) (category : String) :
    lookup category (root attributes) =
      if ∃ entry ∈ attributes, entry.category = category then
        some (.object (group category (root attributes)))
      else none := by
  induction attributes using List.reverseRecOn with
  | nil => simp [root, lookup]
  | append_singleton attributes entry ih =>
      rw [root_append_singleton, group_record]
      by_cases hcategory : category = entry.category
      · simp [record, lookup_setField, hcategory]
      · simp [record, lookup_setField, hcategory, Ne.symm hcategory, ih]

theorem eq_group_of_mem_root
    {field : String × Json}
    (hmem : field ∈ root attributes) :
    field.2 = .object (group field.1 (root attributes)) := by
  have hlookup := (ordered_root attributes).lookup_of_mem hmem
  rw [lookup_root] at hlookup
  split at hlookup
  · exact (Option.some.inj hlookup).symm
  · cases hlookup

theorem exists_last?_of_mem_group
    {field : String × Json}
    (hmem : field ∈ group category (root attributes)) :
    ∃ text, last? attributes category field.1 = some text ∧ field.2 = embed text := by
  have hlookup := (ordered_group_root attributes category).lookup_of_mem hmem
  rw [lookup_group_root] at hlookup
  obtain ⟨text, hlast, hembed⟩ := Option.map_eq_some_iff.1 hlookup
  exact ⟨text, hlast, hembed.symm⟩

/-- What holds of objects in order and everywhere in what texts stand for holds everywhere in a
document. -/
theorem everywhere_toJson
    {p : Json → Prop}
    (hobject : ∀ fields, Ordered fields → p (.object fields))
    (hvalue : ∀ entry ∈ attributes, (embed entry.value).Everywhere p) :
    (toJson attributes).Everywhere p := by
  refine everywhere_object_iff.2 ⟨hobject _ (ordered_root attributes), fun field hfield => ?_⟩
  rw [eq_group_of_mem_root hfield]
  refine everywhere_object_iff.2 ⟨hobject _ (ordered_group_root _ _), fun member hmember => ?_⟩
  obtain ⟨text, hlast, hembed⟩ := exists_last?_of_mem_group hmember
  obtain ⟨entry, hentry, -, -, rfl⟩ := exists_mem_of_last? hlast
  exact hembed ▸ hvalue entry hentry

/-- A document is two levels deeper than what texts stand for. -/
theorem depth_toJson_le
    {limit : Nat}
    (hvalue : ∀ entry ∈ attributes, (embed entry.value).depth ≤ limit) :
    (toJson attributes).depth ≤ limit + 2 := by
  refine depth_object_le_iff.2 fun field hfield => ?_
  rw [eq_group_of_mem_root hfield]
  refine depth_object_le_iff.2 fun member hmember => ?_
  obtain ⟨text, hlast, hembed⟩ := exists_last?_of_mem_group hmember
  obtain ⟨entry, hentry, -, -, rfl⟩ := exists_mem_of_last? hlast
  exact hembed ▸ hvalue entry hentry

/-- **Documents read back.**  If what texts stand for nests at most 125 levels, and the real
numbers in it read back from what is printed of them, then a document is read as an object:
it has the categories under which anything was recorded, under each an object with the names
that were recorded there, and under each of these what the text stands for that was recorded
last. -/
theorem document_reads_back
    (hdepth : ∀ entry ∈ attributes, (embed entry.value).depth ≤ 125)
    (hreals : ∀ entry ∈ attributes, (embed entry.value).Everywhere Faithful) :
    ∃ fields, read? (document attributes) = some (.object fields) ∧
      (∀ category, category ∈ names fields ↔
        ∃ entry ∈ attributes, entry.category = category) ∧
      ∀ category value, (category, value) ∈ fields →
        ∃ members, value = .object members ∧
          (∀ name, name ∈ names members ↔
            ∃ entry ∈ attributes, entry.category = category ∧ entry.name = name) ∧
          ∀ name value, (name, value) ∈ members →
            ∃ text, last? attributes category name = some text ∧ StandsFor text value := by
  have hplain : (toJson attributes).Everywhere Plain :=
    everywhere_toJson (fun _ hordered => hordered) fun entry hentry inner hwithin =>
      plain_of_tidy (everywhere_tidy_embed entry.value inner hwithin)
        (hreals entry hentry inner hwithin)
  refine ⟨root attributes, read?_print hplain (depth_toJson_le hdepth), fun category => ?_,
    fun category value hmem => ⟨group category (root attributes), eq_group_of_mem_root hmem,
      fun name => ?_, fun name value hmember => ?_⟩⟩
  · rw [mem_names_iff, lookup_root]
    split <;> simp [*]
  · rw [mem_names_iff, lookup_group_root, ← Option.isSome_iff_exists, Option.isSome_map,
      isSome_last?_iff]
  · obtain ⟨text, hlast, rfl⟩ := exists_last?_of_mem_group hmember
    exact ⟨text, hlast, standsFor_embed text⟩

end Root

section Example

/-- A text that is replaced, a number, and an object. -/
def sample : List Attribute :=
  [⟨"a", "x", "\x7b\x7d"⟩, ⟨"a", "x", "0.5"⟩, ⟨"b", "y", "\x7b\"k\":[1,true]\x7d"⟩]

theorem embed_half : embed "0.5" = .number (.real 0.5) := by
  have hhalf : JsonNumber.ofText? "0.5" = some (.real 0.5) := by decide +kernel
  simp only [embed, hhalf]

theorem embed_nested :
    embed "\x7b\"k\":[1,true]\x7d" = .object [("k", .array [.number (.whole 1), .bool true])] := by
  cbv

theorem document_reads_back_sample :
    (∀ entry ∈ sample, (embed entry.value).depth ≤ 125) ∧
      (∀ entry ∈ sample, (embed entry.value).Everywhere Faithful) ∧
      ∃ fields, read? (document sample) = some (.object fields) ∧
        "a" ∈ names fields ∧ "b" ∈ names fields ∧ "c" ∉ names fields ∧
        ∀ members value, ("a", .object members) ∈ fields → ("x", value) ∈ members →
          value = .number (.real 0.5) := by
  have hempty : embed "\x7b\x7d" = .object [] := by cbv
  have hhalf : (JsonNumber.real 0.5).ReadsBack := by
    unfold JsonNumber.ReadsBack
    decide +kernel
  have hdepth : ∀ entry ∈ sample, (embed entry.value).depth ≤ 125 := by
    simp [sample, hempty, embed_half, embed_nested, depth, membersDepth, elementsDepth]
  have hone : (Json.number (.whole 1)).Everywhere Faithful := everywhere_of_leaf trivial trivial
  have htrue : (Json.bool true).Everywhere Faithful := everywhere_of_leaf trivial trivial
  have hreals : ∀ entry ∈ sample, (embed entry.value).Everywhere Faithful := by
    simp only [sample, List.forall_mem_cons, hempty, embed_half, embed_nested]
    refine ⟨everywhere_object_iff.2 ⟨trivial, List.forall_mem_nil _⟩,
      everywhere_of_leaf trivial hhalf, everywhere_object_iff.2 ⟨trivial, ?_⟩, List.forall_mem_nil _⟩
    simp [everywhere_array_iff, hone, htrue, Faithful]
  obtain ⟨fields, hread, hnames, hfields⟩ := document_reads_back hdepth hreals
  refine ⟨hdepth, hreals, fields, hread, ?_, ?_, ?_, fun members value hmem hmember => ?_⟩
  · simp [hnames, sample]
  · simp [hnames, sample]
  · simp [hnames, sample]
  · obtain ⟨others, heq, -, htexts⟩ := hfields _ _ hmem
    cases heq
    obtain ⟨text, hlast, hstands⟩ := htexts _ _ hmember
    cases hlast
    exact hstands.number _ (by decide +kernel)

/-- A blank before its brace keeps an object from being embedded. -/
theorem document_of_blank :
    read? " \x7b\x7d" = some (.object []) ∧ (Json.object []).depth ≤ 125 ∧
      ¬ ∃ fields members, read? (document [⟨"c", "n", " \x7b\x7d"⟩]) = some (.object fields) ∧
        ("c", .object members) ∈ fields ∧ ("n", .object []) ∈ members := by
  have hblank : read? " \x7b\x7d" = some (.object []) := by cbv
  have hread : read? (document [⟨"c", "n", " \x7b\x7d"⟩]) =
      some (.object [("c", .object [("n", .string " \x7b\x7d")])]) := by cbv
  refine ⟨hblank, by simp [depth, membersDepth], ?_⟩
  rintro ⟨fields, members, hother, hmem, hmember⟩
  cases hread.symm.trans hother
  cases List.mem_singleton.1 hmem
  cases List.mem_singleton.1 hmember

end Example

end Attribute

end TimelineStore
