import TimelineStore.Proofs.Attribute.Document
import TimelineStore.Proofs.Json.Names
import TimelineStore.Proofs.Json.Same
import TimelineStore.Proofs.Text.Utf8

/-!
# One document for what was recorded last

A document shows what the texts stand for that were recorded last under each category and name,
and nothing else of how it came about: neither the order of records nor those that were replaced,
and of a text only the value that it is read as.

**Results.**
* `Attribute.toJson_eq_of_last?`: documents are told apart by what was recorded last.
* `Attribute.last?_of_overwritten`: a record that is replaced later leaves nothing.
* `Attribute.document_canonical`: what makes no difference to a document, and how it is laid out.
-/

namespace TimelineStore

open Json

namespace Attribute

section Last

variable {attributes first second front rest : List Attribute} {category name : String}

theorem exists_category_iff :
    (∃ entry ∈ attributes, entry.category = category) ↔
      ∃ name, (last? attributes category name).isSome := by
  simp only [isSome_last?_iff]
  constructor
  · rintro ⟨entry, hmem, hcategory⟩
    exact ⟨entry.name, entry, hmem, hcategory, rfl⟩
  · rintro ⟨name, entry, hmem, hcategory, -⟩
    exact ⟨entry, hmem, hcategory⟩

/-- **Documents are told apart by what was recorded last**: where that stands for the same under
every category and name, there is one value. -/
theorem toJson_eq_of_last?
    (hlast : ∀ category name,
      (last? first category name).map embed = (last? second category name).map embed) :
    toJson first = toJson second := by
  have hgroup : ∀ category, group category (root first) = group category (root second) :=
    fun category => (ordered_group_root first category).ext (ordered_group_root second category)
      fun name => by rw [lookup_group_root, lookup_group_root, hlast]
  have hrecorded : ∀ category, (∃ entry ∈ first, entry.category = category) ↔
      ∃ entry ∈ second, entry.category = category := fun category => by
    rw [exists_category_iff, exists_category_iff]
    exact exists_congr fun name => by rw [← Option.isSome_map, hlast, Option.isSome_map]
  refine congrArg Json.object ((ordered_root first).ext (ordered_root second) fun category => ?_)
  change lookup category (root first) = lookup category (root second)
  simp only [lookup_root, hgroup, hrecorded]

/-- A record that a later one replaces leaves nothing to be last. -/
theorem last?_of_overwritten
    {entry : Attribute}
    (hlater : ∃ later ∈ rest, later.category = entry.category ∧ later.name = entry.name) :
    last? (front ++ entry :: rest) category name = last? (front ++ rest) category name := by
  rw [last?_append, last?_append]
  by_cases hpair : entry.category = category ∧ entry.name = name
  · -- something later is under the same name, so what comes before it does not count
    obtain ⟨rfl, rfl⟩ := hpair
    obtain ⟨text, hlast⟩ := Option.isSome_iff_exists.1 (isSome_last?_iff.2 hlater)
    rw [← List.singleton_append, last?_append, hlast]
    rfl
  · rw [last?, under, List.filter_cons_of_neg (by simpa using hpair)]
    rfl

/-- Texts that are read as the same value are embedded as one. -/
theorem map_embed_eq
    {text other : Option String}
    (hsame : Option.Rel Same (text.map embed) (other.map embed)) :
    text.map embed = other.map embed :=
  match text, other, hsame with
  | none, none, _ => rfl
  | some text, some other, .some hsame =>
    congrArg some (hsame.eq (everywhere_tidy_embed text) (everywhere_tidy_embed other))

/-- Nothing that was recorded last is lost: one value shows the same under every category and
name. -/
theorem same_of_toJson_eq
    (hvalue : toJson first = toJson second) (category name : String) :
    Option.Rel Same ((last? first category name).map embed)
      ((last? second category name).map embed) := by
  have hroot : root first = root second := Json.object.inj hvalue
  rw [← lookup_group_root, ← lookup_group_root, hroot]
  cases lookup name (group category (root second)) with
  | none => exact .none
  | some value => exact .some (.refl value)

/-- The names of every object in a document come in the order of their bytes. -/
theorem names_pairwise_bytes_lt
    {fields : List (String × Json)}
    (hwithin : (Json.object fields).Within (toJson attributes)) :
    (names fields).Pairwise fun name next => Text.bytes name < Text.bytes next := by
  have htidy : (toJson attributes).Everywhere Tidy :=
    everywhere_toJson (fun _ hordered => hordered) fun entry _ => everywhere_tidy_embed entry.value
  exact (htidy _ hwithin).imp Text.bytes_lt

/-- The names of every object in the text of a document come in the order of their bytes. -/
theorem namesIn_document_pairwise
    {found : List String}
    (hfound : found ∈ namesIn (document attributes)) :
    found.Pairwise fun name next => Text.bytes name < Text.bytes next := by
  rw [document, namesIn_print, mem_objectNames_iff] at hfound
  obtain ⟨fields, hwithin, rfl⟩ := hfound
  exact names_pairwise_bytes_lt hwithin

/-- The text of an object stands for the fields that its members leave. -/
theorem embed_print
    {members : List (String × Json)}
    (hlegible : Legible members) :
    embed (Json.object members).print = .object (fieldsOf members) := by
  have hbrace : (Json.object members).print.toList.head? = some '{' := by
    rw [print, String.toList_ofList]
    rcases members with _ | ⟨⟨name, value⟩, members⟩ <;> rfl
  rw [embed, ofText?_of_brace hbrace]
  simp only [if_pos hbrace, read?_print_members hlegible]

/-- A text may take the place of another that stands for the same. -/
theorem document_of_embed_eq
    {text other : String}
    (hsame : embed text = embed other) :
    document (front ++ ⟨category, name, text⟩ :: rest) =
      document (front ++ ⟨category, name, other⟩ :: rest) := by
  simp only [document, toJson, List.foldl_append, List.foldl_cons, record, hsame]

/-- The records of each name of a category come in the same order, however they stand between
those of others. -/
def Reordered (first second : List Attribute) : Prop :=
  ∀ category name, under category name first = under category name second

/-- **Documents are canonical.**  What they show is decided by the values that the texts are read
as that were recorded last, so neither the order of records under different names nor a record
that is replaced later makes a difference, and in the text of an object neither the order of its
members nor one that is replaced later.  The names of the objects in the text of a document are
those of the objects in the value that is printed; of every object, of those in the values too,
they come in the order of their bytes, and none twice.  All that was recorded last is in the
value that is printed, for where it differs the values do. -/
theorem document_canonical :
    (∀ first second : List Attribute,
      (∀ category name, Option.Rel Same ((last? first category name).map embed)
        ((last? second category name).map embed)) → document first = document second) ∧
    (∀ first second : List Attribute, Reordered first second →
      document first = document second) ∧
    (∀ (front rest : List Attribute) (entry : Attribute),
      (∃ later ∈ rest, later.category = entry.category ∧ later.name = entry.name) →
        document (front ++ entry :: rest) = document (front ++ rest)) ∧
    (∀ (front rest : List Attribute) (category name : String) (members others),
      Legible members → Legible others →
        (∀ key, lookup key members.reverse = lookup key others.reverse) →
          document (front ++ ⟨category, name, (Json.object members).print⟩ :: rest) =
            document (front ++ ⟨category, name, (Json.object others).print⟩ :: rest)) ∧
    (∀ attributes : List Attribute, document attributes = (toJson attributes).print ∧
      (∀ found, found ∈ namesIn (document attributes) ↔
        ∃ fields, (Json.object fields).Within (toJson attributes) ∧ names fields = found) ∧
      ∀ found ∈ namesIn (document attributes),
        found.Pairwise fun name next => Text.bytes name < Text.bytes next) ∧
    ∀ first second : List Attribute, toJson first = toJson second →
      ∀ category name, Option.Rel Same ((last? first category name).map embed)
        ((last? second category name).map embed) := by
  have hdocument : ∀ {first second : List Attribute},
      (∀ category name,
        (last? first category name).map embed = (last? second category name).map embed) →
      document first = document second :=
    fun hlast => congrArg Json.print (toJson_eq_of_last? hlast)
  refine ⟨fun first second hsame => ?_, fun first second hunder => ?_,
    fun front rest entry hlater => ?_,
    fun front rest category name members others hmembers hothers hlast => ?_,
    fun attributes => ⟨rfl, fun found => ?_, fun found => namesIn_document_pairwise⟩,
    fun first second => same_of_toJson_eq⟩
  · exact hdocument fun category name => map_embed_eq (hsame category name)
  · exact hdocument fun category name => by rw [last?, last?, hunder category name]
  · exact hdocument fun category name => by rw [last?_of_overwritten hlater]
  · exact document_of_embed_eq (by
      rw [embed_print hmembers, embed_print hothers, fieldsOf_eq_iff.2 hlast])
  · rw [document, namesIn_print, mem_objectNames_iff]

end Last

section Example

/-- An object with blanks and a name that comes twice, and a number with an exponent. -/
def spaced : List Attribute :=
  [⟨"b", "y", "\x7b \"k\" : 1,\"k\":2, \"j\":[true] \x7d"⟩, ⟨"a", "x", "5e-1"⟩]

/-- The same object and number, after a text that is replaced. -/
def compact : List Attribute :=
  [⟨"a", "x", "old"⟩, ⟨"a", "x", "0.5"⟩, ⟨"b", "y", "\x7b\"j\":[true],\"k\":2\x7d"⟩]

/-- Members of which the first is replaced by the last, and the two that it leaves. -/
def replaced : List (String × Json) :=
  [("k", .null), ("j", .array []), ("k", .bool true)]

def kept : List (String × Json) :=
  [("k", .bool true), ("j", .array [])]

theorem plain_array_nil : (Json.array []).Everywhere Plain :=
  everywhere_array_iff.2 ⟨trivial, List.forall_mem_nil _⟩

theorem plain_true : (Json.bool true).Everywhere Plain :=
  everywhere_of_leaf trivial trivial

theorem legible_replaced : Legible replaced where
  plain := by
    have hnull : Json.null.Everywhere Plain := everywhere_of_leaf trivial trivial
    simp [replaced, hnull, plain_array_nil, plain_true]
  depth := by decide

theorem legible_kept : Legible kept where
  plain := by simp [kept, plain_array_nil, plain_true]
  depth := by decide

theorem document_canonical_spaced :
    (∀ category name, Option.Rel Same ((last? spaced category name).map embed)
      ((last? compact category name).map embed)) ∧ document spaced = document compact ∧
    Reordered [⟨"a", "x", "1"⟩, ⟨"b", "y", "2"⟩] [⟨"b", "y", "2"⟩, ⟨"a", "x", "1"⟩] ∧
    document [⟨"a", "x", "1"⟩, ⟨"b", "y", "2"⟩] = document [⟨"b", "y", "2"⟩, ⟨"a", "x", "1"⟩] ∧
    document compact = document compact.tail ∧
    document [⟨"b", "y", (Json.object replaced).print⟩] =
      document [⟨"b", "y", (Json.object kept).print⟩] ∧
    Text.bytes "j" < Text.bytes "k" ∧
    toJson spaced ≠ toJson spaced.tail := by
  have hexponent : embed "5e-1" = .number (.real 0.5) := by
    have hhalf : JsonNumber.ofText? "5e-1" = some (.real 0.5) := by decide +kernel
    simp only [embed, hhalf]
  have hspaced : embed "\x7b \"k\" : 1,\"k\":2, \"j\":[true] \x7d" =
      .object [("j", .array [.bool true]), ("k", .number (.whole 2))] := by cbv
  have hcompact : embed "\x7b\"j\":[true],\"k\":2\x7d" =
      .object [("j", .array [.bool true]), ("k", .number (.whole 2))] := by cbv
  have hsame : ∀ category name, Option.Rel Same ((last? spaced category name).map embed)
      ((last? compact category name).map embed) := by
    intro category name
    by_cases hx : "a" = category ∧ "x" = name
    · obtain ⟨rfl, rfl⟩ := hx
      exact .some (hexponent ▸ embed_half ▸ .refl _)
    · by_cases hy : "b" = category ∧ "y" = name
      · obtain ⟨rfl, rfl⟩ := hy
        exact .some (hspaced ▸ hcompact ▸ .refl _)
      · have hnone : last? spaced category name = none ∧ last? compact category name = none := by
          simp [last?, under, spaced, compact, hx, hy]
        rw [hnone.1, hnone.2]
        exact .none
  have hreordered : Reordered [⟨"a", "x", "1"⟩, ⟨"b", "y", "2"⟩]
      [⟨"b", "y", "2"⟩, ⟨"a", "x", "1"⟩] := by
    intro category name
    by_cases hcategory : "a" = category
    · subst hcategory
      simp [under, List.filter_cons]
    · simp [under, List.filter_cons, hcategory]
  have hvalue : toJson compact = .object [("a", .object [("x", .number (.real 0.5))]),
      ("b", .object [("y", .object [("j", .array [.bool true]), ("k", .number (.whole 2))])])] := by
    have horder : ¬ "b" < "a" := by decide
    simp [toJson, compact, record, group, setField, lookup, hcompact, embed_half, horder]
  have hlast : ∀ key, lookup key replaced.reverse = lookup key kept.reverse := by
    intro key
    by_cases hk : key = "k" <;> simp [replaced, kept, lookup, hk]
  obtain ⟨hdocument, hmoved, hoverwritten, hmembers, hprinted, htold⟩ := document_canonical
  refine ⟨hsame, hdocument _ _ hsame, hreordered, hmoved _ _ hreordered,
    hoverwritten [] compact.tail ⟨"a", "x", "old"⟩ ⟨_, List.mem_cons_self, rfl, rfl⟩,
    hmembers [] [] "b" "y" _ _ legible_replaced legible_kept hlast, ?_,
    fun hsame => by cases htold _ _ hsame "b" "y"⟩
  have hwithin : (Json.object [("j", .array [.bool true]), ("k", .number (.whole 2))]).Within
      (toJson compact) := by
    rw [hvalue]
    exact .member (.tail _ (.head _)) (.member (.head _) .self)
  obtain ⟨-, hnames, hordered⟩ := hprinted compact
  exact List.rel_of_pairwise_cons (hordered _ ((hnames _).2 ⟨_, hwithin, rfl⟩)) (.head _)

end Example

end Attribute

end TimelineStore
