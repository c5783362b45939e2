import Mathlib.Data.List.Induction
import Mathlib.Data.List.Nodup
import Mathlib.Data.String.Basic
import TimelineStore.Json.Value

/-!
# Values and their fields

Objects hold other values and arrays do, so a proof about all values goes through what each
of them holds.  The fields of an object come in the order of their names, which leaves one
object one list of fields: whoever looks up the same under every name has the same fields.

**Results.**
* `Json.induct`: induction over what values hold.
* `Json.everywhere_array_iff`, `Json.everywhere_object_iff`: what holds everywhere in a value.
* `Json.lookup_setField`, `Json.Ordered.setField`: what it is to set a field.
* `Json.Ordered.ext`: fields in order are told apart by looking names up.
* `Json.Ordered.fieldsOf_eq`: members in order are fields already.
-/

namespace TimelineStore

namespace Json

section Values

/-- Induction over what values hold. -/
@[elab_as_elim, induction_eliminator]
theorem induct
    {motive : Json → Prop}
    (null : motive .null)
    (bool : ∀ value, motive (.bool value))
    (number : ∀ value, motive (.number value))
    (string : ∀ value, motive (.string value))
    (array : ∀ values, (∀ value ∈ values, motive value) → motive (.array values))
    (object : ∀ fields, (∀ field ∈ fields, motive field.2) → motive (.object fields)) :
    ∀ value, motive value := by
  refine Json.rec (motive_1 := motive) (motive_2 := fun values => ∀ value ∈ values, motive value)
    (motive_3 := fun fields => ∀ field ∈ fields, motive field.2)
    (motive_4 := fun field => motive field.2) null bool number string array object
    (List.forall_mem_nil _) ?_ (List.forall_mem_nil _) ?_ (fun _ _ hvalue => hvalue)
  · intro first others hfirst hothers
    exact List.forall_mem_cons.2 ⟨hfirst, hothers⟩
  · intro first others hfirst hothers
    exact List.forall_mem_cons.2 ⟨hfirst, hothers⟩

/-- A value is another or stands somewhere in it. -/
inductive Within (inner : Json) : Json → Prop
  | self : Within inner inner
  | element {value : Json} {values : List Json}
      (hmem : value ∈ values) (hwithin : Within inner value) : Within inner (.array values)
  | member {field : String × Json} {fields : List (String × Json)}
      (hmem : field ∈ fields) (hwithin : Within inner field.2) : Within inner (.object fields)

/-- Everything in a value is so, and the value is. -/
def Everywhere (p : Json → Prop) (value : Json) : Prop :=
  ∀ inner, inner.Within value → p inner

variable {p : Json → Prop} {values : List Json} {fields : List (String × Json)}

theorem Everywhere.self
    {value : Json}
    (heverywhere : value.Everywhere p) :
    p value :=
  heverywhere value .self

theorem everywhere_array_iff :
    (array values).Everywhere p ↔ p (.array values) ∧ ∀ value ∈ values, value.Everywhere p := by
  constructor
  · intro heverywhere
    exact ⟨heverywhere.self, fun value hmem inner hwithin =>
      heverywhere inner (.element hmem hwithin)⟩
  · rintro ⟨hself, helements⟩ inner hwithin
    cases hwithin with
    | self => exact hself
    | element hmem hwithin => exact helements _ hmem inner hwithin

theorem everywhere_object_iff :
    (object fields).Everywhere p ↔
      p (.object fields) ∧ ∀ field ∈ fields, field.2.Everywhere p := by
  constructor
  · intro heverywhere
    exact ⟨heverywhere.self, fun field hmem inner hwithin =>
      heverywhere inner (.member hmem hwithin)⟩
  · rintro ⟨hself, hmembers⟩ inner hwithin
    cases hwithin with
    | self => exact hself
    | member hmem hwithin => exact hmembers _ hmem inner hwithin

/-- The value holds no other. -/
def IsLeaf : Json → Prop
  | .array _ => False
  | .object _ => False
  | _ => True

/-- What holds of a value that holds no other holds everywhere in it. -/
theorem everywhere_of_leaf
    {value : Json}
    (hleaf : value.IsLeaf) (hself : p value) :
    value.Everywhere p := by
  intro inner hwithin
  cases hwithin with
  | self => exact hself
  | element => exact hleaf.elim
  | member => exact hleaf.elim

mutual

/-- How deep the arrays and objects of a value nest. -/
def depth : Json → Nat
  | .array values => elementsDepth values + 1
  | .object fields => membersDepth fields + 1
  | _ => 0

/-- The depth of the deepest element. -/
def elementsDepth : List Json → Nat
  | [] => 0
  | value :: values => max (depth value) (elementsDepth values)

/-- The depth of the deepest member. -/
def membersDepth : List (String × Json) → Nat
  | [] => 0
  | (_, value) :: fields => max (depth value) (membersDepth fields)

end

theorem elementsDepth_le_iff
    {limit : Nat} :
    elementsDepth values ≤ limit ↔ ∀ value ∈ values, value.depth ≤ limit := by
  induction values with
  | nil => simp [elementsDepth]
  | cons value values ih => simp [elementsDepth, ih]

theorem membersDepth_le_iff
    {limit : Nat} :
    membersDepth fields ≤ limit ↔ ∀ field ∈ fields, field.2.depth ≤ limit := by
  induction fields with
  | nil => simp [membersDepth]
  | cons field fields ih => rw [membersDepth, List.forall_mem_cons, max_le_iff, ih]

theorem depth_array_le_iff
    {limit : Nat} :
    (array values).depth ≤ limit + 1 ↔ ∀ value ∈ values, value.depth ≤ limit := by
  rw [depth, Nat.add_le_add_iff_right, elementsDepth_le_iff]

theorem depth_object_le_iff
    {limit : Nat} :
    (object fields).depth ≤ limit + 1 ↔ ∀ field ∈ fields, field.2.depth ≤ limit := by
  rw [depth, Nat.add_le_add_iff_right, membersDepth_le_iff]

end Values

section Fields

variable {name other : String} {value : Json} {fields others : List (String × Json)}

/-- The names of fields. -/
def names (fields : List (String × Json)) : List String :=
  fields.map Prod.fst

/-- The names come one after the other, and none comes twice. -/
def Ordered (fields : List (String × Json)) : Prop :=
  (names fields).Pairwise (· < ·)

theorem ordered_cons_iff
    {field : String × Json} :
    Ordered (field :: fields) ↔ (∀ name ∈ names fields, field.1 < name) ∧ Ordered fields :=
  List.pairwise_cons

theorem lookup_eq_none_iff :
    lookup name fields = none ↔ name ∉ names fields := by
  induction fields with
  | nil => simp [lookup, names]
  | cons field fields ih =>
      rw [names, List.map_cons, List.mem_cons, not_or, ← names, ← ih, lookup]
      split
      · simp [*]
      · simp [*]

theorem mem_names_iff :
    name ∈ names fields ↔ ∃ value, lookup name fields = some value := by
  rw [← Option.isSome_iff_exists, Option.isSome_iff_ne_none, ne_eq, lookup_eq_none_iff, not_not]

theorem mem_of_lookup
    (hlookup : lookup name fields = some value) :
    (name, value) ∈ fields := by
  induction fields with
  | nil => cases hlookup
  | cons field fields ih =>
      rw [lookup] at hlookup
      split at hlookup
      · rename_i hname
        cases hlookup
        rw [hname]
        exact List.mem_cons_self
      · exact List.mem_cons_of_mem _ (ih hlookup)

/-- A field in order is found under its name. -/
theorem Ordered.lookup_of_mem
    (hordered : Ordered fields)
    (hmem : (name, value) ∈ fields) :
    lookup name fields = some value := by
  induction fields with
  | nil => cases hmem
  | cons field fields ih =>
      obtain ⟨hbefore, hordered⟩ := ordered_cons_iff.1 hordered
      rw [lookup]
      rcases List.mem_cons.1 hmem with rfl | hmem
      · rw [if_pos rfl]
      · have hless := hbefore name (List.mem_map_of_mem (f := Prod.fst) hmem)
        rw [if_neg hless.ne']
        exact ih hordered hmem

/-- **Setting a field changes what is found under its name**, and nothing else. -/
theorem lookup_setField :
    lookup other (setField name value fields) =
      if other = name then some value else lookup other fields := by
  induction fields with
  | nil => rfl
  | cons field fields ih =>
      rw [setField]
      split
      · rename_i hname
        simp only [lookup, ← hname]
        split <;> rfl
      · rename_i hname
        split
        · simp only [lookup]
        · simp only [lookup, ih]
          split
          · rename_i hother
            rw [if_neg (fun hsame => hname (hsame.symm.trans hother))]
          · rfl

theorem mem_names_setField :
    other ∈ names (setField name value fields) ↔ other = name ∨ other ∈ names fields := by
  rw [mem_names_iff, mem_names_iff, lookup_setField]
  by_cases hother : other = name <;> simp [hother]

theorem Ordered.setField
    (hordered : Ordered fields) :
    Ordered (setField name value fields) := by
  induction fields with
  | nil => exact List.pairwise_singleton ..
  | cons field fields ih =>
      obtain ⟨hbefore, hrest⟩ := ordered_cons_iff.1 hordered
      rw [Json.setField]
      split
      · rename_i hname
        rw [ordered_cons_iff]
        exact ⟨hname ▸ hbefore, hrest⟩
      · rename_i hname
        split
        · rename_i hless
          refine ordered_cons_iff.2 ⟨fun other hother => ?_, hordered⟩
          rcases List.mem_cons.1 hother with rfl | hother
          · exact hless
          · exact hless.trans (hbefore other hother)
        · rename_i hnot
          refine ordered_cons_iff.2 ⟨fun other hother => ?_, ih hrest⟩
          rcases mem_names_setField.1 hother with rfl | hother
          · exact lt_of_le_of_ne (not_lt.1 hnot) (Ne.symm hname)
          · exact hbefore other hother

/-- **Fields in order are told apart by looking names up.** -/
theorem Ordered.ext
    (hfields : Ordered fields) (hothers : Ordered others)
    (hsame : ∀ name, lookup name fields = lookup name others) :
    fields = others := by
  have hpairs : ∀ {list : List (String × Json)}, Ordered list →
      list.Pairwise fun field next => field.1 < next.1 := List.pairwise_map.1
  have hnodup : ∀ {list : List (String × Json)}, Ordered list → list.Nodup := fun hordered =>
    (hpairs hordered).imp fun hless heq => (heq ▸ hless).false
  have hmem : ∀ field, field ∈ fields ↔ field ∈ others := fun field =>
    ⟨fun hmem => mem_of_lookup ((hsame field.1).symm.trans (hfields.lookup_of_mem hmem)),
      fun hmem => mem_of_lookup ((hsame field.1).trans (hothers.lookup_of_mem hmem))⟩
  exact ((List.perm_ext_iff_of_nodup (hnodup hfields) (hnodup hothers)).2 hmem).eq_of_pairwise
    (fun _ _ _ _ hless hgreater => absurd hless hgreater.asymm) (hpairs hfields) (hpairs hothers)

/-- A field whose name comes after all others is set at the end. -/
theorem setField_of_lt
    (hbefore : ∀ other ∈ names fields, other < name) :
    setField name value fields = fields ++ [(name, value)] := by
  induction fields with
  | nil => rfl
  | cons field fields ih =>
      obtain ⟨hfirst, hrest⟩ := List.forall_mem_cons.1 hbefore
      rw [setField, if_neg hfirst.ne', if_neg hfirst.not_gt, ih hrest, List.cons_append]

/-- **Members in order are fields already.** -/
theorem Ordered.fieldsOf_eq
    (hordered : Ordered fields) :
    fieldsOf fields = fields := by
  induction fields using List.reverseRecOn with
  | nil => rfl
  | append_singleton fields field ih =>
      rw [Ordered, names, List.map_append, List.pairwise_append] at hordered
      obtain ⟨hbefore, -, hlast⟩ := hordered
      rw [fieldsOf, List.foldl_append, ← fieldsOf, ih hbefore]
      exact setField_of_lt fun other hother => hlast other hother _ List.mem_cons_self

theorem ordered_foldl_setField
    (members : List (String × Json))
    (hordered : Ordered fields) :
    Ordered (members.foldl (fun fields member => setField member.1 member.2 fields) fields) := by
  induction members generalizing fields with
  | nil => exact hordered
  | cons member members ih => exact ih hordered.setField

theorem ordered_fieldsOf
    (members : List (String × Json)) :
    Ordered (fieldsOf members) :=
  ordered_foldl_setField members .nil

theorem eq_or_mem_of_mem_setField
    {field : String × Json}
    (hmem : field ∈ setField name value fields) :
    field = (name, value) ∨ field ∈ fields := by
  induction fields with
  | nil => exact .inl (List.mem_singleton.1 hmem)
  | cons first fields ih =>
      rw [setField] at hmem
      split at hmem
      · exact (List.mem_cons.1 hmem).imp id (List.mem_cons_of_mem _)
      · split at hmem
        · exact List.mem_cons.1 hmem
        · rcases List.mem_cons.1 hmem with rfl | hmem
          · exact .inr List.mem_cons_self
          · exact (ih hmem).imp id (List.mem_cons_of_mem _)

/-- Every field is one of the members. -/
theorem mem_of_mem_fieldsOf
    {members : List (String × Json)} {field : String × Json}
    (hmem : field ∈ fieldsOf members) :
    field ∈ members := by
  induction members using List.reverseRecOn with
  | nil => cases hmem
  | append_singleton members member ih =>
      rw [fieldsOf, List.foldl_append, ← fieldsOf] at hmem
      rcases eq_or_mem_of_mem_setField hmem with rfl | hmem
      · exact List.mem_append_right _ List.mem_cons_self
      · exact List.mem_append_left _ (ih hmem)

end Fields

end Json

end TimelineStore
