import Mathlib
import TimelineStore.Proofs.Json.RoundTrip

/-!
# The same value

An object is what it has under its names: neither the order of its members nor a member that a
later one of its name replaces makes a difference.  Numbers are the same when they are of one
kind and, if they are real, have the same bits.

**Results.**
* `Json.lookup_fieldsOf`: of the members of one name the last one is found.
* `Json.fieldsOf_eq_iff`: when members leave the same fields.
* `Json.Same.eq`: values in which everything is tidy are equal when they are the same.
-/

namespace TimelineStore

namespace Json

section Members

variable {members others : List (String × Json)}

/-- **Of the members of one name the last one is found.** -/
theorem lookup_fieldsOf
    (name : String) (members : List (String × Json)) :
    lookup name (fieldsOf members) = lookup name members.reverse := by
  induction members using List.reverseRecOn with
  | nil => rfl
  | append_singleton members member ih =>
      rw [fieldsOf, List.foldl_append, ← fieldsOf, List.reverse_append]
      simp [lookup_setField, lookup, ih]

/-- **Members leave the same fields** when the last ones of each name are the same, in whatever
order the names come and whatever they had before. -/
theorem fieldsOf_eq_iff :
    fieldsOf members = fieldsOf others ↔
      ∀ name, lookup name members.reverse = lookup name others.reverse := by
  constructor
  · intro hfields name
    rw [← lookup_fieldsOf, ← lookup_fieldsOf, hfields]
  · intro hlast
    refine (ordered_fieldsOf members).ext (ordered_fieldsOf others) fun name => ?_
    rw [lookup_fieldsOf, lookup_fieldsOf, hlast]

end Members

section Same

/-- Two values are the same: objects by what they have under each name, arrays element by
element, real numbers by their bits. -/
inductive Same : Json → Json → Prop
  | null : Same .null .null
  | bool (value : Bool) : Same (.bool value) (.bool value)
  | whole (value : Int) : Same (.number (.whole value)) (.number (.whole value))
  | real {x y : Float} (hbits : x.toBits = y.toBits) : Same (.number (.real x)) (.number (.real y))
  | string (text : String) : Same (.string text) (.string text)
  | array {values others : List Json}
      (helements : List.Forall₂ Same values others) : Same (.array values) (.array others)
  | object {fields others : List (String × Json)}
      (hfields : ∀ name, Option.Rel Same (lookup name fields) (lookup name others)) :
      Same (.object fields) (.object others)

variable {value other : Json}

theorem Same.refl
    (value : Json) :
    Same value value := by
  induction value with
  | null => exact .null
  | bool value => exact .bool value
  | number n =>
      cases n with
      | whole value => exact .whole value
      | real x => exact .real rfl
  | string text => exact .string text
  | array values ih => exact .array (List.forall₂_same.2 ih)
  | object fields ih =>
      refine .object fun name => ?_
      cases hlookup : lookup name fields with
      | none => exact .none
      | some value => exact .some (ih _ (mem_of_lookup hlookup))

/-- **Values in which everything is tidy are equal when they are the same**: the order of fields
leaves no other way to have what they have. -/
theorem Same.eq
    (hsame : Same value other)
    (hvalue : value.Everywhere Tidy) (hother : other.Everywhere Tidy) :
    value = other := by
  induction value generalizing other with
  | null =>
      cases hsame
      rfl
  | bool value =>
      cases hsame
      rfl
  | number n =>
      cases hsame with
      | whole => rfl
      | real hbits => rw [Float.toBits_inj.1 hbits]
  | string text =>
      cases hsame
      rfl
  | array values ih =>
      cases hsame with
      | array helements =>
          obtain ⟨-, hvalues⟩ := everywhere_array_iff.1 hvalue
          obtain ⟨-, hothers⟩ := everywhere_array_iff.1 hother
          obtain ⟨hlength, helements⟩ := List.forall₂_iff_get.1 helements
          refine congrArg Json.array (List.ext_get hlength fun i hi hi' => ?_)
          exact ih _ (List.get_mem _ _) (helements i hi hi') (hvalues _ (List.get_mem _ _))
            (hothers _ (List.get_mem _ _))
  | object fields ih =>
      cases hsame with
      | @object _ others hfields =>
          obtain ⟨hordered, hvalues⟩ := everywhere_object_iff.1 hvalue
          obtain ⟨hordered', hothers⟩ := everywhere_object_iff.1 hother
          refine congrArg Json.object (Ordered.ext hordered hordered' fun name => ?_)
          have hrel := hfields name
          generalize hlookup : lookup name fields = found,
            hlookup' : lookup name others = found' at hrel ⊢
          cases hrel with
          | none => rfl
          | some hsame =>
              have hmem := mem_of_lookup hlookup
              have hmem' := mem_of_lookup hlookup'
              exact congrArg some (ih _ hmem hsame (hvalues _ hmem) (hothers _ hmem'))

end Same

end Json

end TimelineStore
