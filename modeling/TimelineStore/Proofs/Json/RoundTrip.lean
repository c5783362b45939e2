import TimelineStore.Json.Reader
import TimelineStore.Proofs.Json.Number
import TimelineStore.Proofs.Json.Value

/-!
# Documents that read back

A printed document is read back as the value that was printed, if its objects have their
fields in order, its numbers read back and it does not nest too deep.  A value that was read
has its fields in order, and its whole numbers have 64 bits.

**Results.**
* `Json.readString?_flatMap`: the characters of strings read back.
* `Json.readsBack`: values read back, with what stands after them left over.
* `Json.read?_print`: documents read back.
* `Json.everywhere_tidy_of_read?`: what holds everywhere in a value that was read.
-/

namespace TimelineStore

namespace Json

section Strings

theorem hexValue?_hexDigit :
    ∀ digit < 16, hexValue? (hexDigit digit) = some digit := by
  decide

/-- An escape of one letter is read as the character that it stands for. -/
theorem readString?_escape
    {letter c : Char}
    (hescape : escape? letter = some c) (hcode : letter ≠ 'u')
    (rest : List Char) :
    readString? .plain ('\\' :: letter :: rest) =
      (readString? .plain rest).map fun (cs, after) => (c :: cs, after) := by
  simp [readString?, hcode, hescape]

/-- An escape of a code is read as the control character of that code. -/
theorem readString?_code
    {code : Nat}
    (hcontrol : code < 0x20) (rest : List Char) :
    readString? .plain
        ('\\' :: 'u' :: '0' :: '0' :: hexDigit (code / 16) :: hexDigit (code % 16) :: rest) =
      (readString? .plain rest).map fun (cs, after) => (Char.ofNat code :: cs, after) := by
  have hzero : hexValue? '0' = some 0 := rfl
  have hhigh := hexValue?_hexDigit (code / 16) (by omega)
  have hlow := hexValue?_hexDigit (code % 16) (by omega)
  have hcode : code / 16 * 16 + code % 16 = code := by omega
  have hsingle : isLowHalf code = false ∧ isHighHalf code = false := by
    simp only [isLowHalf, isHighHalf, Bool.and_eq_false_iff, decide_eq_false_iff_not]
    omega
  simp [readString?, hzero, hhigh, hlow, hcode, hsingle]

/-- **A character is read back** from its escape or from itself. -/
theorem readString?_writeChar
    (c : Char) (rest : List Char) :
    readString? .plain (writeChar c ++ rest) =
      (readString? .plain rest).map fun (cs, after) => (c :: cs, after) := by
  unfold writeChar
  split_ifs with hquote hslash hback hfeed hline hreturn htab hcontrol
  · subst hquote
    exact readString?_escape rfl (by decide) rest
  · subst hslash
    exact readString?_escape rfl (by decide) rest
  · subst hback
    exact readString?_escape rfl (by decide) rest
  · subst hfeed
    exact readString?_escape rfl (by decide) rest
  · subst hline
    exact readString?_escape rfl (by decide) rest
  · subst hreturn
    exact readString?_escape rfl (by decide) rest
  · subst htab
    exact readString?_escape rfl (by decide) rest
  · have hread := readString?_code hcontrol rest
    rwa [Char.ofNat_toNat] at hread
  · simp [readString?, hquote, hslash, hcontrol]

/-- The characters of a string are read back up to its closing quote. -/
theorem readString?_flatMap
    (cs rest : List Char) :
    readString? .plain (cs.flatMap writeChar ++ '"' :: rest) = some (cs, rest) := by
  induction cs with
  | nil => simp [readString?]
  | cons c cs ih =>
      rw [List.flatMap_cons, List.append_assoc, readString?_writeChar, ih]
      rfl

end Strings

section Values

/-- What stands in a value that reads back: objects have their fields in order, and numbers
read back. -/
def Plain : Json → Prop
  | .number n => n.ReadsBack
  | .object fields => Ordered fields
  | _ => True

/-- The value is read back with so much depth to go, whatever stands after it. -/
def ReadsBack (depth : Nat) (value : Json) : Prop :=
  ∀ {fuel : Nat} {rest : List Char}, value.write.length ≤ fuel → JsonNumber.Stops rest →
    readValue? fuel depth (value.write ++ rest) = some (value, rest)

variable {depth fuel : Nat} {rest : List Char}

theorem skipBlanks_cons
    {c : Char} {cs : List Char}
    (hblank : isBlank c = false) :
    skipBlanks (c :: cs) = c :: cs := by
  simp [skipBlanks, hblank]

theorem stops_cons
    {c : Char} {cs : List Char}
    (hstops : c.isDigit = false ∧ c ≠ '.' ∧ c ≠ 'e' ∧ c ≠ 'E') :
    JsonNumber.Stops (c :: cs) := by
  rintro _ ⟨⟩
  exact hstops

theorem stops_writeElements
    (values : List Json) :
    JsonNumber.Stops (writeElements values ++ rest) := by
  cases values <;> exact stops_cons (by decide)

theorem stops_writeMembers
    (fields : List (String × Json)) :
    JsonNumber.Stops (writeMembers fields ++ rest) := by
  rcases fields with _ | ⟨⟨name, value⟩, fields⟩ <;> exact stops_cons (by decide)

/-- What starts a number starts nothing else. -/
theorem readValue?_of_number
    {cs : List Char} {n : JsonNumber}
    (hread : JsonNumber.read? cs = some (n, rest)) :
    readValue? (fuel + 1) depth cs = some (.number n, rest) := by
  obtain ⟨c, more, rfl, hother⟩ := JsonNumber.exists_cons_of_read? hread
  have hblank : isBlank c = false := by
    simp [isBlank, hother]
  rw [readValue?, skipBlanks_cons hblank]
  split
  all_goals
    rename_i heq
    first
    | exact absurd (List.cons.inj heq).1 (hother _ (by decide) (by decide))
    | rw [hread]; rfl

/-- A value does not start with a blank or a closing bracket. -/
theorem exists_cons_write
    {value : Json}
    (hplain : value.Plain) :
    ∃ c more, value.write = c :: more ∧ isBlank c = false ∧ c ≠ ']' := by
  cases value with
  | number n =>
      obtain ⟨c, more, hwrite, hother⟩ := JsonNumber.exists_cons_of_read? hplain
      exact ⟨c, more, hwrite, by simp [isBlank, hother], hother _ (by decide) (by decide)⟩
  | bool value => cases value <;> exact ⟨_, _, rfl, by decide, by decide⟩
  | array values => cases values <;> exact ⟨_, _, rfl, by decide, by decide⟩
  | object fields =>
      rcases fields with _ | ⟨⟨name, value⟩, fields⟩ <;> exact ⟨_, _, rfl, by decide, by decide⟩
  | _ => exact ⟨_, _, rfl, by decide, by decide⟩

theorem readElements?_write
    {values : List Json}
    (hvalues : ∀ value ∈ values, value.ReadsBack depth)
    (hfuel : (writeElements values).length ≤ fuel) :
    readElements? fuel depth (writeElements values ++ rest) = some (values, rest) := by
  induction values generalizing fuel with
  | nil =>
      cases fuel with
      | zero => cases hfuel
      | succ fuel =>
          rw [writeElements, List.cons_append, readElements?, skipBlanks_cons (by decide)]
          rfl
  | cons value values ih =>
      cases fuel with
      | zero => cases hfuel
      | succ fuel =>
          simp only [writeElements, List.length_cons, List.length_append] at hfuel
          obtain ⟨hvalue, hvalues⟩ := List.forall_mem_cons.1 hvalues
          have hfirst : readValue? fuel depth (value.write ++ (writeElements values ++ rest)) =
              some (value, writeElements values ++ rest) :=
            hvalue (by omega) (stops_writeElements values)
          have hothers : readElements? fuel depth (writeElements values ++ rest) =
              some (values, rest) := ih hvalues (by omega)
          rw [writeElements, List.cons_append, List.append_assoc, readElements?,
            skipBlanks_cons (by decide)]
          simp only [hfirst, hothers, Option.map_some]

theorem readMember?_write
    {name : String} {value : Json}
    (hvalue : value.ReadsBack depth)
    (hfuel : (writeString name).length + value.write.length ≤ fuel)
    (hstops : JsonNumber.Stops rest) :
    readMember? fuel depth (writeString name ++ ':' :: (value.write ++ rest)) =
      some ((name, value), rest) := by
  simp only [writeString, List.length_cons] at hfuel
  cases fuel with
  | zero => omega
  | succ fuel =>
      have hread : readValue? fuel depth (value.write ++ rest) = some (value, rest) :=
        hvalue (by omega) hstops
      rw [writeString, List.cons_append, List.append_assoc, List.singleton_append, readMember?,
        skipBlanks_cons (by decide)]
      simp only [readString?_flatMap, skipBlanks_cons (show isBlank ':' = false by decide), hread,
        Option.map_some, String.ofList_toList]

theorem readMembers?_write
    {fields : List (String × Json)}
    (hfields : ∀ field ∈ fields, field.2.ReadsBack depth)
    (hfuel : (writeMembers fields).length ≤ fuel) :
    readMembers? fuel depth (writeMembers fields ++ rest) = some (fields, rest) := by
  induction fields generalizing fuel with
  | nil =>
      cases fuel with
      | zero => cases hfuel
      | succ fuel =>
          rw [writeMembers, List.cons_append, readMembers?, skipBlanks_cons (by decide)]
          rfl
  | cons field fields ih =>
      obtain ⟨name, value⟩ := field
      cases fuel with
      | zero => cases hfuel
      | succ fuel =>
          simp only [writeMembers, List.length_cons, List.length_append] at hfuel
          obtain ⟨hvalue, hfields⟩ := List.forall_mem_cons.1 hfields
          have hfirst : readMember? fuel depth
              (writeString name ++ ':' :: (value.write ++ (writeMembers fields ++ rest))) =
                some ((name, value), writeMembers fields ++ rest) :=
            readMember?_write hvalue (by omega) (stops_writeMembers fields)
          have hothers : readMembers? fuel depth (writeMembers fields ++ rest) =
              some (fields, rest) := ih hfields (by omega)
          rw [writeMembers, List.cons_append, List.append_assoc, List.cons_append,
            List.append_assoc, readMembers?, skipBlanks_cons (by decide)]
          simp only [hfirst, hothers, Option.map_some]

theorem readsBack_array
    {values : List Json}
    (hplain : ∀ value ∈ values, value.Plain)
    (hvalues : ∀ value ∈ values, value.ReadsBack depth) :
    (array values).ReadsBack (depth + 1) := by
  intro fuel rest hfuel hstops
  cases fuel with
  | zero => cases values <;> simp [write] at hfuel
  | succ fuel =>
      cases values with
      | nil => simp [write, readValue?, skipBlanks, isBlank]
      | cons value values =>
          simp only [write, List.length_cons, List.length_append] at hfuel
          obtain ⟨hvalue, hvalues⟩ := List.forall_mem_cons.1 hvalues
          have hfirst : readValue? fuel depth (value.write ++ (writeElements values ++ rest)) =
              some (value, writeElements values ++ rest) :=
            hvalue (by omega) (stops_writeElements values)
          have hothers : readElements? fuel depth (writeElements values ++ rest) =
              some (values, rest) := readElements?_write hvalues (by omega)
          obtain ⟨c, more, hwrite, hblank, hbracket⟩ :=
            exists_cons_write (hplain value List.mem_cons_self)
          rw [write, List.cons_append, List.append_assoc, readValue?, skipBlanks_cons (by decide)]
          rw [hwrite, List.cons_append] at hfirst ⊢
          simp only [skipBlanks_cons hblank]
          split
          · rename_i heq
            exact absurd (List.cons.inj heq).1 hbracket
          · simp only [hfirst, hothers, Option.map_some]

/-- Members in any order are read as the fields that they leave. -/
theorem readValue?_members
    {members : List (String × Json)}
    (hmembers : ∀ member ∈ members, member.2.ReadsBack depth)
    (hfuel : (object members).write.length ≤ fuel) :
    readValue? fuel (depth + 1) ((object members).write ++ rest) =
      some (.object (fieldsOf members), rest) := by
  cases fuel with
  | zero => rcases members with _ | ⟨⟨name, value⟩, members⟩ <;> simp [write] at hfuel
  | succ fuel =>
      rcases members with _ | ⟨⟨name, value⟩, members⟩
      · simp [write, readValue?, skipBlanks, isBlank, fieldsOf]
      · simp only [write, List.length_cons, List.length_append] at hfuel
        obtain ⟨hvalue, hothers⟩ := List.forall_mem_cons.1 hmembers
        have hfirst : readMember? fuel depth
            (writeString name ++ ':' :: (value.write ++ (writeMembers members ++ rest))) =
              some ((name, value), writeMembers members ++ rest) :=
          readMember?_write hvalue (by omega) (stops_writeMembers members)
        have hothers : readMembers? fuel depth (writeMembers members ++ rest) =
            some (members, rest) := readMembers?_write hothers (by omega)
        rw [write, List.cons_append, List.append_assoc, List.cons_append, List.append_assoc,
          readValue?, skipBlanks_cons (by decide)]
        rw [writeString, List.cons_append] at hfirst ⊢
        simp only [skipBlanks_cons (show isBlank '"' = false by decide)]
        split
        · rename_i heq
          cases (List.cons.inj heq).1
        · simp only [hfirst, hothers, Option.map_some]

/-- **Values read back.** -/
theorem readsBack
    {value : Json}
    (hplain : value.Everywhere Plain) (hdepth : value.depth ≤ depth) :
    value.ReadsBack depth := by
  induction value generalizing depth with
  | null =>
      intro fuel rest hfuel hstops
      cases fuel with
      | zero => simp [write] at hfuel
      | succ fuel => simp [write, readValue?, skipBlanks, isBlank, expect]
  | bool value =>
      intro fuel rest hfuel hstops
      cases fuel with
      | zero => cases value <;> simp [write] at hfuel
      | succ fuel => cases value <;> simp [write, readValue?, skipBlanks, isBlank, expect]
  | number n =>
      intro fuel rest hfuel hstops
      have hread : n.ReadsBack := hplain.self
      rw [write] at hfuel ⊢
      cases fuel with
      | zero =>
          obtain ⟨c, more, hwrite, -⟩ := JsonNumber.exists_cons_of_read? hread
          simp [hwrite] at hfuel
      | succ fuel => exact readValue?_of_number (JsonNumber.read?_append hstops hread)
  | string text =>
      intro fuel rest hfuel hstops
      rw [write, writeString] at hfuel ⊢
      cases fuel with
      | zero => cases hfuel
      | succ fuel =>
          rw [List.cons_append, List.append_assoc, List.singleton_append, readValue?,
            skipBlanks_cons (by decide)]
          simp only [readString?_flatMap, Option.map_some, String.ofList_toList]
  | array values ih =>
      obtain ⟨-, helements⟩ := everywhere_array_iff.1 hplain
      cases depth with
      | zero => simp [Json.depth] at hdepth
      | succ depth =>
          rw [depth_array_le_iff] at hdepth
          exact readsBack_array (fun value hmem => (helements value hmem).self)
            fun value hmem => ih value hmem (helements value hmem) (hdepth value hmem)
  | object fields ih =>
      obtain ⟨hordered, hmembers⟩ := everywhere_object_iff.1 hplain
      cases depth with
      | zero => simp [Json.depth] at hdepth
      | succ depth =>
          rw [depth_object_le_iff] at hdepth
          intro fuel rest hfuel hstops
          rw [readValue?_members (fun field hmem =>
            ih field hmem (hmembers field hmem) (hdepth field hmem)) hfuel, hordered.fieldsOf_eq]

/-- What a value that was printed is read as. -/
theorem read?_print_of_readValue?
    {value found : Json}
    (hread : readValue? (2 * value.write.length + 2) depthLimit (value.write ++ []) =
      some (found, [])) :
    read? value.print = some found := by
  rw [List.append_nil] at hread
  rw [read?, print, String.toList_ofList]
  simp [hread, skipBlanks]

/-- **Documents read back.** -/
theorem read?_print
    {value : Json}
    (hplain : value.Everywhere Plain) (hdepth : value.depth ≤ depthLimit) :
    read? value.print = some value :=
  read?_print_of_readValue? (readsBack hplain hdepth (by omega) nofun)

/-- Members that are read from the text in which they are printed, in whatever order they come
and whichever of them have the same name. -/
structure Legible (members : List (String × Json)) : Prop where
  plain : ∀ member ∈ members, member.2.Everywhere Plain
  depth : (object members).depth ≤ depthLimit

/-- **Printed members are read as the fields that they leave.** -/
theorem read?_print_members
    {members : List (String × Json)}
    (hlegible : Legible members) :
    read? (object members).print = some (.object (fieldsOf members)) := by
  have hdepth := depth_object_le_iff.1 hlegible.depth
  exact read?_print_of_readValue? (readValue?_members (fun member hmem =>
    readsBack (hlegible.plain member hmem) (hdepth member hmem)) (by omega))

end Values

section Read

/-- What stands in a value that was read: objects have their fields in order, and whole
numbers have 64 bits. -/
def Tidy : Json → Prop
  | .number (.whole value) => JsonNumber.Fits value
  | .object fields => Ordered fields
  | _ => True

/-- A reader of values gives only values in which everything is tidy. -/
structure Tidies (fuel : Nat) : Prop where
  value : ∀ {depth : Nat} {cs rest : List Char} {value : Json},
    readValue? fuel depth cs = some (value, rest) → value.Everywhere Tidy
  elements : ∀ {depth : Nat} {cs rest : List Char} {values : List Json},
    readElements? fuel depth cs = some (values, rest) → ∀ value ∈ values, value.Everywhere Tidy
  member : ∀ {depth : Nat} {cs rest : List Char} {field : String × Json},
    readMember? fuel depth cs = some (field, rest) → field.2.Everywhere Tidy
  members : ∀ {depth : Nat} {cs rest : List Char} {fields : List (String × Json)},
    readMembers? fuel depth cs = some (fields, rest) → ∀ field ∈ fields, field.2.Everywhere Tidy

theorem everywhere_tidy_of_expect
    {word cs rest : List Char} {value other : Json}
    (hread : expect word value cs = some (other, rest))
    (hvalue : value.Everywhere Tidy) :
    other.Everywhere Tidy := by
  unfold expect at hread
  split at hread
  · cases hread
    exact hvalue
  · cases hread

theorem everywhere_tidy_number
    {cs rest : List Char} {n : JsonNumber}
    (hread : JsonNumber.read? cs = some (n, rest)) :
    (number n).Everywhere Tidy := by
  refine everywhere_of_leaf trivial ?_
  cases n with
  | whole value => exact JsonNumber.fits_of_read? hread
  | real x => trivial

variable {fuel depth : Nat} {cs rest : List Char}

theorem Tidies.value_succ
    {value : Json}
    (htidies : Tidies fuel)
    (hread : readValue? (fuel + 1) depth cs = some (value, rest)) :
    value.Everywhere Tidy := by
  rw [readValue?] at hread
  split at hread
  · exact everywhere_tidy_of_expect hread (everywhere_of_leaf trivial trivial)
  · exact everywhere_tidy_of_expect hread (everywhere_of_leaf trivial trivial)
  · exact everywhere_tidy_of_expect hread (everywhere_of_leaf trivial trivial)
  · obtain ⟨⟨text, after⟩, -, heq⟩ := Option.map_eq_some_iff.1 hread
    cases heq
    exact everywhere_of_leaf trivial trivial
  · split at hread
    · cases hread
    · split at hread
      · cases hread
        exact everywhere_array_iff.2 ⟨trivial, List.forall_mem_nil _⟩
      · split at hread
        · cases hread
        · rename_i first after hfirst
          obtain ⟨⟨others, after⟩, hothers, heq⟩ := Option.map_eq_some_iff.1 hread
          cases heq
          exact everywhere_array_iff.2 ⟨trivial,
            List.forall_mem_cons.2 ⟨htidies.value hfirst, htidies.elements hothers⟩⟩
  · split at hread
    · cases hread
    · split at hread
      · cases hread
        exact everywhere_object_iff.2 ⟨.nil, List.forall_mem_nil _⟩
      · split at hread
        · cases hread
        · rename_i first after hfirst
          obtain ⟨⟨others, after⟩, hothers, heq⟩ := Option.map_eq_some_iff.1 hread
          cases heq
          have hmembers : ∀ field ∈ first :: others, field.2.Everywhere Tidy :=
            List.forall_mem_cons.2 ⟨htidies.member hfirst, htidies.members hothers⟩
          exact everywhere_object_iff.2 ⟨ordered_fieldsOf _,
            fun field hmem => hmembers field (mem_of_mem_fieldsOf hmem)⟩
  · obtain ⟨⟨n, after⟩, hn, heq⟩ := Option.map_eq_some_iff.1 hread
    cases heq
    exact everywhere_tidy_number hn

theorem Tidies.elements_succ
    {values : List Json}
    (htidies : Tidies fuel)
    (hread : readElements? (fuel + 1) depth cs = some (values, rest)) :
    ∀ value ∈ values, value.Everywhere Tidy := by
  rw [readElements?] at hread
  split at hread
  · cases hread
    exact List.forall_mem_nil _
  · split at hread
    · cases hread
    · rename_i first after hfirst
      obtain ⟨⟨others, after⟩, hothers, heq⟩ := Option.map_eq_some_iff.1 hread
      cases heq
      exact List.forall_mem_cons.2 ⟨htidies.value hfirst, htidies.elements hothers⟩
  · cases hread

theorem Tidies.member_succ
    {field : String × Json}
    (htidies : Tidies fuel)
    (hread : readMember? (fuel + 1) depth cs = some (field, rest)) :
    field.2.Everywhere Tidy := by
  rw [readMember?] at hread
  split at hread
  · split at hread
    · cases hread
    · split at hread
      · obtain ⟨⟨value, after⟩, hvalue, heq⟩ := Option.map_eq_some_iff.1 hread
        cases heq
        exact htidies.value hvalue
      · cases hread
  · cases hread

theorem Tidies.members_succ
    {fields : List (String × Json)}
    (htidies : Tidies fuel)
    (hread : readMembers? (fuel + 1) depth cs = some (fields, rest)) :
    ∀ field ∈ fields, field.2.Everywhere Tidy := by
  rw [readMembers?] at hread
  split at hread
  · cases hread
    exact List.forall_mem_nil _
  · split at hread
    · cases hread
    · rename_i first after hfirst
      obtain ⟨⟨others, after⟩, hothers, heq⟩ := Option.map_eq_some_iff.1 hread
      cases heq
      exact List.forall_mem_cons.2 ⟨htidies.member hfirst, htidies.members hothers⟩
  · cases hread

theorem tidies
    (fuel : Nat) :
    Tidies fuel := by
  induction fuel with
  | zero =>
      constructor <;> intros <;> simp_all [readValue?, readElements?, readMember?, readMembers?]
  | succ fuel ih => exact ⟨ih.value_succ, ih.elements_succ, ih.member_succ, ih.members_succ⟩

/-- **Everything in a value that was read is tidy.** -/
theorem everywhere_tidy_of_read?
    {text : String} {value : Json}
    (hread : read? text = some value) :
    value.Everywhere Tidy := by
  unfold read? at hread
  dsimp only at hread
  split at hread
  · cases hread
  · rename_i found after hfound
    split at hread
    · cases hread
      exact (tidies _).value hfound
    · cases hread

/-- A real number reads back from what is printed of it. -/
def Faithful : Json → Prop
  | .number (.real x) => (JsonNumber.real x).ReadsBack
  | _ => True

/-- What is tidy reads back if its real numbers do. -/
theorem plain_of_tidy
    {value : Json}
    (htidy : value.Tidy) (hfaithful : value.Faithful) :
    value.Plain := by
  cases value with
  | number n =>
      cases n with
      | whole value => exact JsonNumber.readsBack_whole htidy
      | real x => exact hfaithful
  | object fields => exact htidy
  | _ => trivial

end Read

end Json

end TimelineStore
