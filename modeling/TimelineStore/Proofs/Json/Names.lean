import TimelineStore.Proofs.Json.RoundTrip

/-!
# Names in a text

Which names the objects of a text have, and in which order, can be told without reading values:
a string before a colon is a name of the object that was opened last, and a closing brace ends
that object.  A printed document is scanned without regard to how its numbers are written.

**Results.**
* `Json.mem_objectNames_iff`: the names of the objects in a value.
* `Json.namesIn_print`: a text has the names of the objects that were printed, in the order of
  their fields.
-/

namespace TimelineStore

namespace Json

section Scan

/-- A string is read with its closing quote, so less is left. -/
theorem length_lt_of_readString?
    {scan : StringScan} {cs text after : List Char}
    (hread : readString? scan cs = some (text, after)) :
    after.length < cs.length := by
  fun_induction readString? scan cs generalizing text after <;>
    grind [Option.map_eq_some_iff]

/-- The innermost object has one more name. -/
def addName (name : String) : List (List String) → List (List String)
  | [] => []
  | names :: outer => (names ++ [name]) :: outer

/-- The names of the objects that end in a text, object by object, where `opened` has the names
so far of those that were opened before, the innermost first. -/
def namesFrom (opened : List (List String)) (cs : List Char) : List (List String) :=
  match cs with
  | [] => []
  | c :: cs =>
    if c = '{' then
      namesFrom ([] :: opened) cs
    else if c = '}' then
      opened.head?.toList ++ namesFrom opened.tail cs
    else if c = '"' then
      match _hread : readString? .plain cs with
      | none => []
      | some (text, after) =>
        if (skipBlanks after).head? = some ':' then
          namesFrom (addName (String.ofList text) opened) after
        else
          namesFrom opened after
    else
      namesFrom opened cs
termination_by cs.length
decreasing_by
  all_goals first
    | exact Nat.lt_succ_self _
    | exact Nat.lt_succ_of_lt (length_lt_of_readString? ‹_›)

/-- The names of the objects of a text, each list in the order of the text. -/
def namesIn (text : String) : List (List String) :=
  namesFrom [] text.toList

variable {opened : List (List String)} {names : List String} {cs rest : List Char}

theorem namesFrom_open :
    namesFrom opened ('{' :: rest) = namesFrom ([] :: opened) rest := by
  rw [namesFrom, if_pos rfl]

theorem namesFrom_close :
    namesFrom (names :: opened) ('}' :: rest) = names :: namesFrom opened rest := by
  rw [namesFrom, if_neg (by decide), if_pos rfl]
  rfl

/-- The character neither begins nor ends an object, nor begins a string. -/
abbrev IsIdle (c : Char) : Prop :=
  c ≠ '{' ∧ c ≠ '}' ∧ c ≠ '"'

theorem namesFrom_cons_of_isIdle
    {c : Char}
    (hidle : IsIdle c) :
    namesFrom opened (c :: rest) = namesFrom opened rest := by
  obtain ⟨hopen, hclose, hquote⟩ := hidle
  rw [namesFrom, if_neg hopen, if_neg hclose, if_neg hquote]

theorem namesFrom_append_of_isIdle
    (hidle : ∀ c ∈ cs, IsIdle c) :
    namesFrom opened (cs ++ rest) = namesFrom opened rest := by
  induction cs with
  | nil => rfl
  | cons c cs ih =>
      obtain ⟨hfirst, hothers⟩ := List.forall_mem_cons.1 hidle
      rw [List.cons_append, namesFrom_cons_of_isIdle hfirst, ih hothers]

/-- A written string is a name of the object that was opened last just if a colon comes next. -/
theorem namesFrom_writeString
    {text : String} :
    namesFrom opened (writeString text ++ rest) =
      if (skipBlanks rest).head? = some ':' then namesFrom (addName text opened) rest
      else namesFrom opened rest := by
  rw [writeString, List.cons_append, List.append_assoc, List.singleton_append, namesFrom,
    if_neg (by decide), if_neg (by decide), if_pos rfl]
  -- what was written is read as a string, so the scan goes on behind it
  split
  · rename_i hread
    cases (readString?_flatMap ..).symm.trans hread
  · rename_i hread
    cases (readString?_flatMap ..).symm.trans hread
    rw [String.ofList_toList]

/-- No colon comes next. -/
def Parts (cs : List Char) : Prop :=
  (skipBlanks cs).head? ≠ some ':'

theorem namesFrom_string
    {text : String}
    (hparts : Parts rest) :
    namesFrom opened (writeString text ++ rest) = namesFrom opened rest :=
  namesFrom_writeString.trans (if_neg hparts)

theorem namesFrom_name
    {name : String} :
    namesFrom (names :: opened) (writeString name ++ ':' :: rest) =
      namesFrom ((names ++ [name]) :: opened) rest := by
  have hcolon : (skipBlanks (':' :: rest)).head? = some ':' := by
    rw [skipBlanks_cons (by decide), List.head?_cons]
  rw [namesFrom_writeString, if_pos hcolon, addName, namesFrom_cons_of_isIdle (by decide)]

end Scan

section Numbers

theorem isIdle_of_isDigit
    {c : Char}
    (hdigit : c.isDigit = true) :
    IsIdle c := by
  refine ⟨?_, ?_, ?_⟩ <;> rintro rfl <;> cases hdigit

theorem isIdle_toDigits
    (n : Nat) :
    ∀ c ∈ Nat.toDigits 10 n, IsIdle c :=
  fun _ hmem => isIdle_of_isDigit (Nat.isDigit_of_mem_toDigits (by decide) (by decide) hmem)

theorem isIdle_replicate
    (count : Nat) :
    ∀ c ∈ List.replicate count '0', IsIdle c := by
  intro c hmem
  rw [List.eq_of_mem_replicate hmem]
  decide

theorem isIdle_exponent
    (value : Int) :
    ∀ c ∈ Decimal.Layout.json.exponent value, IsIdle c := by
  refine List.forall_mem_cons.2 ⟨?_, List.forall_mem_append.2
    ⟨isIdle_replicate _, isIdle_toDigits _⟩⟩
  split <;> decide

/-- A written decimal has no braces and no quotes. -/
theorem isIdle_layout
    (numeral : Decimal.Numeral) :
    ∀ c ∈ Decimal.Layout.json.write numeral, IsIdle c := by
  have hdigits : ∀ c ∈ numeral.digits, IsIdle c := isIdle_toDigits _
  have hpoint : ∀ {cs : List Char}, (∀ c ∈ cs, IsIdle c) → ∀ c ∈ '.' :: cs, IsIdle c :=
    fun hcs => List.forall_mem_cons.2 ⟨by decide, hcs⟩
  have hscaled : ∀ {cs : List Char}, (∀ c ∈ cs, IsIdle c) →
      ∀ c ∈ cs ++ 'e' :: Decimal.Layout.json.exponent (numeral.point - 1), IsIdle c :=
    fun hcs => List.forall_mem_append.2
      ⟨hcs, List.forall_mem_cons.2 ⟨by decide, isIdle_exponent _⟩⟩
  unfold Decimal.Layout.write
  dsimp only
  split
  · split
    · exact List.forall_mem_cons.2
        ⟨by decide, hpoint (List.forall_mem_append.2 ⟨isIdle_replicate _, hdigits⟩)⟩
    · split
      · exact List.forall_mem_append.2
          ⟨List.forall_mem_append.2 ⟨hdigits, isIdle_replicate _⟩,
            by simp [Decimal.Layout.json, IsIdle]⟩
      · exact List.forall_mem_append.2 ⟨fun c hmem => hdigits c (List.mem_of_mem_take hmem),
          hpoint fun c hmem => hdigits c (List.mem_of_mem_drop hmem)⟩
  · split
    · exact List.forall_mem_nil _
    · rename_i digit hone
      rw [hone] at hdigits
      exact List.forall_mem_cons.2 ⟨hdigits _ List.mem_cons_self, hscaled (List.forall_mem_nil _)⟩
    · rename_i digit more hsome
      rw [hsome] at hdigits
      obtain ⟨hfirst, hmore⟩ := List.forall_mem_cons.1 hdigits
      exact List.forall_mem_cons.2 ⟨hfirst, hpoint (hscaled hmore)⟩

theorem isIdle_signed
    {x : Float} {text : List Char}
    (htext : ∀ c ∈ text, IsIdle c) :
    ∀ c ∈ Decimal.signed x text, IsIdle c := by
  unfold Decimal.signed
  split
  · exact List.forall_mem_cons.2 ⟨by decide, htext⟩
  · exact htext

/-- A written number has no braces and no quotes. -/
theorem isIdle_number
    (n : JsonNumber) :
    ∀ c ∈ n.write, IsIdle c := by
  cases n with
  | whole value =>
      rw [JsonNumber.write, Int.toString_eq_repr, Int.repr_eq_if]
      split
      · rw [Nat.toList_repr]
        exact isIdle_toDigits _
      · rw [String.toList_append, Nat.toList_repr]
        exact List.forall_mem_append.2 ⟨by simp [IsIdle], isIdle_toDigits _⟩
  | real x =>
      rw [JsonNumber.write, Decimal.jsonText]
      split
      · simp [IsIdle]
      · simp [IsIdle]
      · exact isIdle_signed (isIdle_layout _)
      · exact isIdle_signed (isIdle_layout _)

end Numbers

section Objects

mutual

/-- The names of the objects in a value, in the order in which the objects end. -/
def objectNames : Json → List (List String)
  | .array values => elementsNames values
  | .object fields => membersNames fields ++ [names fields]
  | _ => []

/-- The names of the objects in elements. -/
def elementsNames : List Json → List (List String)
  | [] => []
  | value :: values => objectNames value ++ elementsNames values

/-- The names of the objects in members. -/
def membersNames : List (String × Json) → List (List String)
  | [] => []
  | (_, value) :: fields => objectNames value ++ membersNames fields

end

variable {found : List String} {values : List Json} {fields : List (String × Json)}

theorem mem_elementsNames_iff :
    found ∈ elementsNames values ↔ ∃ value ∈ values, found ∈ objectNames value := by
  induction values with
  | nil => simp [elementsNames]
  | cons value values ih => simp [elementsNames, ih]

theorem mem_membersNames_iff :
    found ∈ membersNames fields ↔ ∃ field ∈ fields, found ∈ objectNames field.2 := by
  induction fields with
  | nil => simp [membersNames]
  | cons field fields ih =>
      rw [membersNames, List.mem_append, ih, List.exists_mem_cons_iff]

/-- **The names of the objects in a value**, of the value itself too if it is one. -/
theorem mem_objectNames_iff
    {value : Json} :
    found ∈ objectNames value ↔
      ∃ fields, (Json.object fields).Within value ∧ names fields = found := by
  induction value with
  | array values ih =>
      rw [objectNames, mem_elementsNames_iff]
      constructor
      · rintro ⟨value, hmem, hfound⟩
        obtain ⟨fields, hwithin, hnames⟩ := (ih value hmem).1 hfound
        exact ⟨fields, .element hmem hwithin, hnames⟩
      · rintro ⟨fields, hwithin, hnames⟩
        cases hwithin with
        | element hmem hwithin => exact ⟨_, hmem, (ih _ hmem).2 ⟨fields, hwithin, hnames⟩⟩
  | object members ih =>
      rw [objectNames, List.mem_append, List.mem_singleton, mem_membersNames_iff]
      constructor
      · rintro (⟨member, hmem, hfound⟩ | rfl)
        · obtain ⟨fields, hwithin, hnames⟩ := (ih member hmem).1 hfound
          exact ⟨fields, .member hmem hwithin, hnames⟩
        · exact ⟨members, .self, rfl⟩
      · rintro ⟨fields, hwithin, hnames⟩
        cases hwithin with
        | self => exact .inr hnames.symm
        | member hmem hwithin => exact .inl ⟨_, hmem, (ih _ hmem).2 ⟨fields, hwithin, hnames⟩⟩
  | _ =>
      refine iff_of_false List.not_mem_nil fun ⟨fields, hwithin, _⟩ => ?_
      cases hwithin

end Objects

section Printed

variable
  {opened : List (List String)} {rest : List Char} {values : List Json}
  {fields : List (String × Json)}

/-- Whatever stands around it, the scan meets the objects of the value. -/
def Shows (value : Json) : Prop :=
  ∀ {opened : List (List String)} {rest : List Char}, Parts rest →
    namesFrom opened (value.write ++ rest) = objectNames value ++ namesFrom opened rest

theorem parts_nil :
    Parts [] :=
  (Option.some_ne_none ':').symm

theorem parts_cons
    {c : Char}
    (hblank : isBlank c = false) (hcolon : c ≠ ':') :
    Parts (c :: rest) := by
  rw [Parts, skipBlanks_cons hblank, List.head?_cons]
  exact fun hsame => hcolon (Option.some.inj hsame)

theorem parts_writeElements
    (values : List Json) :
    Parts (writeElements values ++ rest) := by
  cases values <;> exact parts_cons (by decide) (by decide)

theorem parts_writeMembers
    (fields : List (String × Json)) :
    Parts (writeMembers fields ++ rest) := by
  rcases fields with _ | ⟨⟨name, value⟩, fields⟩ <;> exact parts_cons (by decide) (by decide)

theorem namesFrom_writeElements
    (hvalues : ∀ value ∈ values, value.Shows) :
    namesFrom opened (writeElements values ++ rest) =
      elementsNames values ++ namesFrom opened rest := by
  induction values with
  | nil =>
      rw [writeElements, List.singleton_append, namesFrom_cons_of_isIdle (by decide),
        elementsNames, List.nil_append]
  | cons value values ih =>
      obtain ⟨hvalue, hvalues⟩ := List.forall_mem_cons.1 hvalues
      rw [writeElements, List.cons_append, List.append_assoc,
        namesFrom_cons_of_isIdle (by decide), hvalue (parts_writeElements values), ih hvalues,
        elementsNames, List.append_assoc]

/-- The further members of an object add their names to those that came before. -/
theorem namesFrom_writeMembers
    {before : List String}
    (hfields : ∀ field ∈ fields, field.2.Shows) :
    namesFrom (before :: opened) (writeMembers fields ++ rest) =
      membersNames fields ++ (before ++ names fields) :: namesFrom opened rest := by
  induction fields generalizing before with
  | nil =>
      rw [writeMembers, List.singleton_append, namesFrom_close, membersNames, names, List.map_nil,
        List.append_nil, List.nil_append]
  | cons field fields ih =>
      obtain ⟨name, value⟩ := field
      obtain ⟨hvalue, hfields⟩ := List.forall_mem_cons.1 hfields
      rw [writeMembers, List.cons_append, List.append_assoc, List.cons_append, List.append_assoc,
        namesFrom_cons_of_isIdle (by decide), namesFrom_name, hvalue (parts_writeMembers fields),
        ih hfields, membersNames]
      simp [names]

/-- **A value shows the names of its objects**, each in the order of its fields. -/
theorem shows
    (value : Json) :
    value.Shows := by
  induction value with
  | null => exact fun _ => namesFrom_append_of_isIdle (by simp [write, IsIdle])
  | bool value =>
      exact fun _ => namesFrom_append_of_isIdle (by cases value <;> simp [write, IsIdle])
  | number n => exact fun _ => namesFrom_append_of_isIdle (isIdle_number n)
  | string text => exact fun hparts => namesFrom_string hparts
  | array values ih =>
      intro opened rest hparts
      cases values with
      | nil => exact namesFrom_append_of_isIdle (by simp [write, IsIdle])
      | cons value values =>
          obtain ⟨hvalue, hvalues⟩ := List.forall_mem_cons.1 ih
          rw [write, List.cons_append, List.append_assoc, namesFrom_cons_of_isIdle (by decide),
            hvalue (parts_writeElements values), namesFrom_writeElements hvalues, objectNames,
            elementsNames, List.append_assoc]
  | object fields ih =>
      intro opened rest hparts
      rcases fields with _ | ⟨⟨name, value⟩, fields⟩
      · exact namesFrom_open.trans namesFrom_close
      · obtain ⟨hvalue, hfields⟩ := List.forall_mem_cons.1 ih
        rw [write, List.cons_append, List.append_assoc, List.cons_append, List.append_assoc,
          namesFrom_open, namesFrom_name, hvalue (parts_writeMembers fields),
          namesFrom_writeMembers hfields, objectNames, membersNames]
        simp [names]

/-- **A printed document has the names of the objects that were printed**, each list in the order
of the fields. -/
theorem namesIn_print
    (value : Json) :
    namesIn value.print = objectNames value := by
  have hshows : namesFrom [] (value.write ++ []) = objectNames value ++ namesFrom [] [] :=
    value.shows parts_nil
  rw [List.append_nil, namesFrom, List.append_nil] at hshows
  rw [namesIn, print, String.toList_ofList, hshows]

example :
    namesIn "\x7b\"b\":\x7b\"c\":\"d\",\"a\":1\x7d,\"a\":[\"b\"]\x7d" =
      [["c", "a"], ["b", "a"]] := by
  cbv

end Printed

end Json

end TimelineStore
