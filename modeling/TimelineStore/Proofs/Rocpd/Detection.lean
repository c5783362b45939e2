import TimelineStore.Rocpd.File

/-!
# Telling formats by the names of tables

The names of its tables decide what format a database has.  The tables of a rocpd file are looked
for by their exact names.  Those of the other known format are looked for by a pattern, in which
an underscore stands for any one character and the case of English letters does not count.  So
every name that begins with the letters of the pattern is found, but others are too, such as one
with spaces in place of the underscores; a file that has such a table, and none that begins with
the letters themselves, is taken for one of the other format.

**Results.**
* `Rocpd.beginsLike_iff`: what the pattern finds.
* `Rocpd.beginsLike_of_begins`: it finds every name that begins with its letters.
* `Rocpd.detection_follows_names`: which format a database shows and what opening it comes to.
* `Rocpd.exists_found_misnamed`: a name is found that does not begin with the letters.
-/

namespace TimelineStore.Rocpd

section Patterns

/-- A text is like a pattern: a percent sign of the pattern stands for any characters, an
underscore for any one character, and another character for itself, an English letter in either
case. -/
inductive Like : (pattern text : List Char) → Prop
  | nil : Like [] []
  | skip {pattern text : List Char} : Like pattern text → Like ('%' :: pattern) text
  | take {pattern text : List Char} (c : Char) :
      Like ('%' :: pattern) text → Like ('%' :: pattern) (c :: text)
  | one {pattern text : List Char} (c : Char) :
      Like pattern text → Like ('_' :: pattern) (c :: text)
  | same {p c : Char} {pattern text : List Char} :
      p.toLower = c.toLower → Like pattern text → Like (p :: pattern) (c :: text)

/-- Anything is like a percent sign. -/
theorem like_percent :
    ∀ text : List Char, Like ['%'] text
  | [] => .skip .nil
  | c :: text => .take c (like_percent text)

/-- A text begins as a stem says if it is like the stem with a percent sign behind it. -/
theorem beginsLike_iff
    {stem text : List Char}
    (hstem : '%' ∉ stem) :
    beginsLike stem text = true ↔ Like (stem ++ ['%']) text := by
  induction stem generalizing text with
  | nil => exact ⟨fun _ => like_percent text, fun _ => rfl⟩
  | cons p stem ih =>
      have hp : '%' ≠ p := fun h => hstem (List.mem_cons.2 (.inl h))
      have hrest : '%' ∉ stem := fun h => hstem (List.mem_cons_of_mem p h)
      cases text with
      | nil =>
          refine ⟨fun hbegins => absurd hbegins Bool.false_ne_true, fun hlike => ?_⟩
          cases hlike with
          | skip _ => exact absurd rfl hp
      | cons c text =>
          simp only [beginsLike, Bool.and_eq_true, Bool.or_eq_true, decide_eq_true_eq, ih hrest]
          constructor
          · rintro ⟨rfl | hsame, hlike⟩
            · exact .one c hlike
            · exact .same hsame hlike
          · intro hlike
            cases hlike with
            | skip _ => exact absurd rfl hp
            | take _ _ => exact absurd rfl hp
            | one _ hlike => exact ⟨.inl rfl, hlike⟩
            | same hsame hlike => exact ⟨.inr hsame, hlike⟩

/-- A text that begins with a stem begins as the stem says. -/
theorem beginsLike_of_begins
    {stem text : List Char}
    (hletters : stem <+: text) :
    beginsLike stem text = true := by
  induction stem generalizing text with
  | nil => rfl
  | cons p stem ih =>
      obtain ⟨rest, rfl⟩ := hletters
      simp [beginsLike, ih (List.prefix_append stem rest)]

end Patterns

section Names

/-- The name begins with the letters that names of the other known format begin with. -/
def IsRocprofName (name : String) : Prop :=
  "rocpd_info_node_".toList <+: name.toList

/-- The name is like the pattern by which tables of the other known format are looked for. -/
def LooksRocprof (name : String) : Prop :=
  Like "rocpd_info_node_%".toList name.toList

theorem beginsLike_rocprofPattern_iff
    {name : String} :
    beginsLike rocprofPattern.toList name.toList = true ↔ LooksRocprof name := by
  have hstem : '%' ∉ rocprofPattern.toList := by decide
  have hwhole : "rocpd_info_node_%".toList = rocprofPattern.toList ++ ['%'] := by decide
  rw [beginsLike_iff hstem, LooksRocprof, hwhole]

theorem IsRocprofName.looks
    {name : String}
    (hname : IsRocprofName name) :
    LooksRocprof name :=
  beginsLike_rocprofPattern_iff.1 (beginsLike_of_begins hname)

end Names

section Formats

variable {schema : Schema}

theorem Schema.hasTable_iff
    {name : String} :
    schema.hasTable name = true ↔ name ∈ schema.tableNames :=
  List.contains_iff_mem

theorem Schema.any_looks_iff :
    (schema.tableNames.any fun name => beginsLike rocprofPattern.toList name.toList) = true ↔
      ∃ name ∈ schema.tableNames, LooksRocprof name := by
  simp only [List.any_eq_true, beginsLike_rocprofPattern_iff]

theorem Schema.format_eq_rocpd_iff :
    schema.format = .rocpd ↔ "rocpd_api" ∈ schema.tableNames := by
  rw [← hasTable_iff, format]
  split
  · simp [*]
  · split <;> simp [*]

theorem Schema.format_eq_rocprof_iff :
    schema.format = .rocprof ↔
      "rocpd_api" ∉ schema.tableNames ∧ ∃ name ∈ schema.tableNames, LooksRocprof name := by
  rw [← hasTable_iff, ← any_looks_iff, format]
  split
  · simp [*]
  · split <;> simp [*]

theorem Schema.format_eq_unknown_iff :
    schema.format = .unknown ↔
      "rocpd_api" ∉ schema.tableNames ∧ ∀ name ∈ schema.tableNames, ¬LooksRocprof name := by
  have hunlike : (∀ name ∈ schema.tableNames, ¬LooksRocprof name) ↔
      ¬∃ name ∈ schema.tableNames, LooksRocprof name := by
    simp only [not_exists, not_and]
  rw [hunlike, ← hasTable_iff, ← any_looks_iff, format]
  split
  · simp [*]
  · split <;> simp [*]

/-- When names that begin with the letters of the pattern decide as the names like it do. -/
theorem Schema.letters_decide_iff :
    (schema.format = .rocprof ↔
        "rocpd_api" ∉ schema.tableNames ∧ ∃ name ∈ schema.tableNames, IsRocprofName name) ↔
      "rocpd_api" ∈ schema.tableNames ∨ (∃ name ∈ schema.tableNames, IsRocprofName name) ∨
        ∀ name ∈ schema.tableNames, ¬LooksRocprof name := by
  have hlooks : (∃ name ∈ schema.tableNames, IsRocprofName name) →
      ∃ name ∈ schema.tableNames, LooksRocprof name :=
    fun ⟨name, hname, hletters⟩ => ⟨name, hname, hletters.looks⟩
  have hunlike : (∀ name ∈ schema.tableNames, ¬LooksRocprof name) ↔
      ¬∃ name ∈ schema.tableNames, LooksRocprof name := by
    simp only [not_exists, not_and]
  rw [format_eq_rocprof_iff, hunlike]
  by_cases hcalls : "rocpd_api" ∈ schema.tableNames
  · simp only [hcalls, not_true_eq_false, false_and, true_or]
  by_cases hletters : ∃ name ∈ schema.tableNames, IsRocprofName name
  · simp only [hlooks hletters, hletters, and_true, true_or, or_true]
  · simp only [hcalls, hletters, not_false_eq_true, true_and, and_false, iff_false, false_or]

end Formats

namespace File

variable {file : File} {schema : Schema}

theorem detect_of_schema
    (hschema : file.schema = .ok schema) :
    file.detect = .ok schema.format := by
  rw [detect, hschema]
  rfl

/-- A necessary table is not there. -/
def lacks (file : File) (name : String) : DatabaseFailure :=
  .schema s!"{file.path} has no {name} table"

/-- The first necessary table that is not there is named. -/
theorem openRocpd_of_schema
    (hschema : file.schema = .ok schema) :
    file.openRocpd =
      if "rocpd_api" ∉ schema.tableNames then
        .error (file.lacks "rocpd_api")
      else if "rocpd_op" ∉ schema.tableNames then
        .error (file.lacks "rocpd_op")
      else if "rocpd_string" ∉ schema.tableNames then
        .error (file.lacks "rocpd_string")
      else
        .ok (schema.tables.toSource file.path) := by
  simp only [← Schema.hasTable_iff, openRocpd, hschema, necessary]
  cases hcalls : schema.hasTable "rocpd_api" <;> cases hdispatches : schema.hasTable "rocpd_op" <;>
    cases hstrings : schema.hasTable "rocpd_string" <;>
      simp [hcalls, hdispatches, hstrings, List.find?, lacks, Bind.bind, Except.bind]

theorem exists_openRocpd_iff
    (hschema : file.schema = .ok schema) :
    (∃ source, file.openRocpd = .ok source) ↔
      "rocpd_api" ∈ schema.tableNames ∧ "rocpd_op" ∈ schema.tableNames ∧
        "rocpd_string" ∈ schema.tableNames := by
  rw [openRocpd_of_schema hschema]
  by_cases hcalls : "rocpd_api" ∈ schema.tableNames <;>
    by_cases hdispatches : "rocpd_op" ∈ schema.tableNames <;>
      by_cases hstrings : "rocpd_string" ∈ schema.tableNames <;>
        simp [hcalls, hdispatches, hstrings]

theorem openAs_autodetect_of_schema
    (hschema : file.schema = .ok schema) :
    file.openAs .autodetect =
      match schema.format with
      | .rocpd => file.openRocpd
      | .rocprof => .error rocprofUnsupported
      | .unknown => .error (.unknownFormat file.path) := by
  rw [openAs, detect_of_schema hschema]
  rfl

end File

/-- The exact name of its table of calls makes a database a rocpd file.  Without that table a name
that is like the pattern makes it one of the other known format, and without either it is unknown.
That names which begin with the letters of the pattern decide instead is right just if the table
of calls is there, some name begins so, or none is like the pattern.  Opened by what is found, the
file is a source just if the three necessary tables are there, and otherwise each format fails in
its own way. -/
theorem detection_follows_names
    {file : File} {schema : Schema}
    (hschema : file.schema = .ok schema) :
    (file.detect = .ok .rocpd ↔ "rocpd_api" ∈ schema.tableNames) ∧
    (file.detect = .ok .rocprof ↔
      "rocpd_api" ∉ schema.tableNames ∧ ∃ name ∈ schema.tableNames, LooksRocprof name) ∧
    (file.detect = .ok .unknown ↔
      "rocpd_api" ∉ schema.tableNames ∧ ∀ name ∈ schema.tableNames, ¬LooksRocprof name) ∧
    ((file.detect = .ok .rocprof ↔
        "rocpd_api" ∉ schema.tableNames ∧ ∃ name ∈ schema.tableNames, IsRocprofName name) ↔
      "rocpd_api" ∈ schema.tableNames ∨ (∃ name ∈ schema.tableNames, IsRocprofName name) ∨
        ∀ name ∈ schema.tableNames, ¬LooksRocprof name) ∧
    ((∃ source, file.openAs .autodetect = .ok source) ↔
      "rocpd_api" ∈ schema.tableNames ∧ "rocpd_op" ∈ schema.tableNames ∧
        "rocpd_string" ∈ schema.tableNames) ∧
    ("rocpd_api" ∈ schema.tableNames → "rocpd_op" ∉ schema.tableNames →
      file.openAs .autodetect = .error (file.lacks "rocpd_op")) ∧
    ("rocpd_api" ∈ schema.tableNames → "rocpd_op" ∈ schema.tableNames →
      "rocpd_string" ∉ schema.tableNames →
        file.openAs .autodetect = .error (file.lacks "rocpd_string")) ∧
    (file.detect = .ok .rocprof → file.openAs .autodetect = .error File.rocprofUnsupported) ∧
    (file.detect = .ok .unknown →
      file.openAs .autodetect = .error (.unknownFormat file.path)) := by
  have hdetect (format : Format) : file.detect = .ok format ↔ schema.format = format := by
    rw [File.detect_of_schema hschema, Except.ok.injEq]
  have hopen := File.openAs_autodetect_of_schema hschema
  have hrocpd := File.openRocpd_of_schema hschema
  simp only [hdetect]
  refine ⟨Schema.format_eq_rocpd_iff, Schema.format_eq_rocprof_iff, Schema.format_eq_unknown_iff,
    Schema.letters_decide_iff, ?source, ?dispatches, ?strings, ?other, ?unknown⟩
  case source =>
    rw [hopen]
    cases hformat : schema.format with
    | rocpd => exact File.exists_openRocpd_iff hschema
    | rocprof => simp [(Schema.format_eq_rocprof_iff.1 hformat).1]
    | unknown => simp [(Schema.format_eq_unknown_iff.1 hformat).1]
  case dispatches =>
    intro hcalls hdispatches
    rw [hopen, Schema.format_eq_rocpd_iff.2 hcalls]
    simp only [hrocpd, hcalls, hdispatches, not_true_eq_false, not_false_eq_true, if_true, if_false]
  case strings =>
    intro hcalls hdispatches hstrings
    rw [hopen, Schema.format_eq_rocpd_iff.2 hcalls]
    simp only [hrocpd, hcalls, hdispatches, hstrings, not_true_eq_false, not_false_eq_true, if_true,
      if_false]
  case other =>
    intro hformat
    rw [hopen, hformat]
  case unknown =>
    intro hformat
    rw [hopen, hformat]

/-- A file whose only table is called as the other format calls its tables, with other characters
for the underscores. -/
def misnamed : File :=
  ⟨"capture.rpd", .database { Schema.empty with others := ["rocpdXinfoXnodeX1"] }⟩

/-- The file has no table of calls, its table is like the pattern, and it cannot be opened. -/
theorem detection_follows_names_misnamed :
    ∃ schema, misnamed.schema = .ok schema ∧ "rocpd_api" ∉ schema.tableNames ∧
      misnamed.detect = .ok .rocprof ∧
      misnamed.openAs .autodetect = .error File.rocprofUnsupported := by
  have hschema : misnamed.schema = .ok _ := rfl
  have hfacts := detection_follows_names hschema
  have habsent : "rocpd_api" ∉ ["rocpdXinfoXnodeX1"] := by decide
  have hlooks : LooksRocprof "rocpdXinfoXnodeX1" := by
    rw [← beginsLike_rocprofPattern_iff]
    decide
  have hdetect := hfacts.2.1.2 ⟨habsent, _, List.mem_singleton.2 rfl, hlooks⟩
  exact ⟨_, rfl, habsent, hdetect, hfacts.2.2.2.2.2.2.2.1 hdetect⟩

/-- A file is taken for one of the other known format without a table whose name begins with the
letters that the names of that format begin with. -/
theorem exists_found_misnamed :
    ∃ (file : File) (schema : Schema),
      file.schema = .ok schema ∧ file.detect = .ok .rocprof ∧
        "rocpd_api" ∉ schema.tableNames ∧ ∀ name ∈ schema.tableNames, ¬IsRocprofName name := by
  have hformat :
      Schema.format { Schema.empty with others := ["rocpdXinfoXnodeX1"] } = .rocprof := by decide
  refine ⟨misnamed, _, rfl, ?_, by decide, ?_⟩
  · rw [File.detect_of_schema rfl, hformat]
  · intro name hname
    obtain rfl : name = "rocpdXinfoXnodeX1" := List.mem_singleton.1 hname
    unfold IsRocprofName
    decide

end TimelineStore.Rocpd
