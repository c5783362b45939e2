import Mathlib.Data.List.Nodup
import TimelineStore.Proofs.Rocpd.Events

/-!
# Events and their attributes

Of the row of an event a track has what a scan reads from typed columns: a start and an
end that are clamped, the difference of the two, and strings that are empty where there are
none.  Its attributes are the columns of the same row as plain texts, found by another
query.  Here both are shown to tell the same of an event.

**Results.**
* `tell_renderColumns`: a column has its text among the attributes, under its name only.
* `joins_iff`: the text that a reference is joined with.
* `Tables.attributes_agree`: what a track says of an event and what its attributes say.
-/

namespace TimelineStore

open Sql

namespace Rocpd

section Columns

/-- Under the name the attributes have this value and no other, or nothing at all. -/
def Tell (attributes : List Attribute) (name : String) (value? : Option String) : Prop :=
  attributes.filter (·.name = name) = (value?.map (Attribute.mk "Properties" name)).toList

/-- Columns as attributes: those that have a text. -/
def renderColumns (columns : List (String × Sql.Cell)) : List Attribute :=
  columns.filterMap fun (name, cell) =>
    cell.plainText?.map fun value => ⟨"Properties", name, value⟩

variable {name : String} {cell : Sql.Cell} {columns : List (String × Sql.Cell)}

theorem name_of_mem_renderColumns
    {record : Attribute}
    (hmem : record ∈ renderColumns columns) :
    record.name ∈ columns.map Prod.fst := by
  obtain ⟨⟨name, cell⟩, hpair, hrender⟩ := List.mem_filterMap.1 hmem
  obtain ⟨value, -, rfl⟩ := Option.map_eq_some_iff.1 hrender
  exact List.mem_map_of_mem hpair

/-- **A column has its text among the attributes, under its name only.** -/
theorem tell_renderColumns
    (hnodup : (columns.map Prod.fst).Nodup)
    (hmem : (name, cell) ∈ columns) :
    Tell (renderColumns columns) name cell.plainText? := by
  induction columns with
  | nil => cases hmem
  | cons first rest ih =>
      rw [List.map_cons, List.nodup_cons] at hnodup
      have hsplit : renderColumns (first :: rest) =
          (first.2.plainText?.map (Attribute.mk "Properties" first.1)).toList ++
            renderColumns rest := by
        cases htext : first.2.plainText? <;> simp [renderColumns, htext]
      rw [Tell, hsplit, List.filter_append]
      rcases List.mem_cons.1 hmem with rfl | hrest
      · -- the name stands here, so no later column has it
        have hnone : (renderColumns rest).filter (·.name = name) = [] := by
          refine List.filter_eq_nil_iff.2 fun record hrecord hsame => ?_
          have hin := name_of_mem_renderColumns hrecord
          rw [of_decide_eq_true hsame] at hin
          exact hnodup.1 hin
        rw [hnone, List.append_nil]
        cases cell.plainText? <;> simp
      · have hin : name ∈ rest.map Prod.fst := List.mem_map_of_mem (f := Prod.fst) hrest
        have hother : first.1 ≠ name := fun hsame => hnodup.1 (hsame ▸ hin)
        have hskip : (first.2.plainText?.map (Attribute.mk "Properties" first.1)).toList.filter
            (·.name = name) = [] := by
          cases first.2.plainText? <;> simp [hother]
        rw [hskip, List.nil_append]
        exact ih hnodup.2 hrest

end Columns

section Strings

/-- A string of the tables that the reference is joined with is this text. -/
def Tables.Joins (tables : Tables) (reference : Sql.Cell) (text : String) : Prop :=
  ∃ row ∈ tables.strings, .integer row.id = reference ∧ row.string = .text text

variable {tables : Tables}

/-- **A reference is joined with the text in its string, if that has one.** -/
theorem joins_iff
    {reference : Sql.Cell} {text : String}
    (hdistinct : (tables.strings.map StringRow.id).Nodup) :
    tables.Joins reference text ↔ tables.stringAt reference = .text text := by
  unfold Tables.stringAt Tables.stringAt?
  constructor
  · rintro ⟨row, hrow, rfl, hstring⟩
    rw [find?_id_eq hdistinct hrow]
    exact hstring
  · intro hstring
    cases hfind : tables.strings.find? fun row => .integer row.id = reference with
    | none =>
        rw [hfind] at hstring
        cases hstring
    | some row =>
        rw [hfind] at hstring
        have hid := List.find?_some hfind
        exact ⟨row, List.mem_of_find?_eq_some hfind, of_decide_eq_true hid, hstring⟩

theorem plainText?_eq_some_iff
    {cell : Sql.Cell} {text : String}
    (hcell : cell = .null ∨ cell.IsText) :
    cell.plainText? = some text ↔ cell = .text text := by
  rcases hcell with rfl | htext
  · simp [Sql.Cell.plainText?]
  · cases htext
    simp [Sql.Cell.plainText?]

/-- A string is empty where there is none. -/
theorem words_eq
    {cell : Sql.Cell}
    (hcell : cell = .null ∨ cell.IsText) :
    cell.words = cell.plainText?.getD "" := by
  rcases hcell with rfl | htext
  · rfl
  · cases htext
    rfl

end Strings

section Agreement

/-- The names of the columns that an event's row does not share with those of other tables. -/
structure ColumnNames where
  process : String
  subprocess : String
  typeName : String
  symbol : String

def callNames : ColumnNames :=
  ⟨"pid", "tid", "apiName", "args"⟩

def dispatchNames : ColumnNames :=
  ⟨"gpuId", "queueId", "opType", "description"⟩

/-- Attributes that tell of an event what its track says, where the row refers to two strings
or to none. -/
structure Agree (names : ColumnNames) (track : Descriptor) (event : EventRow)
    (typeName? symbol? : Option String) (attributes : List Attribute) : Prop where
  id : Tell attributes "id" (some (toString event.id.toNat))
  start : Tell attributes "start" (some (toString event.time.toNat))
  stop : Tell attributes "end" (some (toString (event.time.toNat + event.duration.toInt)))
  process : Tell attributes names.process (some track.process)
  subprocess : Tell attributes names.subprocess (some track.subprocess)
  typeName : Tell attributes names.typeName typeName?
  symbol : Tell attributes names.symbol symbol?
  typeName_eq : event.typeName = typeName?.getD ""
  symbol_eq : event.symbol = symbol?.getD ""

/-- The attributes of an event agree with it and with the strings that its row is joined with:
that of a call on a thread, or that of a dispatch on a queue. -/
inductive Tables.Tells (tables : Tables) (track : Descriptor) (event : EventRow)
    (attributes : List Attribute) : Prop
  | call (row : CallRow) (typeName? symbol? : Option String)
      (hrow : row ∈ tables.calls)
      (hid : row.id = event.id.toNat)
      (hcategory : track.category = .region)
      (hoperation : event.operation = .launch)
      (htypeName : ∀ text, tables.Joins row.name text ↔ typeName? = some text)
      (hsymbol : ∀ text, tables.Joins row.arguments text ↔ symbol? = some text)
      (hagree : Agree callNames track event typeName? symbol? attributes) :
      Tells tables track event attributes
  | dispatch (row : DispatchRow) (typeName? symbol? : Option String)
      (hrow : row ∈ tables.dispatches)
      (hid : row.id = event.id.toNat)
      (hcategory : track.category = .kernel)
      (hoperation : event.operation = .dispatch)
      (htypeName : ∀ text, tables.Joins row.operation text ↔ typeName? = some text)
      (hsymbol : ∀ text, tables.Joins row.description text ↔ symbol? = some text)
      (hagree : Agree dispatchNames track event typeName? symbol? attributes) :
      Tells tables track event attributes

/-- The columns that calls and dispatches have in common, each under its name. -/
def ColumnNames.columns (names : ColumnNames) (row : EventSelection) : List (String × Sql.Cell) :=
  [("id", .integer row.id), (names.process, row.process), (names.subprocess, row.subprocess),
    ("start", row.start), ("end", row.stop), (names.typeName, row.typeName),
    (names.symbol, row.symbol)]

variable {tables : Tables}

theorem plainText?_of_isTime
    {cell : Sql.Cell}
    (htime : cell.IsTime) :
    cell.plainText? = some (toString cell.time.toNat) := by
  rw [toNat_time (Or.inr htime.isWord)]
  obtain ⟨value, rfl, hlow, -⟩ := htime.exists_eq
  obtain ⟨number, rfl⟩ := Int.eq_ofNat_of_zero_le hlow
  rfl

/-- The end of an event is its start and its duration. -/
theorem time_add_duration
    {start stop : Sql.Cell}
    (hstart : start.IsTime)
    (hstop : stop.IsTime) :
    (start.time.toNat + (Int64.ofInt (stop.time.toNat - start.time.toNat : Int)).toInt : Int) =
      stop.time.toNat := by
  have hfirst := Sql.Cell.whole_lt (Or.inr hstart.isWord)
  have hlast := Sql.Cell.whole_lt (Or.inr hstop.isWord)
  rw [toNat_time (Or.inr hstart.isWord), toNat_time (Or.inr hstop.isWord)]
  rw [Int64.toInt_ofInt_of_le (by omega) (by omega)]
  omega

/-- The event of a selected row has its identifier. -/
theorem id_of_entry
    {table : EventTable} {row : EventSelection} {event : EventRow}
    (hlow : 0 ≤ row.id)
    (hhigh : row.id < rowLimit)
    (hevent : (table.entry row).row = .event event) :
    row.id = event.id.toNat ∧ event.operation = table.operation := by
  obtain rfl := Row.event.inj hevent
  exact ⟨by rw [toNat_wordOf hlow hhigh, Int.toNat_of_nonneg hlow], rfl⟩

/-- Columns that hold those of a selected row tell of the event what the row does. -/
theorem agree_renderColumns
    {names : ColumnNames} {table : EventTable} {row : EventSelection}
    {columns : List (String × Sql.Cell)} {track : Descriptor} {event : EventRow}
    (hsound : row.Sound)
    (hstop : row.stop.IsTime)
    (hlow : 0 ≤ row.id)
    (hhigh : row.id < rowLimit)
    (hnodup : (columns.map Prod.fst).Nodup)
    (hcolumns : names.columns row ⊆ columns)
    (hevent : (table.entry row).row = .event event)
    (hprocess : track.process = toString row.process.whole)
    (hsubprocess : track.subprocess = toString row.subprocess.whole) :
    Agree names track event row.typeName.plainText? row.symbol.plainText?
      (renderColumns columns) := by
  obtain rfl := Row.event.inj hevent
  have htell : ∀ name cell value?, (name, cell) ∈ names.columns row →
      cell.plainText? = value? → Tell (renderColumns columns) name value? := by
    rintro name cell _ hmem rfl
    exact tell_renderColumns hnodup (hcolumns hmem)
  have hstart := hsound.columns.start
  refine ⟨htell _ (.integer row.id) _ (by simp [ColumnNames.columns]) ?_,
    htell _ row.start _ (by simp [ColumnNames.columns]) (plainText?_of_isTime hstart),
    htell _ row.stop _ (by simp [ColumnNames.columns]) ?_,
    htell _ row.process _ (by simp [ColumnNames.columns]) ?_,
    htell _ row.subprocess _ (by simp [ColumnNames.columns]) ?_,
    htell _ row.typeName _ (by simp [ColumnNames.columns]) rfl,
    htell _ row.symbol _ (by simp [ColumnNames.columns]) rfl,
    words_eq hsound.typeName, words_eq hsound.symbol⟩
  · rw [toNat_wordOf hlow hhigh, Sql.Cell.plainText?]
    obtain ⟨number, hnumber⟩ := Int.eq_ofNat_of_zero_le hlow
    rw [hnumber]
    rfl
  · rw [time_add_duration hstart hstop, plainText?_of_isTime hstop]
    rfl
  · rw [hprocess, ← hsound.columns.process.integer_whole]
    rfl
  · rw [hsubprocess, ← hsound.columns.subprocess.integer_whole]
    rfl

theorem Tables.SoundEvents.joins_iff
    {reference : Sql.Cell} {text : String}
    (hsound : tables.SoundEvents) :
    tables.Joins reference text ↔ (tables.stringAt reference).plainText? = some text := by
  have hstring : tables.stringAt reference = .null ∨ (tables.stringAt reference).IsText :=
    hsound.withoutSamples.stringAt reference
  rw [Rocpd.joins_iff hsound.distinct, plainText?_eq_some_iff hstring]

/-- The attributes of an event are the columns of its row. -/
theorem Tables.SoundEvents.attributes_eq
    (hsound : tables.SoundEvents)
    (name : String)
    {operation : Operation}
    (hoperation : operation = .launch ∨ operation = .dispatch)
    (id : Int) :
    (tables.toSource name).readDetail .attributes (eventIn operation id) =
      .ok (.attributes (renderColumns (tables.columnsOf (eventIn operation id)))) := by
  have hcall : tables.prepare callRowStatement = .ok () :=
    hsound.withoutSamples.prepare_eq (by decide)
  have hdispatch : tables.prepare dispatchRowStatement = .ok () :=
    hsound.withoutSamples.prepare_eq (by decide)
  have hattributes : tables.attributes (eventIn operation id) =
      .ok (renderColumns (tables.columnsOf (eventIn operation id))) := by
    rcases hoperation with rfl | rfl
    · simp only [Tables.attributes, eventIn, EventId.ofRow, if_true, hcall]
      rfl
    · simp only [Tables.attributes, eventIn, EventId.ofRow, reduceCtorEq, if_false, hdispatch]
      rfl
  have happlies : DetailKind.attributes.appliesTo (eventIn operation id).operation = true := by
    rcases hoperation with rfl | rfl <;> rfl
  simp only [Tables.toSource, Tables.detail, happlies, if_true, hattributes]
  rfl

theorem Tables.SoundEvents.tells_call
    {row : CallRow} {event : EventRow}
    (hsound : tables.SoundEvents)
    (hrow : row ∈ tables.calls)
    (hevent : (tables.callEntry row).row = .event event) :
    tables.Tells (tables.callEntry row).key.descriptor event
      (renderColumns (tables.columnsOf (eventIn .launch row.id))) := by
  have hid := List.mem_map_of_mem (f := CallRow.id) hrow
  have hlow := hsound.callIds.low _ hid
  have hhigh := hsound.callIds.high _ hid
  have hcolumns : tables.columnsOf (eventIn .launch row.id) = [
      ("id", .integer row.id), ("pid", row.process), ("tid", row.thread), ("start", row.start),
      ("end", row.stop), ("apiName", tables.stringAt row.name),
      ("args", tables.stringAt row.arguments)] := by
    simp only [Tables.columnsOf, hsound.callAt?_eq hrow]
    rfl
  have hselected : EventSelection.Sound ⟨row.process, row.thread, row.id, row.start, row.stop,
      tables.stringAt row.name, tables.stringAt row.arguments⟩ :=
    hsound.withoutSamples.callSelections _ (List.mem_map_of_mem hrow)
  obtain ⟨hsame, hoperation⟩ := id_of_entry hlow hhigh hevent
  refine .call row _ _ hrow hsame rfl hoperation (fun _ => hsound.joins_iff)
    (fun _ => hsound.joins_iff)
    (agree_renderColumns hselected (hsound.callStops row hrow) hlow hhigh ?_ ?_ hevent rfl rfl)
  · simp only [hcolumns, List.map_cons, List.map_nil]
    decide
  · rw [hcolumns]
    exact List.Subset.refl _

theorem Tables.SoundEvents.tells_dispatch
    {row : DispatchRow} {event : EventRow}
    (hsound : tables.SoundEvents)
    (hrow : row ∈ tables.dispatches)
    (hevent : (tables.dispatchEntry row).row = .event event) :
    tables.Tells (tables.dispatchEntry row).key.descriptor event
      (renderColumns (tables.columnsOf (eventIn .dispatch row.id))) := by
  have hid := List.mem_map_of_mem (f := DispatchRow.id) hrow
  have hlow := hsound.dispatchIds.low _ hid
  have hhigh := hsound.dispatchIds.high _ hid
  have hcolumns : tables.columnsOf (eventIn .dispatch row.id) = [
      ("id", .integer row.id), ("gpuId", row.device), ("queueId", row.queue),
      ("sequenceId", row.sequence), ("start", row.start), ("end", row.stop),
      ("opType", tables.stringAt row.operation),
      ("description", tables.stringAt row.description)] := by
    simp only [Tables.columnsOf, hsound.dispatchAt?_eq hrow]
    rfl
  have hselected : EventSelection.Sound ⟨row.device, row.queue, row.id, row.start, row.stop,
      tables.stringAt row.operation, tables.stringAt row.description⟩ :=
    hsound.withoutSamples.dispatchSelections _ (List.mem_map_of_mem hrow)
  obtain ⟨hsame, hoperation⟩ := id_of_entry hlow hhigh hevent
  refine .dispatch row _ _ hrow hsame rfl hoperation (fun _ => hsound.joins_iff)
    (fun _ => hsound.joins_iff)
    (agree_renderColumns hselected (hsound.dispatchStops row hrow) hlow hhigh ?_ ?_ hevent rfl
      rfl)
  · simp only [hcolumns, List.map_cons, List.map_nil]
    decide
  · -- the sequence number is a column of dispatches alone
    rw [hcolumns]
    intro column hcolumn
    simp only [ColumnNames.columns, dispatchNames, List.mem_cons, List.not_mem_nil,
      or_false] at hcolumn ⊢
    tauto

end Agreement

section Reads

variable {tables : Tables}

/-- **What a track says of an event and what its attributes say agree**, on every thread and
queue of the metadata and in every window. -/
theorem Tables.attributes_agree
    {name : String} {metadata : Metadata}
    (hsound : tables.SoundEvents)
    (hmetadata : (tables.toSource name).metadata.answer = .ok metadata) :
    ∀ track ∈ metadata.tracks, track.category ≠ .counter → ∀ window,
      ∃ rows, (tables.toSource name).readTrack track window = .ok rows ∧
        ∀ event, .event event ∈ rows →
          ∃ attributes,
            (tables.toSource name).readDetail .attributes (.ofRow event.id event.operation) =
                .ok (.attributes attributes) ∧
              tables.Tells track event attributes := by
  intro track htrack hcategory window
  obtain ⟨keys, monitors, htracks, hmonitors, -, -, hkeys⟩ := hsound.exists_keys hmetadata
  rw [htracks] at htrack
  obtain ⟨key, hkey, rfl⟩ : ∃ key ∈ keys, key.descriptor = track := by
    rcases List.mem_append.1 htrack with hown | hmonitor
    · exact List.mem_map.1 hown
    · exact absurd (hmonitors track hmonitor) hcategory
  obtain ⟨hfits, hevents⟩ := hkeys key hkey
  refine ⟨_, hsound.readTrack_eq name hfits hevents window, fun event hevent => ?_⟩
  obtain ⟨entry, hentry, rfl, hrow⟩ := mem_rowsFor_iff.1 hevent
  rcases mem_entries_withoutSamples_iff.1 (mem_entries_of_mem_entriesIn hentry) with
    ⟨row, hmem, rfl⟩ | ⟨row, hmem, rfl⟩
  · obtain rfl := Row.event.inj hrow
    exact ⟨_, hsound.attributes_eq name (.inl rfl) row.id, hsound.tells_call hmem rfl⟩
  · obtain rfl := Row.event.inj hrow
    exact ⟨_, hsound.attributes_eq name (.inr rfl) row.id, hsound.tells_dispatch hmem rfl⟩

/-- A call that ends before it starts, with a name and without arguments. -/
def damagedCall : Tables where
  strings := [⟨1, .text "f"⟩, ⟨2, .null⟩]
  calls := [⟨3, .integer 100, .integer 101, .integer 35, .integer 5, .integer 1, .integer 2⟩]
  dispatches := []
  samples := none
  links := none
  frames := none
  bare := []

theorem sound_damagedCall : damagedCall.Sound ∧ damagedCall.SoundEvents := by
  have hstop : (Sql.Cell.integer 5).IsTime := .integer (by decide) (by decide)
  have hevent : SoundEvent (.integer 100) (.integer 101) (.integer 35) (.integer 5) :=
    ⟨.integer (by decide) (by decide), .integer (by decide) (by decide),
      .integer (by decide) (by decide), Or.inr hstop.isWord⟩
  have hcalls : ∀ row ∈ damagedCall.calls,
      SoundEvent row.process row.thread row.start row.stop := by
    intro row hrow
    rw [List.mem_singleton.1 hrow]
    exact hevent
  have hstrings : ∀ row ∈ damagedCall.strings, row.string = .null ∨ row.string.IsText := by
    intro row hrow
    simp only [damagedCall, List.mem_cons, List.not_mem_nil, or_false] at hrow
    rcases hrow with rfl | rfl
    · exact Or.inr (.text "f")
    · exact Or.inl rfl
  have hdistinct : (damagedCall.strings.map StringRow.id).Nodup := by decide
  refine ⟨⟨fun _ _ => List.not_mem_nil, hdistinct, hstrings, hcalls, List.forall_mem_nil _,
    List.forall_mem_nil _⟩, ⟨fun _ _ => List.not_mem_nil, hdistinct, hstrings, hcalls,
    List.forall_mem_nil _, ⟨by decide, by decide, by decide⟩, ⟨by decide, by decide, by decide⟩,
    fun row hrow => ?_, List.forall_mem_nil _⟩⟩
  rw [List.mem_singleton.1 hrow]
  exact hstop

/-- Its duration is negative, its attributes have its own end, and of its two strings they have
the one that is there. -/
theorem attributes_agree_damagedCall :
    damagedCall.SoundEvents ∧
      ∃ metadata, (damagedCall.toSource "capture.rpd").metadata.answer = .ok metadata ∧
        ∃ track ∈ metadata.tracks, track.category ≠ .counter ∧
          ∃ rows event attributes,
            (damagedCall.toSource "capture.rpd").readTrack track ⟨0, 100⟩ = .ok rows ∧
            .event event ∈ rows ∧ event.duration = -30 ∧ event.typeName = "f" ∧
            (damagedCall.toSource "capture.rpd").readDetail .attributes
                (.ofRow event.id event.operation) = .ok (.attributes attributes) ∧
              Tell attributes "end" (some "5") ∧ Tell attributes "apiName" (some "f") ∧
                Tell attributes "args" none := by
  obtain ⟨hsound, hevents⟩ := sound_damagedCall
  obtain ⟨window, keys, hmetadata, -, hmem, hfits⟩ := hsound.exists_tracks "capture.rpd"
  have hentry : damagedCall.callEntry ⟨3, .integer 100, .integer 101, .integer 35, .integer 5,
      .integer 1, .integer 2⟩ ∈ damagedCall.entries :=
    Tables.mem_entries_iff.2 (.inl ⟨_, List.mem_cons_self, rfl⟩)
  have hkey := (hmem (.thread 100 101)).2 ⟨_, hentry, rfl⟩
  obtain ⟨rows, hread, hrows⟩ := Tables.attributes_agree hevents hmetadata _
    (List.mem_map_of_mem hkey) nofun ⟨0, 100⟩
  obtain rfl := Except.ok.inj
    (hread.symm.trans (hsound.readTrack_eq "capture.rpd" (hfits _ hkey) ⟨0, 100⟩))
  have hin := (entriesIn_perm damagedCall ⟨0, 100⟩).mem_iff.2 (List.mem_filter.2 ⟨hentry, rfl⟩)
  have hrow := mem_rowsFor_iff.2 ⟨_, hin, rfl, rfl⟩
  obtain ⟨attributes, hdetail, htells⟩ := hrows _ hrow
  refine ⟨hevents, _, hmetadata, _, List.mem_map_of_mem hkey, nofun, _, _, attributes, hread, hrow,
    rfl, rfl, hdetail, ?_⟩
  rcases htells with ⟨row, typeName?, symbol?, hcall, -, -, -, htypeName, hsymbol, hagree⟩ |
    ⟨row, -, -, hdispatch, -⟩
  · obtain rfl := List.mem_singleton.1 hcall
    have hname : typeName? = some "f" := (htypeName "f").1 ⟨_, List.mem_cons_self, rfl, rfl⟩
    have hnone : symbol? = none := by
      refine Option.eq_none_iff_forall_ne_some.2 fun text hsome => ?_
      obtain ⟨string, hstring, hid, htext⟩ := (hsymbol text).2 hsome
      simp only [damagedCall, List.mem_cons, List.not_mem_nil, or_false] at hstring
      rcases hstring with rfl | rfl
      · cases hid
      · cases htext
    exact ⟨hagree.stop, hname ▸ hagree.typeName, hnone ▸ hagree.symbol⟩
  · cases hdispatch

end Reads

end Rocpd

end TimelineStore
