import TimelineStore.Proofs.Rocpd.Attributes
import TimelineStore.Proofs.Rocpd.Landing

/-!
# Flow links

A link joins a call and a dispatch that it made.  The flow of the call has the dispatch at
its far end and the flow of the dispatch has the call, each as often as there are links
between the two; a link to a row that is not there has no far end.  In a trace with the
metadata of the tables every far end is on the track where its event stands.

**Results.**
* `exists_endpoints`: the far ends of links as endpoints.
* `countP_endpoints`: an endpoint is there once for each link to its row.
* `Tables.SoundEvents.resolves`: no endpoint is dropped, and each is where its event stands.
* `Tables.flows_symmetric`: the flows of a call and of a dispatch mirror each other.
-/

namespace TimelineStore

open Sql

namespace Rocpd

section Ends

variable {ρ : Type} {columns : LinkColumns}

/-- A far end whose columns have their types is read as an endpoint. -/
theorem LinkColumns.endpoint_eq
    {link : LinkSelection}
    (hrow : link.row.IsWord)
    (hprocess : link.process.IsWord)
    (hsubprocess : link.subprocess.IsWord)
    (htime : link.time.IsTime) :
    columns.endpoint link = .ok ⟨columns.category, toString link.process.whole,
      toString link.subprocess.whole, eventIn columns.operation link.row.whole,
      link.time.time⟩ := by
  obtain ⟨time, htimeRead, hvalue⟩ := Sql.Cell.exists_readOptionalInteger
    (Or.inr htime.isWord) 3 columns.time
  rw [LinkColumns.endpoint, hprocess.readInteger_eq, hsubprocess.readInteger_eq,
    hrow.readInteger_eq, htimeRead]
  simp only [bind, Except.bind, pure, Except.pure, hvalue]
  rfl

/-- **The far ends of links as endpoints**, in some order: one for each link whose far cell
finds a row. -/
theorem exists_endpoints
    {endpoint : ρ → RawEndpoint}
    (at? : Sql.Cell → Option ρ)
    (select : Sql.Cell → ρ → LinkSelection)
    (far : LinkRow → Sql.Cell)
    (links : List LinkRow)
    (hends : ∀ cell row, at? cell = some row →
      columns.endpoint (select cell row) = .ok (endpoint row)) :
    ∃ endpoints,
      ((links.filterMap fun link => (at? (far link)).map (select (far link))).mergeSort
          fun a b => a.time.precedes b.time).mapM columns.endpoint = .ok endpoints ∧
        endpoints.Perm (links.filterMap fun link => (at? (far link)).map endpoint) := by
  let found := links.filterMap fun link => (at? (far link)).map fun row => (far link, row)
  have hselected : (links.filterMap fun link => (at? (far link)).map (select (far link))) =
      found.map fun pair => select pair.1 pair.2 := by
    rw [List.map_filterMap]
    simp only [Option.map_map]
    rfl
  have hendpoints : (links.filterMap fun link => (at? (far link)).map endpoint) =
      found.map fun pair => endpoint pair.2 := by
    rw [List.map_filterMap]
    simp only [Option.map_map]
    rfl
  have hfound : ∀ pair ∈ found, at? pair.1 = some pair.2 := by
    intro pair hpair
    obtain ⟨link, -, hlink⟩ := List.mem_filterMap.1 hpair
    obtain ⟨row, hrow, rfl⟩ := Option.map_eq_some_iff.1 hlink
    exact hrow
  have hsort : (found.map fun pair => select pair.1 pair.2).mergeSort
        (fun a b => a.time.precedes b.time) =
      (found.mergeSort fun a b => (select a.1 a.2).time.precedes (select b.1 b.2).time).map
        fun pair => select pair.1 pair.2 := by
    refine (List.map_mergeSort ?_).symm
    intros
    rfl
  rw [hselected, hendpoints, hsort]
  refine ⟨_, Outcome.mapM_map_eq_ok fun pair hpair => ?_, (List.mergeSort_perm _ _).map _⟩
  exact hends pair.1 pair.2 (hfound pair (List.mem_mergeSort.1 hpair))

/-- **An endpoint is there once for each link to its row.** -/
theorem countP_endpoints
    {rows : List ρ} {id : ρ → Int} {operation : Operation} {row : ρ}
    (endpoint : ρ → RawEndpoint)
    (far : LinkRow → Sql.Cell)
    (links : List LinkRow)
    (hids : Identified (rows.map id))
    (hevent : ∀ other, (endpoint other).event = eventIn operation (id other))
    (hrow : row ∈ rows) :
    (links.filterMap fun link =>
        (rows.find? fun other => .integer (id other) = far link).map endpoint).countP
          (·.event = eventIn operation (id row)) =
      links.countP fun link => far link = .integer (id row) := by
  rw [List.countP_filterMap]
  refine List.countP_congr fun link _ => ?_
  cases hfind : rows.find? fun other => .integer (id other) = far link with
  | none =>
      have hmiss := List.find?_eq_none.1 hfind row hrow
      simpa [eq_comm] using hmiss
  | some found =>
      have hfar := List.find?_some hfind
      have hmem := List.mem_of_find?_eq_some hfind
      have hsame : eventIn operation (id found) = eventIn operation (id row) ↔
          id found = id row :=
        ⟨eventIn_inj hids (List.mem_map_of_mem hmem) (List.mem_map_of_mem hrow),
          congrArg (eventIn operation)⟩
      rw [decide_eq_true_eq] at hfar
      simp only [Option.map_some, Option.getD_some, hevent, hsame, decide_eq_true_eq, ← hfar,
        Sql.Cell.integer.injEq]

end Ends

section Calls

/-- A call as the far end of a link: at its end. -/
def CallRow.endpoint (row : CallRow) : RawEndpoint :=
  ⟨.region, toString row.process.whole, toString row.thread.whole, eventIn .launch row.id,
    row.stop.time⟩

/-- A dispatch as the far end of a link: at its start. -/
def DispatchRow.endpoint (row : DispatchRow) : RawEndpoint :=
  ⟨.kernel, toString row.device.whole, toString row.queue.whole, eventIn .dispatch row.id,
    row.start.time⟩

/-- The number of links between a call and a dispatch. -/
def Tables.linkCount (tables : Tables) (call : CallRow) (dispatch : DispatchRow) : Nat :=
  (tables.links.getD []).countP fun link =>
    link.call = .integer call.id && link.dispatch = .integer dispatch.id

variable {tables : Tables}

/-- The statements that select links mention these tables and no others. -/
theorem prepare_linked
    {statement : Statement}
    (hsound : tables.SoundEvents)
    (hlinked : "rocpd_api_ops" ∉ tables.bare)
    (hmentions : ∀ mention ∈ statement.mentions,
      mention.table = "rocpd_api_ops" ∨ mention.table ∈ rowTables) :
    tables.prepare statement = .ok () := by
  refine Tables.prepare_eq fun mention hmention => ?_
  rcases hmentions mention hmention with hlink | hrow
  · exact hlink ▸ hlinked
  · exact hsound.complete _ hrow

theorem callAt?_eq_some
    {cell : Sql.Cell} {row : CallRow}
    (hfind : tables.callAt? cell = some row) :
    row ∈ tables.calls ∧ cell = .integer row.id := by
  have hid := List.find?_some hfind
  exact ⟨List.mem_of_find?_eq_some hfind, (of_decide_eq_true hid).symm⟩

theorem dispatchAt?_eq_some
    {cell : Sql.Cell} {row : DispatchRow}
    (hfind : tables.dispatchAt? cell = some row) :
    row ∈ tables.dispatches ∧ cell = .integer row.id := by
  have hid := List.find?_some hfind
  exact ⟨List.mem_of_find?_eq_some hfind, (of_decide_eq_true hid).symm⟩

theorem Identified.isWord
    {ids : List Int} {id : Int}
    (hids : Identified ids)
    (hid : id ∈ ids) :
    (Sql.Cell.integer id).IsWord := by
  have hlow := hids.low id hid
  have hhigh : id < 0x1000000000000000 := hids.high id hid
  exact .integer (by omega) (by omega)

theorem flow_launch
    (hsound : tables.SoundEvents)
    (hlinked : "rocpd_api_ops" ∉ tables.bare)
    (id : Int) :
    tables.flow (eventIn .launch id) =
      (tables.linkedDispatches (eventIn .launch id)).mapM dispatchColumns.endpoint := by
  have hprepare : tables.prepare linkedDispatchStatement = .ok () :=
    prepare_linked hsound hlinked (by decide)
  cases hlinks : tables.links with
  | none => simp [Tables.flow, Tables.linkedDispatches, hlinks, pure, Except.pure]
  | some links => simp [Tables.flow, hlinks, eventIn, EventId.ofRow, hprepare, bind, Except.bind]

theorem flow_dispatch
    (hsound : tables.SoundEvents)
    (hlinked : "rocpd_api_ops" ∉ tables.bare)
    (id : Int) :
    tables.flow (eventIn .dispatch id) =
      (tables.linkedCalls (eventIn .dispatch id)).mapM callColumns.endpoint := by
  have hprepare : tables.prepare linkedCallStatement = .ok () :=
    prepare_linked hsound hlinked (by decide)
  cases hlinks : tables.links with
  | none => simp [Tables.flow, Tables.linkedCalls, hlinks, pure, Except.pure]
  | some links => simp [Tables.flow, hlinks, eventIn, EventId.ofRow, hprepare, bind, Except.bind]

/-- The flow of a call: the dispatches at the far ends of its links. -/
theorem Tables.SoundEvents.exists_flow_call
    {call : CallRow}
    (hsound : tables.SoundEvents)
    (hlinked : "rocpd_api_ops" ∉ tables.bare)
    (name : String)
    (hcall : call ∈ tables.calls) :
    ∃ launched,
      (tables.toSource name).readDetail .flow (eventIn .launch call.id) = .ok (.flow launched) ∧
        launched.Perm (((tables.links.getD []).filter (·.call = .integer call.id)).filterMap
          fun link => (tables.dispatchAt? link.dispatch).map DispatchRow.endpoint) := by
  have hid := List.mem_map_of_mem (f := CallRow.id) hcall
  have hcell := rowCell_eventIn .launch (hsound.callIds.low _ hid) (hsound.callIds.high _ hid)
  have hends : ∀ cell row, tables.dispatchAt? cell = some row →
      dispatchColumns.endpoint ⟨cell, row.device, row.queue, row.start⟩ = .ok row.endpoint := by
    intro cell row hfind
    obtain ⟨hrow, rfl⟩ := dispatchAt?_eq_some hfind
    have hcolumns := hsound.dispatches row hrow
    exact LinkColumns.endpoint_eq (hsound.dispatchIds.isWord (List.mem_map_of_mem hrow))
      hcolumns.process hcolumns.subprocess hcolumns.start
  obtain ⟨launched, hlaunched, hperm⟩ := exists_endpoints tables.dispatchAt? _ LinkRow.dispatch
    ((tables.links.getD []).filter (·.call = .integer call.id)) hends
  have hflow : tables.flow (eventIn .launch call.id) = .ok launched := by
    rw [flow_launch hsound hlinked, Tables.linkedDispatches, hcell]
    exact hlaunched
  refine ⟨launched, ?_, hperm⟩
  simp only [Tables.toSource, Tables.detail, hflow]
  rfl

/-- The flow of a dispatch: the calls at the far ends of its links. -/
theorem Tables.SoundEvents.exists_flow_dispatch
    {dispatch : DispatchRow}
    (hsound : tables.SoundEvents)
    (hlinked : "rocpd_api_ops" ∉ tables.bare)
    (name : String)
    (hdispatch : dispatch ∈ tables.dispatches) :
    ∃ launching,
      (tables.toSource name).readDetail .flow (eventIn .dispatch dispatch.id) =
          .ok (.flow launching) ∧
        launching.Perm
          (((tables.links.getD []).filter (·.dispatch = .integer dispatch.id)).filterMap
            fun link => (tables.callAt? link.call).map CallRow.endpoint) := by
  have hid := List.mem_map_of_mem (f := DispatchRow.id) hdispatch
  have hcell := rowCell_eventIn .dispatch (hsound.dispatchIds.low _ hid)
    (hsound.dispatchIds.high _ hid)
  have hends : ∀ cell row, tables.callAt? cell = some row →
      callColumns.endpoint ⟨cell, row.process, row.thread, row.stop⟩ = .ok row.endpoint := by
    intro cell row hfind
    obtain ⟨hrow, rfl⟩ := callAt?_eq_some hfind
    have hcolumns := hsound.calls row hrow
    exact LinkColumns.endpoint_eq (hsound.callIds.isWord (List.mem_map_of_mem hrow))
      hcolumns.process hcolumns.subprocess (hsound.callStops row hrow)
  obtain ⟨launching, hlaunching, hperm⟩ := exists_endpoints tables.callAt? _ LinkRow.call
    ((tables.links.getD []).filter (·.dispatch = .integer dispatch.id)) hends
  have hflow : tables.flow (eventIn .dispatch dispatch.id) = .ok launching := by
    rw [flow_dispatch hsound hlinked, Tables.linkedCalls, hcell]
    exact hlaunching
  refine ⟨launching, ?_, hperm⟩
  simp only [Tables.toSource, Tables.detail, hflow]
  rfl

end Calls

section Resolving

/-- In a trace with the metadata of the source no endpoint is dropped, and each is on the track
where its event stands, at a time of this event. -/
def Resolves (source : Source) (moment : EventRow → Int) (endpoints : List RawEndpoint) : Prop :=
  ∀ (metadata : Metadata) (trace : Trace),
    source.metadata.answer = .ok metadata → trace.LoadedWith metadata →
    ∃ resolved, Detail.resolve trace.trackOf? (.flow endpoints) = .flow resolved ∧
      List.Forall₂ (fun raw endpoint =>
        endpoint.event = raw.event ∧ endpoint.time = raw.time ∧
          ∃ event, StandsAt source metadata endpoint.track.index event ∧
            .ofRow event.id event.operation = endpoint.event ∧
              (endpoint.time.toNat : Int) = moment event) endpoints resolved

theorem forall₂_filterMap
    {α β : Type} {related : α → β → Prop} {select : α → Option β} {members : List α}
    (hselect : ∀ member ∈ members, ∃ value, select member = some value ∧ related member value) :
    List.Forall₂ related members (members.filterMap select) := by
  induction members with
  | nil => exact .nil
  | cons member members ih =>
      obtain ⟨value, hvalue, hrelated⟩ := hselect member List.mem_cons_self
      rw [List.filterMap_cons_some hvalue]
      exact .cons hrelated (ih fun other hother => hselect other (List.mem_cons_of_mem _ hother))

variable {tables : Tables}

/-- The endpoint names the event of an entry and the track of its key, at a time of the event. -/
structure NamesEntry (tables : Tables) (moment : EventRow → Int) (endpoint : RawEndpoint)
    (entry : Entry) (event : EventRow) : Prop where
  mem : entry ∈ tables.withoutSamples.entries
  row : entry.row = .event event
  bound : entry.start.whole < greatestTime
  named : ∀ descriptor : Descriptor,
    descriptor.names endpoint.category endpoint.process endpoint.subprocess = true ↔
      entry.key.IsNamedBy descriptor
  names : .ofRow event.id event.operation = endpoint.event
  time : (endpoint.time.toNat : Int) = moment event

/-- **Endpoints that name events of the tables are not dropped**, and each is where its event
stands. -/
theorem Tables.SoundEvents.resolves
    {moment : EventRow → Int} {endpoints : List RawEndpoint}
    (hsound : tables.SoundEvents)
    (name : String)
    (hnames : ∀ endpoint ∈ endpoints, ∃ entry event,
      NamesEntry tables moment endpoint entry event) :
    Resolves (tables.toSource name) moment endpoints := by
  intro metadata trace hmetadata hloaded
  refine ⟨_, rfl, forall₂_filterMap fun endpoint hendpoint => ?_⟩
  obtain ⟨entry, event, hentry⟩ := hnames endpoint hendpoint
  obtain ⟨index, hstands, hunique⟩ :=
    hsound.exists_standsAt hmetadata hentry.mem hentry.row hentry.bound
  have hfind : trace.trackOf? endpoint = some ⟨index⟩ :=
    Trace.find?_eq_of_unique hloaded hstands.inside fun other descriptor hother =>
      (hentry.named descriptor).trans (hunique other descriptor hother)
  refine ⟨⟨⟨index⟩, endpoint.event, endpoint.time⟩, ?_, rfl, rfl, event, hstands, hentry.names,
    hentry.time⟩
  rw [Detail.resolveEndpoint, hfind]
  rfl

/-- The start of an event. -/
def startOf (event : EventRow) : Int :=
  event.time.toNat

/-- The start of an event and its duration together. -/
def stopOf (event : EventRow) : Int :=
  event.time.toNat + event.duration.toInt

theorem namesEntry_call
    {row : CallRow}
    (hsound : tables.SoundEvents)
    (hrow : row ∈ tables.calls)
    (hbound : row.start.whole < greatestTime) :
    ∃ entry event, NamesEntry tables stopOf row.endpoint entry event := by
  refine ⟨tables.callEntry row, _, mem_entries_withoutSamples_iff.2 (.inl ⟨row, hrow, rfl⟩), rfl,
    hbound, fun _ => Iff.rfl, rfl, ?_⟩
  exact (time_add_duration (hsound.calls row hrow).start (hsound.callStops row hrow)).symm

theorem namesEntry_dispatch
    {row : DispatchRow}
    (hrow : row ∈ tables.dispatches)
    (hbound : row.start.whole < greatestTime) :
    ∃ entry event, NamesEntry tables startOf row.endpoint entry event :=
  ⟨tables.dispatchEntry row, _, mem_entries_withoutSamples_iff.2 (.inr ⟨row, hrow, rfl⟩), rfl,
    hbound, fun _ => Iff.rfl, rfl, rfl⟩

/-- **The flows of a call and of a dispatch mirror each other**: each has the other at a far end
as often as there are links between the two.  In a trace with the metadata of the tables no far
end is dropped, and each is on the track where its event stands: a dispatch at its start, and a
call at its end. -/
theorem Tables.flows_symmetric
    (hsound : tables.SoundEvents)
    (hlinked : "rocpd_api_ops" ∉ tables.bare)
    (hcalls : ∀ row ∈ tables.calls, row.start.whole < greatestTime)
    (hdispatches : ∀ row ∈ tables.dispatches, row.start.whole < greatestTime)
    (name : String) :
    (∀ call ∈ tables.calls, ∃ launched,
      (tables.toSource name).readDetail .flow (eventIn .launch call.id) = .ok (.flow launched) ∧
        (∀ dispatch ∈ tables.dispatches,
          launched.countP (·.event = eventIn .dispatch dispatch.id) =
            tables.linkCount call dispatch) ∧
          Resolves (tables.toSource name) startOf launched) ∧
    ∀ dispatch ∈ tables.dispatches, ∃ launching,
      (tables.toSource name).readDetail .flow (eventIn .dispatch dispatch.id) =
          .ok (.flow launching) ∧
        (∀ call ∈ tables.calls,
          launching.countP (·.event = eventIn .launch call.id) =
            tables.linkCount call dispatch) ∧
          Resolves (tables.toSource name) stopOf launching := by
  constructor
  · intro call hcall
    obtain ⟨launched, hflow, hperm⟩ := hsound.exists_flow_call hlinked name hcall
    refine ⟨launched, hflow, fun dispatch hdispatch => ?_, hsound.resolves name ?_⟩
    · refine (hperm.countP_eq _).trans ((countP_endpoints DispatchRow.endpoint LinkRow.dispatch _
        hsound.dispatchIds (fun _ => rfl) hdispatch).trans ?_)
      rw [List.countP_filter, Tables.linkCount]
      simp only [Bool.and_comm]
    · intro endpoint hendpoint
      obtain ⟨link, -, hlink⟩ := List.mem_filterMap.1 (hperm.mem_iff.1 hendpoint)
      obtain ⟨row, hrow, rfl⟩ := Option.map_eq_some_iff.1 hlink
      have hmem := (dispatchAt?_eq_some hrow).1
      exact namesEntry_dispatch hmem (hdispatches row hmem)
  · intro dispatch hdispatch
    obtain ⟨launching, hflow, hperm⟩ := hsound.exists_flow_dispatch hlinked name hdispatch
    refine ⟨launching, hflow, fun call hcall => ?_, hsound.resolves name ?_⟩
    · refine (hperm.countP_eq _).trans ((countP_endpoints CallRow.endpoint LinkRow.call _
        hsound.callIds (fun _ => rfl) hcall).trans ?_)
      rw [List.countP_filter, Tables.linkCount]
    · intro endpoint hendpoint
      obtain ⟨link, -, hlink⟩ := List.mem_filterMap.1 (hperm.mem_iff.1 hendpoint)
      obtain ⟨row, hrow, rfl⟩ := Option.map_eq_some_iff.1 hlink
      have hmem := (callAt?_eq_some hrow).1
      exact namesEntry_call hsound hmem (hcalls row hmem)

/-- A call and a dispatch with two links between them; a third link leads to no dispatch. -/
def linkedEvents : Tables where
  strings := [⟨1, .text "f"⟩]
  calls := [⟨1, .integer 100, .integer 100, .integer 10, .integer 30, .integer 1, .null⟩]
  dispatches := [⟨7, .integer 0, .integer 1, .null, .integer 40, .integer 50, .null, .integer 1⟩]
  samples := none
  links := some [⟨1, .integer 1, .integer 7⟩, ⟨2, .integer 1, .integer 9⟩,
    ⟨3, .integer 1, .integer 7⟩]
  frames := none
  bare := []

theorem sound_linkedEvents : linkedEvents.Sound ∧ linkedEvents.SoundEvents := by
  have hend : (Sql.Cell.integer 30).IsTime := .integer (by decide) (by decide)
  have hlast : (Sql.Cell.integer 50).IsTime := .integer (by decide) (by decide)
  have hcalls : ∀ row ∈ linkedEvents.calls,
      SoundEvent row.process row.thread row.start row.stop := by
    intro row hrow
    rw [List.mem_singleton.1 hrow]
    exact ⟨.integer (by decide) (by decide), .integer (by decide) (by decide),
      .integer (by decide) (by decide), Or.inr hend.isWord⟩
  have hdispatches : ∀ row ∈ linkedEvents.dispatches,
      SoundEvent row.device row.queue row.start row.stop := by
    intro row hrow
    rw [List.mem_singleton.1 hrow]
    exact ⟨.integer (by decide) (by decide), .integer (by decide) (by decide),
      .integer (by decide) (by decide), Or.inr hlast.isWord⟩
  have hstrings : ∀ row ∈ linkedEvents.strings, row.string = .null ∨ row.string.IsText := by
    intro row hrow
    rw [List.mem_singleton.1 hrow]
    exact Or.inr (.text "f")
  have hdistinct : (linkedEvents.strings.map StringRow.id).Nodup := by decide
  refine ⟨⟨fun _ _ => List.not_mem_nil, hdistinct, hstrings, hcalls, hdispatches,
    List.forall_mem_nil _⟩, ⟨fun _ _ => List.not_mem_nil, hdistinct, hstrings, hcalls,
    hdispatches, ⟨by decide, by decide, by decide⟩, ⟨by decide, by decide, by decide⟩,
    fun row hrow => ?_, fun row hrow => ?_⟩⟩
  · rw [List.mem_singleton.1 hrow]
    exact hend
  · rw [List.mem_singleton.1 hrow]
    exact hlast

/-- Each of the two is twice at the far end of the other, and a fresh trace that loads the
metadata keeps both endpoints of the call. -/
theorem flows_symmetric_linkedEvents :
    linkedEvents.SoundEvents ∧ "rocpd_api_ops" ∉ linkedEvents.bare ∧
      (∀ row ∈ linkedEvents.calls, row.start.whole < greatestTime) ∧
      (∀ row ∈ linkedEvents.dispatches, row.start.whole < greatestTime) ∧
        ∃ launched launching,
          (linkedEvents.toSource "capture.rpd").readDetail .flow (eventIn .launch 1) =
              .ok (.flow launched) ∧
          (linkedEvents.toSource "capture.rpd").readDetail .flow (eventIn .dispatch 7) =
              .ok (.flow launching) ∧
          launched.countP (·.event = eventIn .dispatch 7) = 2 ∧
          launching.countP (·.event = eventIn .launch 1) = 2 ∧
            ∃ metadata resolved,
              (linkedEvents.toSource "capture.rpd").metadata.answer = .ok metadata ∧
                Detail.resolve ((Trace.fresh ⟨0⟩).loadMetadata metadata).trackOf?
                    (.flow launched) = .flow resolved ∧
                  resolved.length = launched.length := by
  obtain ⟨hsound, hevents⟩ := sound_linkedEvents
  have hcalls : ∀ row ∈ linkedEvents.calls, row.start.whole < greatestTime := by decide
  have hdispatches : ∀ row ∈ linkedEvents.dispatches, row.start.whole < greatestTime := by decide
  obtain ⟨window, keys, hmetadata, -⟩ := hsound.exists_tracks "capture.rpd"
  obtain ⟨hlaunches, hdispatched⟩ := Tables.flows_symmetric hevents List.not_mem_nil hcalls
    hdispatches "capture.rpd"
  obtain ⟨launched, hlaunched, hcount, hresolves⟩ := hlaunches _ List.mem_cons_self
  obtain ⟨launching, hlaunching, hback, -⟩ := hdispatched _ List.mem_cons_self
  have hloaded : ((Trace.fresh ⟨0⟩).loadMetadata ⟨window, _⟩).LoadedWith _ :=
    Trace.loadedWith_loadMetadata rfl ⟨window, keys.map TrackKey.descriptor⟩
  obtain ⟨resolved, hresolve, heach⟩ := hresolves _ _ hmetadata hloaded
  exact ⟨hevents, List.not_mem_nil, hcalls, hdispatches, launched, launching, hlaunched,
    hlaunching, hcount _ List.mem_cons_self, hback _ List.mem_cons_self, _, resolved, hmetadata,
    hresolve, heach.length_eq.symm⟩

end Resolving

end Rocpd

end TimelineStore
