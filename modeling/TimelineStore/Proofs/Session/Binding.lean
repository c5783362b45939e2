import TimelineStore.Proofs.Session.ReadPaths
import TimelineStore.Proofs.Session.Traces
import TimelineStore.Session.Raw

/-!
# Databases and the traces they serve

The link between a database and a trace is kept at both ends: the database remembers the
trace that it was last bound to, and the trace remembers for good the database that it was
first bound to.  A trace is live while it is listed or a worker is on it.  In every reachable
session the two ends agree on live traces and open databases, so the link is a one-to-one
matching, through deletions, closed databases and bindings anew.

**Results.**
* `Session.Matched.step`: the ends of the link agree after every step.
* `Session.binding_matches`: the matching, and when a binding fails.
-/

namespace TimelineStore

namespace Session

variable {session next : Session} {config : Config}

section Live

variable {id : TraceId} {trace : Trace}

theorem liveTrace?_eq_some_iff :
    session.liveTrace? id = some trace ↔
      ∃ listed, session.traces.get? id.index = some ⟨trace, listed⟩ ∧
        (listed = true ∨ session.isWorkedOn id = true) := by
  unfold liveTrace?
  cases session.traces.get? id.index with
  | none => simp
  | some held =>
      obtain ⟨kept, listed⟩ := held
      cases listed <;> cases session.isWorkedOn id <;> simp

theorem liveTrace?_of_trace
    (htrace : session.trace id = .ok trace) :
    session.liveTrace? id = some trace :=
  liveTrace?_eq_some_iff.2 ⟨true, trace_eq_ok_iff.1 htrace, .inl rfl⟩

theorem Numbered.id_of_liveTrace?
    (hnumbered : session.Numbered)
    (hlive : session.liveTrace? id = some trace) :
    trace.id = id := by
  obtain ⟨listed, hheld, -⟩ := liveTrace?_eq_some_iff.1 hlive
  exact hnumbered.traces _ _ hheld

theorem liveTrace?_of_servedTrace
    {database : DatabaseId} {attached : Attached}
    (hnumbered : session.Numbered)
    (hserved : session.servedTrace database attached = .ok trace) :
    attached.bound = some trace.id ∧ session.liveTrace? trace.id = some trace := by
  unfold servedTrace at hserved
  cases hbound : session.boundTrace? attached with
  | none => simp [hbound] at hserved
  | some current =>
      simp only [hbound, Except.ok.injEq] at hserved
      subst hserved
      obtain ⟨bound, hattached, hlive⟩ := Option.bind_eq_some_iff.1 hbound
      rw [hnumbered.id_of_liveTrace? hlive]
      exact ⟨hattached, hlive⟩

/-- A trace that is live after a step was live before, unless the step created it. -/
theorem Leads.live
    {held : HeldTrace}
    (hnumbered : session.Numbered)
    (hwork : session.AtWork)
    (hleads : Leads session next)
    (hheld : session.traces.get? id.index = some held)
    (hlive : next.liveTrace? id = some trace) :
    session.liveTrace? id = some held.trace := by
  obtain ⟨after, acts, hcarries⟩ := hleads.carries hnumbered hwork hheld
  -- a trace is not listed again, and a new worker is on a trace that its database serves
  obtain ⟨listed, hafter, hlisted | hworked⟩ := liveTrace?_eq_some_iff.1 hlive
  · cases hafter.symm.trans hcarries.holds
    exact liveTrace?_eq_some_iff.2 ⟨held.listed, hheld, .inl (hcarries.listed hlisted)⟩
  · obtain ⟨future, job, hjob, rfl⟩ := isWorkedOn_iff.1 hworked
    cases hleads.assigns hnumbered hjob with
    | @resumed before hbefore htrace =>
        refine liveTrace?_eq_some_iff.2 ⟨held.listed, hheld, .inr ?_⟩
        exact isWorkedOn_iff.2 ⟨future, before, hbefore, htrace.symm⟩
    | scheduled _ hserved htrace =>
        obtain ⟨-, hserves⟩ := liveTrace?_of_servedTrace hnumbered hserved
        rw [← htrace] at hserves
        obtain ⟨_, hsame, -⟩ := liveTrace?_eq_some_iff.1 hserves
        cases hsame.symm.trans hheld
        exact hserves

end Live

/-- What the two ends of a link say.  A trace that a database is bound to is bound to the
database, and an open database that a live trace is bound to is bound to the trace. -/
structure Matched (session : Session) : Prop where
  bound : ∀ {database : DatabaseId} {attached : Attached} {id : TraceId},
    session.database database = .ok attached → attached.bound = some id →
      ∃ held, session.traces.get? id.index = some held ∧ held.trace.boundTo = some database
  served : ∀ {database : DatabaseId} {attached : Attached} {id : TraceId} {trace : Trace},
    session.database database = .ok attached → session.liveTrace? id = some trace →
      trace.boundTo = some database → attached.bound = some id
  issued : ∀ {database : DatabaseId} {number : Nat} {held : HeldTrace},
    session.traces.get? number = some held → held.trace.boundTo = some database →
      database.index < session.databases.next

section Matched

variable {database : DatabaseId} {attached : Attached} {id : TraceId} {trace : Trace}

/-- Both ends of a link after it was made. -/
theorem linked_of_bind
    (hnumbered : session.Numbered)
    (hbind : session.bind database id = .ok next) :
    (∃ trace, next.trace id = .ok trace ∧ trace.boundTo = some database) ∧
      ∃ attached, next.database database = .ok attached ∧ attached.bound = some id := by
  obtain ⟨attached, trace, hattached, htrace, -, -, rfl⟩ := bind_eq_ok_iff.1 hbind
  have hheld := trace_eq_ok_iff.1 htrace
  have hid : (trace.perform (.bind database)).id = id :=
    (trace.id_perform _).trans (hnumbered.traces _ _ hheld)
  constructor
  · refine ⟨trace.perform (.bind database), trace_eq_ok_iff.2 ?_, rfl⟩
    refine (session.get?_putTrace _ id.index).trans ?_
    rw [hid, if_pos rfl, hheld]
    rfl
  · refine ⟨{ attached with bound := some id }, database_eq_ok_iff.2 ?_, rfl⟩
    refine (session.databases.get?_modify database.index _ _).trans ?_
    rw [if_pos rfl, database_eq_ok_iff.1 hattached]
    rfl

namespace Matched

theorem empty
    (config : Config) :
    (Session.empty config).Matched where
  bound hattached := nomatch hattached
  served hattached := nomatch hattached
  issued hheld := nomatch hheld

theorem step
    (hmatched : session.Matched)
    (hnumbered : session.Numbered)
    (hwork : session.AtWork)
    (hleads : Leads session next) :
    next.Matched := by
  refine ⟨?_, ?_, ?_⟩
  · intro database attached id hattached hbound
    rcases hleads.database_cases hattached with ⟨-, hfresh⟩ | ⟨before, hbefore, hretains⟩
    · cases hfresh.symm.trans hbound
    rcases hretains.bound with hkept | ⟨trace, hbind, hnew⟩
    · obtain ⟨held, hheld, hheldBound⟩ := hmatched.bound hbefore (hkept.symm.trans hbound)
      obtain ⟨after, acts, hcarries⟩ := hleads.carries hnumbered hwork hheld
      exact ⟨after, hcarries.holds, hcarries.undergoes.boundTo hheldBound⟩
    · cases hnew.symm.trans hbound
      obtain ⟨⟨trace, htrace, htraceBound⟩, -⟩ := linked_of_bind hnumbered hbind
      exact ⟨_, trace_eq_ok_iff.1 htrace, htraceBound⟩
  · intro database attached id trace hattached hlive hbound
    obtain ⟨listed, hafter, -⟩ := liveTrace?_eq_some_iff.1 hlive
    rcases hleads.held_cases hnumbered hwork hafter with ⟨-, hnew⟩ | ⟨held, acts, hcarries⟩
    · cases hnew
      cases hbound
    rcases hcarries.undergoes.boundTo_cases hbound with hheldBound | hact
    · have hheldLive := hleads.live hnumbered hwork hcarries.had hlive
      rcases hleads.database_cases hattached with ⟨hfresh, -⟩ | ⟨before, hbefore, hretains⟩
      · exact absurd hfresh (Nat.ne_of_lt (hmatched.issued hcarries.had hheldBound))
      have hbeforeBound := hmatched.served hbefore hheldLive hheldBound
      rcases hretains.bound with hkept | ⟨other, hbind, hnew⟩
      · exact hkept.trans hbeforeBound
      · -- the database serves the trace, so it can only have been bound to the same one
        obtain ⟨_, _, hsame, -, hserves, -⟩ := bind_eq_ok_iff.1 hbind
        cases hbefore.symm.trans hsame
        have hcurrent : session.boundTrace? before = some held.trace := by
          rw [boundTrace?, hbeforeBound]
          exact hheldLive
        rw [hnew, ← hserves _ hcurrent, hnumbered.id_of_liveTrace? hheldLive]
    · obtain ⟨-, other, hother, hnew⟩ := linked_of_bind hnumbered (hcarries.occasions _ hact)
      cases hother.symm.trans hattached
      exact hnew
  · intro database number after hafter hbound
    rcases hleads.held_cases hnumbered hwork hafter with ⟨-, rfl⟩ | ⟨held, acts, hcarries⟩
    · cases hbound
    rcases hcarries.undergoes.boundTo_cases hbound with hheldBound | hact
    · exact lt_of_lt_of_le (hmatched.issued hcarries.had hheldBound) hleads.databases_next_le
    · obtain ⟨-, attached, hattached, -⟩ := linked_of_bind hnumbered (hcarries.occasions _ hact)
      exact Arena.lt_next_of_get? (database_eq_ok_iff.1 hattached)

end Matched

theorem matched_of_reachable
    (hreach : Reachable config session) :
    session.Matched := by
  induction hreach with
  | empty => exact .empty config
  | step hreach hleads ih =>
      exact ih.step (numbered_of_reachable hreach) (atWork_of_reachable hreach) hleads

end Matched

/-- The database is open, and it serves the trace. -/
def Holds (session : Session) (database : DatabaseId) (trace : Trace) : Prop :=
  ∃ attached, session.database database = .ok attached ∧
    session.boundTrace? attached = some trace

section Matching

variable {database : DatabaseId} {id : TraceId} {trace : Trace}

/-- An open database holds the live trace that is bound to it. -/
theorem holds_iff
    (hreach : Reachable config session) :
    session.Holds database trace ↔
      (∃ attached, session.database database = .ok attached) ∧
        session.liveTrace? trace.id = some trace ∧ trace.boundTo = some database := by
  have hnumbered := numbered_of_reachable hreach
  have hmatched := matched_of_reachable hreach
  constructor
  · rintro ⟨attached, hattached, hbound⟩
    have hserved : session.servedTrace database attached = .ok trace := by
      simp only [servedTrace, hbound]
    obtain ⟨hattachedBound, hlive⟩ := liveTrace?_of_servedTrace hnumbered hserved
    obtain ⟨held, hheld, hheldBound⟩ := hmatched.bound hattached hattachedBound
    obtain ⟨listed, hsame, -⟩ := liveTrace?_eq_some_iff.1 hlive
    cases hheld.symm.trans hsame
    exact ⟨⟨attached, hattached⟩, hlive, hheldBound⟩
  · rintro ⟨⟨attached, hattached⟩, hlive, hbound⟩
    refine ⟨attached, hattached, ?_⟩
    rw [boundTrace?, hmatched.served hattached hlive hbound]
    exact hlive

/-- Databases that hold the same trace are the same, and traces that one database holds. -/
theorem holds_inj
    {other : DatabaseId} {again : Trace}
    (hreach : Reachable config session)
    (hholds : session.Holds database trace)
    (hother : session.Holds other again) :
    database = other ↔ trace.id = again.id := by
  obtain ⟨-, hlive, hbound⟩ := (holds_iff hreach).1 hholds
  obtain ⟨-, hagain, hagainBound⟩ := (holds_iff hreach).1 hother
  constructor
  · rintro rfl
    obtain ⟨attached, hattached, hserved⟩ := hholds
    obtain ⟨_, hsame, hagainServed⟩ := hother
    cases hsame.symm.trans hattached
    cases hserved.symm.trans hagainServed
    rfl
  · intro hid
    rw [hid, hagain, Option.some.injEq] at hlive
    subst hlive
    exact Option.some.inj (hbound.symm.trans hagainBound)

/-- The same goes for the words of their identifiers, as long as there are enough of them. -/
theorem holds_inj_word
    {other : DatabaseId} {again : Trace}
    (hreach : Reachable config session)
    (hdatabases : session.databases.Fits)
    (htraces : session.traces.Fits)
    (hholds : session.Holds database trace)
    (hother : session.Holds other again) :
    UInt32.ofNat database.index = UInt32.ofNat other.index ↔
      UInt32.ofNat trace.id.index = UInt32.ofNat again.id.index := by
  obtain ⟨⟨_, hattached⟩, hlive, -⟩ := (holds_iff hreach).1 hholds
  obtain ⟨⟨_, hanother⟩, hagain, -⟩ := (holds_iff hreach).1 hother
  obtain ⟨_, hheld, -⟩ := liveTrace?_eq_some_iff.1 hlive
  obtain ⟨_, hheldAgain, -⟩ := liveTrace?_eq_some_iff.1 hagain
  have hmatch := holds_inj hreach hholds hother
  rw [hdatabases.word_inj (database_eq_ok_iff.1 hattached) (database_eq_ok_iff.1 hanother),
    htraces.word_inj hheld hheldAgain, ← DatabaseId.mk.injEq, ← TraceId.mk.injEq]
  exact hmatch

/-- A binding fails exactly if one of the two is taken. -/
theorem bind_eq_error_iff
    {attached : Attached}
    (hattached : session.database database = .ok attached)
    (htrace : session.trace id = .ok trace) :
    (∃ failure, session.bind database id = .error failure) ↔
      (∃ other, session.Holds database other ∧ other.id ≠ id) ∨
        ∃ other, trace.boundTo = some other ∧ other ≠ database := by
  constructor
  · rintro ⟨failure, hfailed⟩
    by_contra hfree
    obtain ⟨hserves, hadmits⟩ := not_or.1 hfree
    have hbind : session.bind database id = .ok _ := bind_eq_ok_iff.2
      ⟨attached, trace, hattached, htrace, fun current hcurrent => ?_, fun bound hbound => ?_, rfl⟩
    · cases hfailed.symm.trans hbind
    · by_contra hother
      exact hserves ⟨current, ⟨attached, hattached, hcurrent⟩, hother⟩
    · by_contra hother
      exact hadmits ⟨bound, hbound, hother⟩
  · intro htaken
    cases hbind : session.bind database id with
    | error failure => exact ⟨failure, rfl⟩
    | ok next =>
        obtain ⟨_, _, hsame, hlisted, hserves, hadmits, -⟩ := bind_eq_ok_iff.1 hbind
        cases hsame.symm.trans hattached
        cases hlisted.symm.trans htrace
        rcases htaken with ⟨other, ⟨_, hholder, hcurrent⟩, hother⟩ | ⟨other, hbound, hother⟩
        · cases hholder.symm.trans hattached
          exact absurd (hserves other hcurrent) hother
        · exact absurd (hadmits other hbound) hother

/-- **A binding that fails leaves both ends as they were**, although the trace is written before
the last step that can fail. -/
theorem binding_of_error
    {failure : Failure}
    (hnumbered : session.Numbered)
    (hfailed : (session.binding database id).result = .error failure) :
    (session.binding database id).session = session := by
  unfold binding at hfailed ⊢
  cases hattached : session.database database with
  | error failure => rfl
  | ok attached =>
      cases htrace : session.trace id with
      | error failure => rfl
      | ok trace =>
          cases hserves : session.checkServes database attached id with
          | error failure => simp only [hserves, refused]
          | ok served =>
              cases hbound : (trace.binding database).1 with
              | ok bound => simp [hattached, htrace, hserves, hbound] at hfailed
              | error failure =>
                  simp only [hserves, hbound, refused, Trace.binding_of_error hbound]
                  exact putTrace_self hnumbered (trace_eq_ok_iff.1 htrace)

/-- A trace that is bound remains bound to the same database. -/
theorem boundTo_of_leads
    {later : Session} {after : Trace}
    (hreach : Reachable config session)
    (hleads : Relation.ReflTransGen Leads session later)
    (hlive : session.liveTrace? id = some trace)
    (hafter : later.liveTrace? id = some after)
    (hbound : trace.boundTo = some database) :
    after.boundTo = some database := by
  obtain ⟨listed, hheld, -⟩ := liveTrace?_eq_some_iff.1 hlive
  obtain ⟨relisted, hkept, -⟩ := liveTrace?_eq_some_iff.1 hafter
  obtain ⟨held, acts, hholds, hundergoes⟩ := exists_undergoes_of_leads hreach hheld hleads
  cases hholds.symm.trans hkept
  exact hundergoes.boundTo hbound

/-- **Binding is a one-to-one matching.**  An open database holds the live trace that is bound
to it, no other database holds that trace, and it holds no other.  What a trace is bound to
never changes.  A database and a listed trace can be bound unless one of the two is taken, and
a binding that fails leaves both ends, and all else that the session stores, as they were: it
has written nothing new by then.  As long as the numbers that were handed out fit into words,
databases and the traces they hold match word by word too. -/
theorem binding_matches
    (hreach : Reachable config session) :
    (∀ database trace, session.Holds database trace ↔
      (∃ attached, session.database database = .ok attached) ∧
        session.liveTrace? trace.id = some trace ∧ trace.boundTo = some database) ∧
    (∀ database other trace again, session.Holds database trace → session.Holds other again →
      (database = other ↔ trace.id = again.id)) ∧
    (∀ later id trace after database, Relation.ReflTransGen Leads session later →
      session.liveTrace? id = some trace → later.liveTrace? id = some after →
        trace.boundTo = some database → after.boundTo = some database) ∧
    (∀ database attached id trace, session.database database = .ok attached →
      session.trace id = .ok trace →
        ((∃ failure, session.bind database id = .error failure) ↔
          (∃ other, session.Holds database other ∧ other.id ≠ id) ∨
            ∃ other, trace.boundTo = some other ∧ other ≠ database)) ∧
    (∀ database id failure, session.bind database id = .error failure →
      (session.binding database id).result = .error failure ∧
        (session.binding database id).session = session) ∧
    (∀ database id next, session.bind database id = .ok next →
      ∃ trace, next.Holds database trace ∧ trace.id = id) ∧
    (session.databases.Fits → session.traces.Fits → ∀ database other trace again,
      session.Holds database trace → session.Holds other again →
        (UInt32.ofNat database.index = UInt32.ofNat other.index ↔
          UInt32.ofNat trace.id.index = UInt32.ofNat again.id.index)) := by
  refine ⟨fun _ _ => holds_iff hreach, ?_, ?_, ?_, ?_, ?_,
    fun hdatabases htraces _ _ _ _ => holds_inj_word hreach hdatabases htraces⟩
  · exact fun _ _ _ _ => holds_inj hreach
  · intro later id trace after database hleads hlive hafter hbound
    exact boundTo_of_leads hreach hleads hlive hafter hbound
  · intro database attached id trace hattached htrace
    exact bind_eq_error_iff hattached htrace
  · intro database id failure hfailed
    have hresult : (session.binding database id).result = .error failure :=
      Outcome.map_eq_error_iff.1 hfailed
    exact ⟨hresult, binding_of_error (numbered_of_reachable hreach) hresult⟩
  · intro database id next hbind
    obtain ⟨⟨trace, htrace, hbound⟩, attached, hattached, -⟩ :=
      linked_of_bind (numbered_of_reachable hreach) hbind
    have hnext := hreach.step (.bind hbind)
    have hlive := liveTrace?_of_trace htrace
    have hid := (numbered_of_reachable hnext).id_of_liveTrace? hlive
    refine ⟨trace, (holds_iff hnext).2 ⟨⟨attached, hattached⟩, ?_, hbound⟩, hid⟩
    rw [hid]
    exact hlive

end Matching

section Example

/-- A worker is to read both tracks of the capture. -/
def busy : Session :=
  ((ready.scheduleRead ⟨0⟩ both ⟨0⟩).toOption).getD ready

/-- The trace that the worker is on was deleted, and another one was created. -/
def deserted : Session :=
  ((busy.deleteTrace ⟨0⟩).toOption.getD busy).createTrace.2

theorem reachable_deserted : Reachable .standard deserted := by
  have hbusy : ready.scheduleRead ⟨0⟩ both ⟨0⟩ = .ok busy := rfl
  have hdelete : busy.deleteTrace ⟨0⟩ = .ok (busy.deleteTrace ⟨0⟩ |>.toOption.getD busy) := rfl
  exact ((reachable_ready.step (.scheduleRead hbusy)).step (.deleteTrace hdelete)).step
    (.createTrace _)

/-- The capture serves the deleted trace as long as the worker is on it, and the other one
thereafter. -/
theorem binding_matches_deserted :
    (∃ failure, deserted.trace ⟨0⟩ = .error failure) ∧
      (∃ trace, deserted.Holds ⟨0⟩ trace ∧ trace.id = ⟨0⟩ ∧ trace.boundTo = some ⟨0⟩) ∧
      (∃ failure, deserted.bind ⟨0⟩ ⟨1⟩ = .error failure ∧
        (deserted.binding ⟨0⟩ ⟨1⟩).session = deserted) := by
  obtain ⟨hholds, -, -, hfails, hkept, -⟩ := binding_matches reachable_deserted
  have hlive : deserted.liveTrace? ⟨0⟩ = some loaded.evictAll := rfl
  have hserves : deserted.Holds ⟨0⟩ loaded.evictAll :=
    (hholds ⟨0⟩ loaded.evictAll).2 ⟨⟨_, rfl⟩, hlive, rfl⟩
  have hfree : deserted.trace ⟨1⟩ = .ok (.fresh ⟨1⟩) := rfl
  obtain ⟨failure, hfailed⟩ := (hfails ⟨0⟩ _ ⟨1⟩ _ rfl hfree).2
    (.inl ⟨loaded.evictAll, hserves, by decide⟩)
  exact ⟨⟨_, rfl⟩, ⟨loaded.evictAll, hserves, rfl, rfl⟩, failure, hfailed,
    (hkept ⟨0⟩ ⟨1⟩ failure hfailed).2⟩

end Example

end Session

end TimelineStore
