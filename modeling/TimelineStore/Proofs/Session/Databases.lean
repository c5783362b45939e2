import TimelineStore.Proofs.Session.Futures

/-!
# The databases of a session

A database keeps its source until it is closed, and the trace that it is bound to until it
is bound anew.

**Results.**
* `Session.Leads.databases_cases`: what a step of a session does to its databases.
* `Session.Leads.database_cases`: where the databases of a session come from.
-/

namespace TimelineStore

namespace Session

variable {session next : Session}

section Databases

variable {id : DatabaseId} {attached : Attached}

theorem databases_reading
    {α : Type} {text : α → String} {read : Source → Trace → Reading α} :
    (session.reading id text read).session.databases = session.databases := by
  rcases session.reading_cases id text read with hnext | ⟨_, _, -, -, hnext⟩ <;> simp [hnext]

theorem databases_turn
    (future : FutureId) :
    (session.turn future).databases = session.databases := by
  rcases session.turn_cases future with hnext | ⟨_, _, _, _, -, -, -, -, hnext⟩ <;>
    simp [hnext]

/-- A change of a database in a step: it keeps its source, and the trace that it is bound to
unless it is what is bound. -/
structure Retains (session next : Session) (id : DatabaseId) (before after : Attached) : Prop where
  source : after.source = before.source
  bound : after.bound = before.bound ∨
    ∃ trace, session.bind id trace = .ok next ∧ after.bound = some trace

/-- What a step of a session does to its databases: one is attached, closed or changed, or
all stay as they are. -/
theorem Leads.databases_cases
    (hleads : Leads session next) :
    (∃ source, next.databases = session.databases.add fun _ => ⟨source, .empty, none⟩) ∨
    (∃ id : DatabaseId, next.databases = session.databases.erase id.index) ∨
    (∃ (id : DatabaseId) (change : Attached → Attached),
      next.databases = session.databases.modify id.index change ∧
        ∀ before, session.Retains next id before (change before)) ∨
    next.databases = session.databases := by
  cases hleads with
  | attach source => exact .inl ⟨source, rfl⟩
  | @close _ id hclose =>
      exact .inr (.inl ⟨id, by rw [eq_of_close hclose]⟩)
  | @bind _ id trace hbind =>
      obtain ⟨_, _, _, -, -, -, -, hnext⟩ := exists_of_bind hbind
      refine .inr (.inr (.inl ⟨id, ({ · with bound := some trace }), ?_, fun _ => ?_⟩))
      · rw [hnext]
        rfl
      · exact ⟨rfl, .inr ⟨trace, hbind, rfl⟩⟩
  | @draftWindow _ id window hdraft =>
      rw [eq_of_draftWindow hdraft]
      exact .inr (.inr (.inl ⟨id, _, rfl, fun _ => ⟨rfl, .inl rfl⟩⟩))
  | @draftTrack _ id track hdraft =>
      rw [eq_of_draftTrack hdraft]
      exact .inr (.inr (.inl ⟨id, _, rfl, fun _ => ⟨rfl, .inl rfl⟩⟩))
  | readDraft id mode =>
      rcases session.readDraft_cases id mode with hnext | hcleared
      · exact .inr (.inr (.inr (by rw [hnext])))
      refine .inr (.inr (.inl ⟨id, ({ · with draft := .empty }), ?_, fun _ => ⟨rfl, .inl rfl⟩⟩))
      rcases hcleared with hnext | ⟨request, hnext⟩
      · rw [hnext]
        rfl
      · rw [hnext]
        exact databases_reading
  | readMetadata id => exact .inr (.inr (.inr databases_reading))
  | read id request mode => exact .inr (.inr (.inr databases_reading))
  | createTrace => exact .inr (.inr (.inr rfl))
  | deleteTrace hdelete =>
      obtain ⟨_, -, rfl⟩ := exists_of_deleteTrace hdelete
      exact .inr (.inr (.inr rfl))
  | allocate listens => exact .inr (.inr (.inr rfl))
  | free hfree =>
      rw [eq_of_free hfree]
      exact .inr (.inr (.inr rfl))
  | interrupt future =>
      refine .inr (.inr (.inr ?_))
      rcases session.interrupt_cases future with hnext | ⟨_, -, hnext⟩ <;> simp [hnext]
  | wait future seconds =>
      refine .inr (.inr (.inr ?_))
      rcases session.wait_cases future seconds with hnext | ⟨_, -, hnext⟩ <;> simp [hnext]
  | scheduleMetadata hschedule =>
      obtain ⟨_, _, _, _, -, -, -, -, rfl⟩ := exists_of_schedule hschedule
      exact .inr (.inr (.inr rfl))
  | scheduleRead hschedule =>
      obtain ⟨_, _, _, _, -, -, -, -, rfl⟩ := exists_of_schedule hschedule
      exact .inr (.inr (.inr rfl))
  | scheduleDetail hschedule =>
      obtain ⟨_, _, _, _, -, -, -, -, rfl⟩ := exists_of_schedule hschedule
      exact .inr (.inr (.inr rfl))
  | turn future => exact .inr (.inr (.inr (databases_turn future)))
  | evictAt hevict =>
      obtain ⟨_, -, rfl⟩ := exists_of_evicting hevict
      exact .inr (.inr (.inr rfl))
  | evictWindow hevict =>
      obtain ⟨_, -, rfl⟩ := exists_of_evicting hevict
      exact .inr (.inr (.inr rfl))
  | evictAll hevict =>
      obtain ⟨_, -, rfl⟩ := exists_of_evicting hevict
      exact .inr (.inr (.inr rfl))
  | evictDetail hevict =>
      obtain ⟨_, -, rfl⟩ := exists_of_evicting hevict
      exact .inr (.inr (.inr rfl))
  | evictDetails hevict =>
      obtain ⟨_, -, rfl⟩ := exists_of_evicting hevict
      exact .inr (.inr (.inr rfl))

theorem Leads.database_cases
    (hleads : Leads session next)
    (hattached : next.database id = .ok attached) :
    (id.index = session.databases.next ∧ attached.bound = none) ∨
      ∃ before, session.database id = .ok before ∧ session.Retains next id before attached := by
  have hself {before : Attached} : session.Retains next id before before := ⟨rfl, .inl rfl⟩
  simp only [database_eq_ok_iff] at hattached ⊢
  rcases hleads.databases_cases with ⟨source, hnext⟩ | ⟨closed, hnext⟩ |
    ⟨changed, change, hnext, hretains⟩ | hnext
  · rw [hnext, Arena.get?_add] at hattached
    split at hattached
    · rename_i hnew
      cases hattached
      exact .inl ⟨hnew, rfl⟩
    · exact .inr ⟨attached, hattached, hself⟩
  · rw [hnext, Arena.get?_erase] at hattached
    split at hattached
    · cases hattached
    · exact .inr ⟨attached, hattached, hself⟩
  · rw [hnext, Arena.get?_modify] at hattached
    split at hattached
    · rename_i hsame
      obtain ⟨before, hbefore, rfl⟩ := Option.map_eq_some_iff.1 hattached
      obtain rfl : id = changed := congrArg DatabaseId.mk hsame
      exact .inr ⟨before, hbefore, hretains before⟩
    · exact .inr ⟨attached, hattached, hself⟩
  · rw [hnext] at hattached
    exact .inr ⟨attached, hattached, hself⟩

/-- A number that was handed out to a database stays handed out. -/
theorem Leads.databases_next_le
    (hleads : Leads session next) :
    session.databases.next ≤ next.databases.next := by
  rcases hleads.databases_cases with ⟨_, hnext⟩ | ⟨_, hnext⟩ | ⟨_, _, hnext, -⟩ | hnext
  · rw [hnext]
    exact Nat.le_succ _
  · exact Nat.le_of_eq (congrArg Arena.next hnext).symm
  · exact Nat.le_of_eq (congrArg Arena.next hnext).symm
  · exact Nat.le_of_eq (congrArg Arena.next hnext).symm

end Databases

end Session

end TimelineStore
