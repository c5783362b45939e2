import Mathlib.Data.List.Nodup
import TimelineStore.Proofs.Session.Calls

/-!
# What calls of a session lead to

Every call of a session and every turn of one of its workers is a step by
which a session `Leads` to the next; a session is `Reachable` when steps lead to it from
the empty session.  Traces and futures
carry their own identifiers, and what a session puts back it puts back under the
identifier that the value carries, so in a reachable session every trace and every
future stands under its own number.

**Results.**
* `Session.get?_putTrace`, `Session.get?_putFuture`: what the two updates do.
* `Session.Numbered.step`: a step keeps every trace and every future under its number.
* `Session.numbered_of_reachable`: so they stand there in every reachable session.
-/

namespace TimelineStore

namespace Keyed

variable {κ ν : Type} [DecidableEq κ] {collection : Keyed κ ν} {value : ν}

theorem get?_eq_some_iff
    {key : κ} :
    collection.get? key = some value ↔ (key, value) ∈ collection.entries := by
  constructor
  · intro hvalue
    obtain ⟨entry, hfound, rfl⟩ := Option.map_eq_some_iff.1 hvalue
    have hkey : entry.1 = key := by simpa using List.find?_some hfound
    rw [← hkey]
    exact List.mem_of_find?_eq_some hfound
  · intro hentry
    obtain ⟨entry, hfound⟩ : ∃ entry, collection.entries.find? (·.1 = key) = some entry := by
      refine Option.isSome_iff_exists.1 (List.find?_isSome.2 ⟨_, hentry, ?_⟩)
      exact decide_eq_true rfl
    have hkey : entry.1 = key := by simpa using List.find?_some hfound
    obtain rfl := List.inj_on_of_nodup_map collection.distinct (List.mem_of_find?_eq_some hfound)
      hentry hkey
    rw [get?, hfound]
    rfl

theorem mem_values_iff :
    value ∈ collection.values ↔ ∃ key, collection.get? key = some value := by
  simp [values, get?_eq_some_iff]

/-- A change that leaves the value of a key as it was leaves the collection as it was. -/
theorem modify_eq_self
    {key : κ} {change : ν → ν}
    (hsame : ∀ value, collection.get? key = some value → change value = value) :
    collection.modify key change = collection := by
  obtain ⟨entries, distinct⟩ := collection
  simp only [modify, mk.injEq]
  refine (List.map_congr_left fun entry hentry => ?_).trans entries.map_id
  split
  · rename_i hkey
    have hvalue := hsame entry.2 (get?_eq_some_iff.2 (hkey ▸ hentry))
    rw [hvalue, id]
  · rfl

end Keyed

namespace Arena

variable {α : Type} (arena : Arena α) (number : Nat)

theorem get?_add
    (make : Nat → α) :
    (arena.add make).get? number =
      if number = arena.next then some (make arena.next) else arena.get? number :=
  Keyed.get?_insert _ _ _ _

theorem get?_erase
    (other : Nat) :
    (arena.erase other).get? number = if number = other then none else arena.get? number :=
  Keyed.get?_erase _ _ _

theorem get?_modify
    (other : Nat) (change : α → α) :
    (arena.modify other change).get? number =
      if number = other then (arena.get? number).map change else arena.get? number :=
  Keyed.get?_modify _ _ _ _

theorem modify_eq_self
    {change : α → α}
    (hsame : ∀ value, arena.get? number = some value → change value = value) :
    arena.modify number change = arena := by
  obtain ⟨next, slots, issued⟩ := arena
  have hslots : slots.modify number change = slots := Keyed.modify_eq_self hsame
  simp only [modify, hslots]

/-- A number that has a value has been handed out. -/
theorem lt_next_of_get?
    {arena : Arena α} {number : Nat} {value : α}
    (hvalue : arena.get? number = some value) :
    number < arena.next :=
  arena.issued number (List.mem_map_of_mem (Keyed.get?_eq_some_iff.1 hvalue))

/-- Words tell the values of an arena apart as long as there are enough of them. -/
theorem Fits.word_inj
    {arena : Arena α} {number other : Nat} {value another : α}
    (hfits : arena.Fits)
    (hvalue : arena.get? number = some value)
    (hanother : arena.get? other = some another) :
    UInt32.ofNat number = UInt32.ofNat other ↔ number = other := by
  have hnumber : number < UInt32.size := Nat.lt_of_lt_of_le (lt_next_of_get? hvalue) hfits
  have hother : other < UInt32.size := Nat.lt_of_lt_of_le (lt_next_of_get? hanother) hfits
  refine ⟨fun hsame => ?_, congrArg _⟩
  rw [← UInt32.toNat_ofNat_of_lt' hnumber, hsame, UInt32.toNat_ofNat_of_lt' hother]

/-- Every value of the arena is one that `Holds` at its number. -/
def All (Holds : Nat → α → Prop) : Prop :=
  ∀ (number : Nat) (value : α), arena.get? number = some value → Holds number value

section All

variable {arena} {Holds : Nat → α → Prop}

theorem All.add
    {make : Nat → α}
    (hall : arena.All Holds)
    (hmake : ∀ number, Holds number (make number)) :
    (arena.add make).All Holds := by
  intro number value hvalue
  rw [get?_add] at hvalue
  split at hvalue
  · rename_i hnext
    cases hvalue
    rw [hnext]
    exact hmake arena.next
  · exact hall number value hvalue

theorem All.erase
    {other : Nat}
    (hall : arena.All Holds) :
    (arena.erase other).All Holds := by
  intro number value hvalue
  rw [get?_erase] at hvalue
  split at hvalue
  · cases hvalue
  · exact hall number value hvalue

theorem All.modify
    {other : Nat} {change : α → α}
    (hall : arena.All Holds)
    (hchange : ∀ value, Holds other (change value)) :
    (arena.modify other change).All Holds := by
  intro number value hvalue
  rw [get?_modify] at hvalue
  split at hvalue
  · rename_i hother
    obtain ⟨old, -, rfl⟩ := Option.map_eq_some_iff.1 hvalue
    rw [hother]
    exact hchange old
  · exact hall number value hvalue

end All

end Arena

namespace Session

section Lookup

variable {session : Session}

theorem trace_eq_ok_iff
    {id : TraceId} {trace : Trace} :
    session.trace id = .ok trace ↔ session.traces.get? id.index = some ⟨trace, true⟩ := by
  unfold Session.trace
  cases session.traces.get? id.index with
  | none => simp
  | some held =>
      cases held with
      | mk kept listed => cases listed <;> simp

theorem database_eq_ok_iff
    {id : DatabaseId} {attached : Attached} :
    session.database id = .ok attached ↔ session.databases.get? id.index = some attached := by
  unfold Session.database
  cases session.databases.get? id.index <;> simp

theorem future_eq_ok_iff
    {id : FutureId} {future : Future Job} :
    session.future id = .ok future ↔ session.futures.get? id.index = some future := by
  unfold Session.future
  cases session.futures.get? id.index <;> simp

/-- A trace that a database serves is held by the session, listed or not. -/
theorem held_of_servedTrace
    {id : DatabaseId} {attached : Attached} {trace : Trace}
    (hserved : session.servedTrace id attached = .ok trace) :
    ∃ (number : Nat) (held : HeldTrace),
      session.traces.get? number = some held ∧ held.trace = trace := by
  unfold servedTrace boundTrace? at hserved
  cases hbound : attached.bound with
  | none => simp [hbound] at hserved
  | some bound =>
      simp only [hbound, Option.bind_some, liveTrace?] at hserved
      cases hheld : session.traces.get? bound.index with
      | none => simp [hheld] at hserved
      | some held =>
          refine ⟨bound.index, held, hheld, ?_⟩
          by_cases hlive : (held.listed || session.isWorkedOn bound) = true
          · simpa [hheld, hlive] using hserved
          · simp [hheld, hlive] at hserved

end Lookup

section Update

variable (session : Session)

theorem get?_putTrace
    (trace : Trace) (number : Nat) :
    (session.putTrace trace).traces.get? number =
      if number = trace.id.index then (session.traces.get? number).map ({ · with trace })
      else session.traces.get? number :=
  session.traces.get?_modify number _ _

theorem get?_putFuture
    (future : Future Job) (number : Nat) :
    (session.putFuture future).futures.get? number =
      if number = future.id.index then (session.futures.get? number).map fun _ => future
      else session.futures.get? number :=
  session.futures.get?_modify number _ _

end Update

/-- Every trace and every future stands under its own number. -/
structure Numbered (session : Session) : Prop where
  traces : session.traces.All fun number held => held.trace.id = ⟨number⟩
  futures : session.futures.All fun number future => future.id = ⟨number⟩

/-- What one call of a session, or one turn of one of its workers, leads to.  A call that
fails and leaves the session as it was is no step. -/
inductive Leads : Session → Session → Prop where
  | attach (session : Session) (source : Source) :
      Leads session (session.attach source).2
  | close {session next : Session} {id : DatabaseId} :
      session.close id = .ok next → Leads session next
  | createTrace (session : Session) :
      Leads session session.createTrace.2
  | deleteTrace {session next : Session} {id : TraceId} :
      session.deleteTrace id = .ok next → Leads session next
  | bind {session next : Session} {database : DatabaseId} {id : TraceId} :
      session.bind database id = .ok next → Leads session next
  | readMetadata (session : Session) (id : DatabaseId) :
      Leads session (session.readMetadata id).session
  | read (session : Session) (id : DatabaseId) (request : Request) (mode : ReadMode) :
      Leads session (session.read id request mode).session
  | draftWindow {session next : Session} {id : DatabaseId} {window : Window} :
      session.draftWindow id window = .ok next → Leads session next
  | draftTrack {session next : Session} {id : DatabaseId} {track : TrackId} :
      session.draftTrack id track = .ok next → Leads session next
  | readDraft (session : Session) (id : DatabaseId) (mode : ReadMode) :
      Leads session (session.readDraft id mode).session
  | allocate (session : Session) (listens : Bool) :
      Leads session (session.allocate listens).2
  | free {session next : Session} {id : FutureId} :
      session.free id = .ok next → Leads session next
  | interrupt (session : Session) (id : FutureId) :
      Leads session (session.interrupt id).2
  | wait (session : Session) (id : FutureId) (seconds : Option Nat) :
      Leads session (session.wait id seconds).session
  | scheduleMetadata {session next : Session} {database : DatabaseId} {future : FutureId} :
      session.scheduleMetadata database future = .ok next → Leads session next
  | scheduleRead {session next : Session} {database : DatabaseId} {request : Request}
      {future : FutureId} :
      session.scheduleRead database request future = .ok next → Leads session next
  | scheduleDetail {session next : Session} {database : DatabaseId} {kind : DetailKind}
      {event : EventId} {future : FutureId} :
      session.scheduleDetail database kind event future = .ok next → Leads session next
  | turn (session : Session) (id : FutureId) :
      Leads session (session.turn id)
  | evictAt {session next : Session} {id : TraceId} {start : Timestamp} {count : Nat} :
      session.evictAt id start = .ok (count, next) → Leads session next
  | evictWindow {session next : Session} {id : TraceId} {window : Window} {count : Nat} :
      session.evictWindow id window = .ok (count, next) → Leads session next
  | evictAll {session next : Session} {id : TraceId} {count : Nat} :
      session.evictAll id = .ok (count, next) → Leads session next
  | evictDetail {session next : Session} {id : TraceId} {kind : DetailKind} {event : EventId}
      {found : Bool} :
      session.evictDetail id kind event = .ok (found, next) → Leads session next
  | evictDetails {session next : Session} {id : TraceId} {kind : DetailKind} {count : Nat} :
      session.evictDetails id kind = .ok (count, next) → Leads session next

/-- Steps lead from the empty session to this one. -/
inductive Reachable (config : Config) : Session → Prop where
  | empty : Reachable config (.empty config)
  | step {session next : Session} :
      Reachable config session → Leads session next → Reachable config next

namespace Numbered

variable {session next : Session}

theorem putTrace
    (hnumbered : session.Numbered) (trace : Trace) :
    (session.putTrace trace).Numbered :=
  ⟨hnumbered.traces.modify fun _ => rfl, hnumbered.futures⟩

theorem putFuture
    (hnumbered : session.Numbered) (future : Future Job) :
    (session.putFuture future).Numbered :=
  ⟨hnumbered.traces, hnumbered.futures.modify fun _ => rfl⟩

theorem changeDatabase
    (hnumbered : session.Numbered) (id : DatabaseId) (change : Attached → Attached) :
    (session.changeDatabase id change).Numbered :=
  ⟨hnumbered.traces, hnumbered.futures⟩

theorem deleteTrace
    {id : TraceId}
    (hnumbered : session.Numbered)
    (hdelete : session.deleteTrace id = .ok next) :
    next.Numbered := by
  obtain ⟨trace, htrace, rfl⟩ := exists_of_deleteTrace hdelete
  have hid := hnumbered.traces id.index _ (trace_eq_ok_iff.1 htrace)
  exact ⟨hnumbered.traces.modify fun _ => hid, hnumbered.futures⟩

theorem bind
    {database : DatabaseId} {id : TraceId}
    (hnumbered : session.Numbered)
    (hbind : session.bind database id = .ok next) :
    next.Numbered := by
  obtain ⟨_, _, bound, -, -, -, -, rfl⟩ := exists_of_bind hbind
  exact (hnumbered.putTrace bound).changeDatabase _ _

theorem reading
    {α : Type} {id : DatabaseId} {text : α → String} {read : Source → Trace → Reading α}
    (hnumbered : session.Numbered) :
    (session.reading id text read).session.Numbered := by
  rcases session.reading_cases id text read with hnext | ⟨_, _, -, -, hnext⟩
  · rwa [hnext]
  · rw [hnext]
    exact hnumbered.putTrace _

theorem readDraft
    {id : DatabaseId} {mode : ReadMode}
    (hnumbered : session.Numbered) :
    (session.readDraft id mode).session.Numbered := by
  rcases session.readDraft_cases id mode with hnext | hnext | ⟨request, hnext⟩
  · rwa [hnext]
  · rw [hnext]
    exact hnumbered.changeDatabase _ _
  · rw [hnext]
    exact (hnumbered.changeDatabase _ _).reading

theorem schedule
    {database : DatabaseId} {id : FutureId} {job : Source → TraceId → Job}
    (hnumbered : session.Numbered)
    (hschedule : session.schedule database id job = .ok next) :
    next.Numbered := by
  obtain ⟨_, _, _, after, -, -, -, -, rfl⟩ := exists_of_schedule hschedule
  exact hnumbered.putFuture after

theorem turn
    (hnumbered : session.Numbered) (id : FutureId) :
    (session.turn id).Numbered := by
  rcases session.turn_cases id with hnext | ⟨_, _, _, _, -, -, -, -, hnext⟩
  · rwa [hnext]
  · rw [hnext]
    exact (hnumbered.putTrace _).putFuture _

theorem evicting
    {α : Type} {id : TraceId} {count : Trace → α} {change : Trace → Trace} {told : α}
    (hnumbered : session.Numbered)
    (hevict : session.evicting id count change = .ok (told, next)) :
    next.Numbered := by
  obtain ⟨trace, -, rfl⟩ := exists_of_evicting hevict
  exact hnumbered.putTrace (change trace)

/-- A step keeps every trace and every future under its own number. -/
theorem step
    (hnumbered : session.Numbered)
    (hstep : Leads session next) :
    next.Numbered := by
  cases hstep with
  | attach source => exact ⟨hnumbered.traces, hnumbered.futures⟩
  | close hclose =>
      rw [eq_of_close hclose]
      exact ⟨hnumbered.traces, hnumbered.futures⟩
  | createTrace => exact ⟨hnumbered.traces.add fun _ => rfl, hnumbered.futures⟩
  | deleteTrace hdelete => exact hnumbered.deleteTrace hdelete
  | bind hbind => exact hnumbered.bind hbind
  | readMetadata id =>
      unfold Session.readMetadata
      exact hnumbered.reading
  | read id request mode => exact hnumbered.reading
  | draftWindow hdraft =>
      rw [eq_of_draftWindow hdraft]
      exact hnumbered.changeDatabase _ _
  | draftTrack hdraft =>
      rw [eq_of_draftTrack hdraft]
      exact hnumbered.changeDatabase _ _
  | readDraft id mode => exact hnumbered.readDraft
  | allocate listens => exact ⟨hnumbered.traces, hnumbered.futures.add fun _ => rfl⟩
  | free hfree =>
      rw [eq_of_free hfree]
      exact ⟨hnumbered.traces, hnumbered.futures.erase⟩
  | interrupt id =>
      rcases session.interrupt_cases id with hnext | ⟨_, -, hnext⟩
      · rwa [hnext]
      · rw [hnext]
        exact hnumbered.putFuture _
  | wait id seconds =>
      rcases session.wait_cases id seconds with hnext | ⟨_, -, hnext⟩
      · rwa [hnext]
      · rw [hnext]
        exact hnumbered.putFuture _
  | scheduleMetadata hschedule => exact hnumbered.schedule hschedule
  | scheduleRead hschedule => exact hnumbered.schedule hschedule
  | scheduleDetail hschedule => exact hnumbered.schedule hschedule
  | turn id => exact hnumbered.turn id
  | evictAt hevict => exact hnumbered.evicting hevict
  | evictWindow hevict => exact hnumbered.evicting hevict
  | evictAll hevict => exact hnumbered.evicting hevict
  | evictDetail hevict => exact hnumbered.evicting hevict
  | evictDetails hevict => exact hnumbered.evicting hevict

end Numbered

/-- A trace that is put back as it is changes nothing. -/
theorem putTrace_self
    {session : Session} {number : Nat} {held : HeldTrace}
    (hnumbered : session.Numbered)
    (hheld : session.traces.get? number = some held) :
    session.putTrace held.trace = session := by
  have hid : held.trace.id.index = number := by rw [hnumbered.traces _ _ hheld]
  rw [putTrace, hid, session.traces.modify_eq_self number]
  intro value hvalue
  cases hvalue.symm.trans hheld
  rfl

/-- In a reachable session every trace and every future stands under its own number. -/
theorem numbered_of_reachable
    {config : Config} {session : Session}
    (hreach : Reachable config session) :
    session.Numbered := by
  induction hreach with
  | empty =>
      constructor
      · intro number held hheld
        cases hheld
      · intro number future hfuture
        cases hfuture
  | step _ hstep ih => exact ih.step hstep

end Session

end TimelineStore
