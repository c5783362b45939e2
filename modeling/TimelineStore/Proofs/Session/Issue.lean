import TimelineStore.Proofs.Session.Occurrences

/-!
# Identifiers that a session hands out

Traces, databases and futures are each numbered in the order in which they are handed out,
and no call but those that hand one out moves the numbers on.  Numbers do not come again,
also when what had them is gone.  Callers are handed the numbers in words of 32 bits, which
tell 2³² numbers apart.

**Results.**
* `Session.next_upon`: what an occurrence hands out, and what number comes next.
* `Session.exists_numbers`: the numbers that a run hands out.
* `Session.nodup_numbers`, `Session.nodup_words`: no identifier is handed out twice.
-/

namespace TimelineStore

namespace Session

/-- The kinds of identifiers that a session hands out. -/
inductive Kind where
  | trace
  | database
  | future

namespace Kind

/-- The number of the next identifier of the kind. -/
def next (session : Session) : Kind → Nat
  | .trace => session.traces.next
  | .database => session.databases.next
  | .future => session.futures.next

/-- The number of an identifier of the kind. -/
def number? : Kind → Handle → Option Nat
  | .trace, .trace id => some id.index
  | .database, .database id => some id.index
  | .future, .future id => some id.index
  | _, _ => none

variable {session : Session} {kind : Kind}

@[simp] theorem next_putTrace
    (trace : Trace) :
    kind.next (session.putTrace trace) = kind.next session := by
  cases kind <;> rfl

@[simp] theorem next_putFuture
    (future : Future Job) :
    kind.next (session.putFuture future) = kind.next session := by
  cases kind <;> rfl

@[simp] theorem next_changeDatabase
    (id : DatabaseId) (change : Attached → Attached) :
    kind.next (session.changeDatabase id change) = kind.next session := by
  cases kind <;> rfl

@[simp] theorem next_reading
    {α : Type}
    (id : DatabaseId) (text : α → String) (read : Source → Trace → Reading α) :
    kind.next (session.reading id text read).session = kind.next session := by
  rcases session.reading_cases id text read with hnext | ⟨_, _, -, -, hnext⟩ <;> simp [hnext]

@[simp] theorem next_readDraft
    (id : DatabaseId) (mode : ReadMode) :
    kind.next (session.readDraft id mode).session = kind.next session := by
  rcases session.readDraft_cases id mode with hnext | hnext | ⟨request, hnext⟩ <;>
    simp [hnext, read]

theorem next_coded
    {outcome : Except Failure Session}
    (hok : ∀ next, outcome = .ok next → kind.next next = kind.next session) :
    kind.next (session.coded outcome).2 = kind.next session :=
  coded_elim (motive := fun next => kind.next next = kind.next session) rfl hok

@[simp] theorem next_evicting
    {α : Type}
    (id : TraceId) (count : Trace → α) (change : Trace → Trace) :
    kind.next (session.codedCount (session.evicting id count change)).2 = kind.next session := by
  refine codedCount_elim (motive := fun next => kind.next next = kind.next session) rfl ?_
  intro told next hnext
  obtain ⟨trace, -, rfl⟩ := exists_of_evicting hnext
  exact next_putTrace _

@[simp] theorem next_schedule
    (database : DatabaseId) (future : FutureId) (make : Source → TraceId → Job) :
    kind.next (session.coded (session.schedule database future make)).2 = kind.next session := by
  refine next_coded fun next hnext => ?_
  obtain ⟨_, _, _, after, -, -, -, -, rfl⟩ := exists_of_schedule hnext
  exact next_putFuture after

@[simp] theorem next_bind
    (database : DatabaseId) (id : TraceId) :
    kind.next (session.coded (session.bind database id)).2 = kind.next session := by
  refine next_coded fun next hnext => ?_
  obtain ⟨_, _, bound, -, -, -, -, rfl⟩ := exists_of_bind hnext
  rw [next_changeDatabase, next_putTrace]

@[simp] theorem next_turn
    (id : FutureId) :
    kind.next (session.turn id) = kind.next session := by
  rcases session.turn_cases id with hnext | ⟨_, _, _, _, -, -, -, -, hnext⟩ <;> simp [hnext]

end Kind

section Issue

variable {session : Session} {kind : Kind}

/-- The identifier that an occurrence hands out. -/
def issued? (session : Session) : Occurrence → Option Handle
  | .call (.attach source) => some (.database (session.attach source).1)
  | .call .createTrace => some (.trace session.createTrace.1)
  | .call (.allocate listens) => some (.future (session.allocate listens).1)
  | _ => none

/-- An identifier of the kind is handed out, and the number after its own comes next. -/
def Issues (session : Session) (kind : Kind) (occurrence : Occurrence) : Prop :=
  (session.issued? occurrence).bind kind.number? = some (kind.next session) ∧
    kind.next (session.upon occurrence) = kind.next session + 1

/-- No identifier of the kind is handed out, and the same number comes next as before. -/
def Withholds (session : Session) (kind : Kind) (occurrence : Occurrence) : Prop :=
  (session.issued? occurrence).bind kind.number? = none ∧
    kind.next (session.upon occurrence) = kind.next session

/-- **What an occurrence hands out**: the identifier with the next number, or none. -/
theorem next_upon
    (session : Session) (kind : Kind) (occurrence : Occurrence) :
    session.Issues kind occurrence ∨ session.Withholds kind occurrence := by
  cases occurrence with
  | turnsInto id source => exact .inr ⟨rfl, Kind.next_changeDatabase id _⟩
  | turnsIntoFor id source => exact .inr ⟨rfl, by cases kind <;> rfl⟩
  | call call =>
      cases call with
      | attach source =>
          cases kind with
          | database => exact .inl ⟨rfl, rfl⟩
          | _ => exact .inr ⟨rfl, rfl⟩
      | createTrace =>
          cases kind with
          | trace => exact .inl ⟨rfl, rfl⟩
          | _ => exact .inr ⟨rfl, rfl⟩
      | allocate listens =>
          cases kind with
          | future => exact .inl ⟨rfl, rfl⟩
          | _ => exact .inr ⟨rfl, rfl⟩
      | close id =>
          refine .inr ⟨rfl, Kind.next_coded fun next hnext => ?_⟩
          rw [eq_of_close hnext]
          cases kind <;> rfl
      | deleteTrace id =>
          refine .inr ⟨rfl, Kind.next_coded fun next hnext => ?_⟩
          obtain ⟨_, -, rfl⟩ := exists_of_deleteTrace hnext
          cases kind <;> rfl
      | draftWindow id window =>
          refine .inr ⟨rfl, Kind.next_coded fun next hnext => ?_⟩
          rw [eq_of_draftWindow hnext, Kind.next_changeDatabase]
      | draftTrack id track =>
          refine .inr ⟨rfl, Kind.next_coded fun next hnext => ?_⟩
          rw [eq_of_draftTrack hnext, Kind.next_changeDatabase]
      | free id =>
          refine .inr ⟨rfl, Kind.next_coded fun next hnext => ?_⟩
          rw [eq_of_free hnext]
          cases kind <;> rfl
      | interrupt id =>
          refine .inr ⟨rfl, ?_⟩
          rcases session.interrupt_cases id with hnext | ⟨_, -, hnext⟩ <;> simp [upon, after, hnext]
      | wait id seconds =>
          refine .inr ⟨rfl, ?_⟩
          rcases session.wait_cases id seconds with hnext | ⟨_, -, hnext⟩ <;>
            simp [upon, after, hnext]
      | bind database id => exact .inr ⟨rfl, Kind.next_bind database id⟩
      | readMetadata id => exact .inr ⟨rfl, Kind.next_reading id _ _⟩
      | read id request mode => exact .inr ⟨rfl, Kind.next_reading id _ _⟩
      | readDraft id mode => exact .inr ⟨rfl, Kind.next_readDraft id mode⟩
      | scheduleMetadata database future => exact .inr ⟨rfl, Kind.next_schedule database future _⟩
      | scheduleRead database request future =>
          exact .inr ⟨rfl, Kind.next_schedule database future _⟩
      | scheduleDetail database kind event future =>
          exact .inr ⟨rfl, Kind.next_schedule database future _⟩
      | turn id => exact .inr ⟨rfl, Kind.next_turn id⟩
      | evictAt id start => exact .inr ⟨rfl, Kind.next_evicting id _ _⟩
      | evictWindow id window => exact .inr ⟨rfl, Kind.next_evicting id _ _⟩
      | evictAll id => exact .inr ⟨rfl, Kind.next_evicting id _ _⟩
      | evictDetail id kind event => exact .inr ⟨rfl, Kind.next_evicting id _ _⟩
      | evictDetails id kind => exact .inr ⟨rfl, Kind.next_evicting id _ _⟩

/-- The identifiers that a run hands out, in order. -/
def issuedOver : Session → List Occurrence → List Handle
  | _, [] => []
  | session, occurrence :: run =>
    (session.issued? occurrence).toList ++ issuedOver (session.upon occurrence) run

/-- The numbers of the identifiers of one kind that a run hands out, in order. -/
def numbers (session : Session) (kind : Kind) (run : List Occurrence) : List Nat :=
  (session.issuedOver run).filterMap kind.number?

theorem numbers_cons
    (session : Session) (kind : Kind) (occurrence : Occurrence) (run : List Occurrence) :
    session.numbers kind (occurrence :: run) =
      ((session.issued? occurrence).bind kind.number?).toList ++
        (session.upon occurrence).numbers kind run := by
  rw [numbers, issuedOver, List.filterMap_append]
  congr 1
  cases session.issued? occurrence with
  | none => rfl
  | some handle => cases hnumber : kind.number? handle <;> simp [hnumber]

/-- **A run hands out numbers in order**, from the one that comes next. -/
theorem exists_numbers
    (session : Session) (kind : Kind) (run : List Occurrence) :
    ∃ count, session.numbers kind run = List.range' (kind.next session) count ∧
      kind.next (session.uponAll run) = kind.next session + count := by
  induction run generalizing session with
  | nil => exact ⟨0, rfl, rfl⟩
  | cons occurrence run ih =>
      obtain ⟨count, hrest, hlast⟩ := ih (session.upon occurrence)
      rw [numbers_cons, hrest]
      rcases session.next_upon kind occurrence with ⟨hissued, hnext⟩ | ⟨hnone, hnext⟩
      · refine ⟨count + 1, ?_, ?_⟩
        · rw [hissued, hnext, List.range'_succ]
          rfl
        · rw [uponAll_cons, hlast, hnext, Nat.add_assoc, Nat.add_comm 1]
      · refine ⟨count, ?_, ?_⟩
        · rw [hnone, hnext]
          rfl
        · rw [uponAll_cons, hlast, hnext]

/-- No number is handed out twice to identifiers of one kind. -/
theorem nodup_numbers
    (session : Session) (kind : Kind) (run : List Occurrence) :
    (session.numbers kind run).Nodup := by
  obtain ⟨count, hnumbers, -⟩ := session.exists_numbers kind run
  rw [hnumbers]
  exact List.nodup_range'

/-- Nor are the words in which they are handed out equal, if there are fewer than 2³². -/
theorem nodup_words
    (config : Config) (kind : Kind) (run : List Occurrence)
    (hfew : ((empty config).numbers kind run).length < 2 ^ 32) :
    (((empty config).numbers kind run).map UInt32.ofNat).Nodup := by
  obtain ⟨count, hnumbers, -⟩ := (empty config).exists_numbers kind run
  have hnext : kind.next (empty config) = 0 := by cases kind <;> rfl
  rw [hnumbers, hnext] at hfew ⊢
  rw [List.length_range'] at hfew
  have hfits {number : Nat} (hnumber : number ∈ List.range' 0 count) :
      (UInt32.ofNat number).toNat = number := by
    obtain ⟨position, hposition, rfl⟩ := List.mem_range'.1 hnumber
    exact UInt32.toNat_ofNat_of_lt' (by change _ < 2 ^ 32; omega)
  refine List.Nodup.map_on (fun first hfirst second hsecond hsame => ?_) List.nodup_range'
  rw [← hfits hfirst, ← hfits hsecond, hsame]

end Issue

end Session

end TimelineStore
