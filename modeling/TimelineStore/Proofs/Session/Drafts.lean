import TimelineStore.Client
import TimelineStore.Proofs.Request
import TimelineStore.Proofs.Session.ReadPaths
import TimelineStore.Proofs.Session.Runs

/-!
# Requests that are drafted

A request can be drafted for a database step by step, while anything else goes on in the
session.  What a draft comes to is decided by the calls alone: the last window that was set and
the tracks that were added, since the draft was last read.  Reading it is then the same as
reading the request that these make.

**Results.**
* `Session.draft_after`: what a call does to the draft of a database.
* `Session.exists_drafted`: what the draft of a database is after any run of calls.
* `Session.drafted_read`: a draft reads as the request that its calls make, and is empty then.
-/

namespace TimelineStore

namespace Session

namespace Call

/-- The window that the call sets for the draft of a database. -/
def window? (id : DatabaseId) : Call → Option Window
  | .draftWindow other window => if other = id then some window else none
  | _ => none

/-- The track that the call adds to the draft of a database. -/
def track? (id : DatabaseId) : Call → Option TrackId
  | .draftTrack other track => if other = id then some track else none
  | _ => none

/-- The call reads the draft of a database. -/
def reads (id : DatabaseId) : Call → Bool
  | .readDraft other _ => other = id
  | _ => false

/-- The call has nothing to do with the draft of a database. -/
def Ignores (id : DatabaseId) (call : Call) : Prop :=
  call.window? id = none ∧ call.track? id = none ∧ call.reads id = false

/-- The draft of a database after the call. -/
def redraft (id : DatabaseId) (draft : Request.Draft) (call : Call) : Request.Draft :=
  if call.reads id then .empty
  else ⟨(call.window? id).or draft.window, draft.tracks ++ (call.track? id).toList⟩

end Call

/-- What is drafted for a database by calls: the last window and all tracks, since its draft was
last read. -/
def drafted (id : DatabaseId) (calls : List Call) : Request.Draft :=
  let since := calls.rtakeWhile fun call => !call.reads id
  ⟨(since.filterMap (Call.window? id)).getLast?, since.filterMap (Call.track? id)⟩

section Drafts

variable {id : DatabaseId}

theorem drafted_concat
    (calls : List Call) (call : Call) :
    drafted id (calls ++ [call]) = call.redraft id (drafted id calls) := by
  cases hreads : call.reads id with
  | true => simp [drafted, Call.redraft, hreads, Request.Draft.empty]
  | false =>
      cases hwindow : call.window? id <;> cases htrack : call.track? id <;>
        simp [drafted, Call.redraft, hreads, hwindow, htrack]

theorem Call.redraft_of_ignores
    {call : Call}
    (hignores : call.Ignores id) (draft : Request.Draft) :
    call.redraft id draft = draft := by
  obtain ⟨hwindow, htrack, hreads⟩ := hignores
  simp [redraft, hwindow, htrack, hreads]

end Drafts

section Databases

variable {session next : Session} {id other : DatabaseId} {after : Attached}

theorem databases_coded
    {outcome : Except Failure Session}
    (hkeeps : ∀ next, outcome = .ok next → next.databases = session.databases) :
    (session.coded outcome).2.databases = session.databases := by
  cases outcome with
  | error failure => rfl
  | ok next => exact hkeeps next rfl

theorem databases_codedCount
    {α : Type} {outcome : Except Failure (α × Session)}
    (hkeeps : ∀ told next, outcome = .ok (told, next) → next.databases = session.databases) :
    (session.codedCount outcome).2.databases = session.databases := by
  cases outcome with
  | error failure => rfl
  | ok told => exact hkeeps told.1 told.2 rfl

theorem databases_schedule
    {database : DatabaseId} {future : FutureId} {make : Source → TraceId → Job}
    (hschedule : session.schedule database future make = .ok next) :
    next.databases = session.databases := by
  obtain ⟨_, _, _, _, -, -, -, -, rfl⟩ := exists_of_schedule hschedule
  rfl

theorem databases_evicting
    {α : Type} {id : TraceId} {count : Trace → α} {change : Trace → Trace} {told : α}
    (hevict : session.evicting id count change = .ok (told, next)) :
    next.databases = session.databases := by
  obtain ⟨_, -, rfl⟩ := exists_of_evicting hevict
  rfl

/-- The call is none of those that are about databases. -/
def Call.SparesDatabases : Call → Prop
  | .attach _ | .close _ | .bind _ _ | .draftWindow _ _ | .draftTrack _ _ | .readDraft _ _ => False
  | _ => True

theorem Call.SparesDatabases.ignores
    {call : Call}
    (hspares : call.SparesDatabases) :
    call.Ignores id := by
  cases call <;> first | exact hspares.elim | exact ⟨rfl, rfl, rfl⟩

theorem databases_after
    {call : Call}
    (hspares : call.SparesDatabases) :
    (session.after call).databases = session.databases := by
  cases call with
  | createTrace => rfl
  | deleteTrace id =>
      refine databases_coded fun next hdelete => ?_
      obtain ⟨_, -, rfl⟩ := exists_of_deleteTrace hdelete
      rfl
  | readMetadata id => exact databases_reading
  | read id request mode => exact databases_reading
  | allocate listens => rfl
  | free id => exact databases_coded fun next hfree => by rw [eq_of_free hfree]
  | interrupt future =>
      rcases session.interrupt_cases future with hnext | ⟨_, -, hnext⟩ <;> simp [after, hnext]
  | wait future seconds =>
      rcases session.wait_cases future seconds with hnext | ⟨_, -, hnext⟩ <;> simp [after, hnext]
  | scheduleMetadata database future => exact databases_coded fun _ => databases_schedule
  | scheduleRead database request future => exact databases_coded fun _ => databases_schedule
  | scheduleDetail database kind event future =>
      exact databases_coded fun _ => databases_schedule
  | turn id => exact databases_turn id
  | evictAt id start => exact databases_codedCount fun _ _ => databases_evicting
  | evictWindow id window => exact databases_codedCount fun _ _ => databases_evicting
  | evictAll id => exact databases_codedCount fun _ _ => databases_evicting
  | evictDetail id kind event => exact databases_codedCount fun _ _ => databases_evicting
  | evictDetails id kind => exact databases_codedCount fun _ _ => databases_evicting
  | _ => exact hspares.elim

/-- A database after one of them was changed. -/
theorem exists_of_modify
    {change : Attached → Attached}
    (hnext : next.databases = session.databases.modify other.index change)
    (hafter : next.database id = .ok after) :
    ∃ before, session.database id = .ok before ∧
      after = if other = id then change before else before := by
  simp only [database_eq_ok_iff, hnext, Arena.get?_modify] at hafter ⊢
  split at hafter
  · rename_i hsame
    obtain ⟨before, hbefore, rfl⟩ := Option.map_eq_some_iff.1 hafter
    obtain rfl : id = other := congrArg DatabaseId.mk hsame
    exact ⟨before, hbefore, (if_pos rfl).symm⟩
  · rename_i hother
    refine ⟨after, hafter, (if_neg ?_).symm⟩
    rintro rfl
    exact hother rfl

theorem database_congr
    (hsame : next.databases = session.databases) (id : DatabaseId) :
    next.database id = session.database id := by
  rw [database, database, hsame]

/-- A database after a call about one of them, which is refused if that one is not there. -/
theorem exists_of_call
    {call : Call} {change : Attached → Attached}
    (hrefused : ∀ failure, session.database other = .error failure → session.after call = session)
    (hdone : ∀ held, session.database other = .ok held →
      (session.after call).databases = session.databases.modify other.index change)
    (hafter : (session.after call).database id = .ok after) :
    ∃ before, session.database id = .ok before ∧
      after = if other = id then change before else before := by
  cases hother : session.database other with
  | ok held => exact exists_of_modify (hdone held hother) hafter
  | error failure =>
      rw [hrefused failure hother] at hafter
      refine ⟨after, hafter, (if_neg ?_).symm⟩
      rintro rfl
      rw [hother] at hafter
      cases hafter

/-- A database after a call that drafts for one of them. -/
theorem exists_of_drafting
    {call : Call} {change : Attached → Attached}
    (hcall : session.after call = (session.coded (do
      let _ ← session.database other
      return session.changeDatabase other change)).2)
    (hafter : (session.after call).database id = .ok after) :
    ∃ before, session.database id = .ok before ∧
      after = if other = id then change before else before := by
  refine exists_of_call (fun failure hother => ?_) (fun held hheld => ?_) hafter
  · rw [hcall, hother]
    rfl
  · rw [hcall, hheld]
    rfl

/-- A draft that is read is cleared, whether or not it can be read. -/
theorem databases_readDraft
    {held : Attached}
    (mode : ReadMode)
    (hheld : session.database id = .ok held) :
    (session.readDraft id mode).session.databases =
      session.databases.modify id.index ({ · with draft := .empty }) := by
  simp only [readDraft, hheld]
  cases held.draft.finish with
  | error flaw => rfl
  | ok request => exact databases_reading

/-- **What a call does to a draft**: only setting its window, adding a track and reading it
change it, and it begins empty. -/
theorem draft_after
    {call : Call}
    (hafter : (session.after call).database id = .ok after) :
    (∃ source, call = .attach source ∧ id = (session.attach source).1 ∧
      after.draft = .empty) ∨
    ∃ before, session.database id = .ok before ∧ after.draft = call.redraft id before.draft := by
  by_cases hspares : call.SparesDatabases
  · refine .inr ⟨after, ?_, (Call.redraft_of_ignores hspares.ignores _).symm⟩
    rwa [database_congr (databases_after hspares)] at hafter
  cases call with
  | attach source =>
      simp only [Session.after, attach, database_eq_ok_iff, Arena.get?_add] at hafter ⊢
      split at hafter
      · rename_i hnew
        exact .inl ⟨source, rfl, congrArg DatabaseId.mk hnew,
          congrArg Attached.draft (Option.some.inj hafter).symm⟩
      · exact .inr ⟨after, hafter, (Call.redraft_of_ignores ⟨rfl, rfl, rfl⟩ _).symm⟩
  | close other =>
      refine .inr ⟨after, ?_, (Call.redraft_of_ignores ⟨rfl, rfl, rfl⟩ _).symm⟩
      cases hclose : session.close other with
      | error failure => simpa [Session.after, coded, hclose] using hafter
      | ok next =>
          simp only [Session.after, coded, hclose, eq_of_close hclose, database_eq_ok_iff,
            Arena.get?_erase] at hafter ⊢
          split at hafter
          · cases hafter
          · exact hafter
  | bind other trace =>
      cases hbind : session.bind other trace with
      | error failure =>
          refine .inr ⟨after, ?_, (Call.redraft_of_ignores ⟨rfl, rfl, rfl⟩ _).symm⟩
          simpa [Session.after, coded, hbind] using hafter
      | ok next =>
          obtain ⟨_, _, bound, -, -, -, -, hnext⟩ := exists_of_bind hbind
          have hdatabases : (session.after (.bind other trace)).databases =
              session.databases.modify other.index ({ · with bound := some trace }) := by
            simp only [Session.after, coded, hbind, hnext]
            rfl
          obtain ⟨before, hbefore, rfl⟩ := exists_of_modify hdatabases hafter
          refine .inr ⟨before, hbefore, ?_⟩
          rw [Call.redraft_of_ignores ⟨rfl, rfl, rfl⟩]
          split <;> rfl
  | draftWindow other window =>
      obtain ⟨before, hbefore, rfl⟩ := exists_of_drafting rfl hafter
      refine .inr ⟨before, hbefore, ?_⟩
      by_cases hid : other = id <;>
        simp [Call.redraft, Call.window?, Call.track?, Call.reads, hid, Request.Draft.«over»]
  | draftTrack other track =>
      obtain ⟨before, hbefore, rfl⟩ := exists_of_drafting rfl hafter
      refine .inr ⟨before, hbefore, ?_⟩
      by_cases hid : other = id <;>
        simp [Call.redraft, Call.window?, Call.track?, Call.reads, hid, Request.Draft.add]
  | readDraft other mode =>
      have hrefused (failure : Failure) (hother : session.database other = .error failure) :
          session.after (.readDraft other mode) = session := by
        simp only [Session.after, readDraft, hother, refused]
      obtain ⟨before, hbefore, rfl⟩ := exists_of_call hrefused
        (fun held => databases_readDraft mode) hafter
      refine .inr ⟨before, hbefore, ?_⟩
      by_cases hid : other = id <;>
        simp [Call.redraft, Call.window?, Call.track?, Call.reads, hid]
  | _ => exact absurd trivial hspares

/-- **What the draft of a database is after a run of calls**: what the calls drafted for it
since it was attached. -/
theorem exists_drafted
    {config : Config} {calls : List Call}
    (hopen : ((empty config).afterAll calls).database id = .ok after) :
    ∃ earlier source since, calls = earlier ++ .attach source :: since ∧
      id = (((empty config).afterAll earlier).attach source).1 ∧
      after.draft = drafted id since := by
  induction calls using List.reverseRecOn generalizing after with
  | nil => exact nomatch hopen
  | append_singleton calls call ih =>
      rw [afterAll_concat] at hopen
      rcases draft_after hopen with ⟨source, rfl, hid, hempty⟩ | ⟨before, hbefore, hdraft⟩
      · exact ⟨calls, source, [], rfl, hid, hempty⟩
      · obtain ⟨earlier, source, since, rfl, hid, hdrafted⟩ := ih hbefore
        refine ⟨earlier, source, since ++ [call], by simp, hid, ?_⟩
        rw [drafted_concat, hdraft, hdrafted]

/-- The draft of a database that is open changes in no call that ignores it. -/
theorem draft_of_ignores
    {call : Call} {attached : Attached}
    (hopen : session.database id = .ok attached)
    (hignores : call.Ignores id)
    (hafter : (session.after call).database id = .ok after) :
    after.draft = attached.draft := by
  rcases draft_after hafter with ⟨source, -, hid, -⟩ | ⟨before, hbefore, hdraft⟩
  · have hissued := Arena.lt_next_of_get? (database_eq_ok_iff.1 hopen)
    rw [hid] at hissued
    exact absurd hissued (Nat.lt_irrefl _)
  · obtain rfl := Except.ok.inj (hopen.symm.trans hbefore)
    exact hdraft.trans (Call.redraft_of_ignores hignores _)

end Databases

section Reads

variable {session : Session} {id : DatabaseId} {attached : Attached}

/-- A draft that has a window that covers some time, and a track, makes a request. -/
theorem exists_request
    {draft : Request.Draft} {window : Window}
    (hwindow : draft.window = some window)
    (hcovers : window.isEmpty = false)
    (hselects : draft.tracks ≠ []) :
    ∃ request : Request, draft.finish = .ok request ∧ request.window = window ∧
      request.tracks = firstOccurrences draft.tracks := by
  obtain ⟨request, hmake⟩ := Request.exists_make hcovers hselects
  refine ⟨request, ?_, Request.parts_of_make hmake⟩
  rw [Request.Draft.finish, hwindow]
  exact hmake

/-- A draft without a window, with one that covers no time, or without a track makes none. -/
theorem exists_flaw
    {draft : Request.Draft}
    (hflawed : ∀ window, draft.window = some window → window.isEmpty = false →
      draft.tracks = []) :
    ∃ flaw, draft.finish = .error flaw := by
  unfold Request.Draft.finish
  cases hwindow : draft.window with
  | none => exact ⟨_, rfl⟩
  | some window =>
      cases hcovers : window.isEmpty with
      | true => exact ⟨_, by simp [Request.make, hcovers]; rfl⟩
      | false =>
          have hnone := hflawed window hwindow hcovers
          exact ⟨_, by simp [Request.make, hcovers, hnone, firstOccurrences]; rfl⟩

theorem failure_eq_invalidParameter
    (flaw : Request.Flaw) :
    ∃ message, flaw.failure = .invalidParameter message := by
  cases flaw <;> exact ⟨_, rfl⟩

/-- A read has nothing to do with drafts. -/
theorem read_cleared
    (request : Request) (mode : ReadMode)
    (hopen : session.database id = .ok attached) :
    (session.changeDatabase id ({ · with draft := .empty })).read id request mode =
      let plain := session.read id request mode
      ⟨plain.events, plain.result,
        plain.session.changeDatabase id ({ · with draft := .empty })⟩ := by
  have hcleared : (session.changeDatabase id ({ · with draft := .empty })).database id =
      .ok { attached with draft := .empty } := by
    rw [database_eq_ok_iff] at hopen ⊢
    simp [changeDatabase, Arena.get?_modify, hopen]
  have hserved : (session.changeDatabase id ({ · with draft := .empty })).servedTrace id
      { attached with draft := .empty } = session.servedTrace id attached := rfl
  simp only [read, reading, hopen, hcleared, hserved]
  cases session.servedTrace id attached <;> rfl

/-- **A draft reads as the request that its calls make.**  After any run of calls, the draft of
a database that is open is what was drafted for it since it was attached and last read: the
last window, and all tracks.  If it lacks a window that covers some time, or a track, reading
it is refused and changes nothing but the draft.  Otherwise reading it is reading the request
of the window and of the distinct tracks.  Either way the draft is empty then, and no other
call changes it. -/
theorem drafted_read
    {config : Config} {calls : List Call} {id : DatabaseId} {attached : Attached}
    (mode : ReadMode)
    (hopen : ((empty config).afterAll calls).database id = .ok attached) :
    let now := (empty config).afterAll calls
    let told := now.readDraft id mode
    ∃ earlier source since, calls = earlier ++ .attach source :: since ∧
      id = (((empty config).afterAll earlier).attach source).1 ∧
      let draft := drafted id since
      attached.draft = draft ∧
      ((∀ window, draft.window = some window → window.isEmpty = false → draft.tracks = []) →
        (∃ message, told.result = .error (.invalidParameter message)) ∧ told.events = [] ∧
          told.session = now.changeDatabase id ({ · with draft := .empty })) ∧
      (∀ window, draft.window = some window → window.isEmpty = false → draft.tracks ≠ [] →
        ∃ request : Request, request.window = window ∧
          request.tracks = firstOccurrences draft.tracks ∧
          let plain := Client.read now id request mode
          told.events = plain.events ∧ told.result = (now.read id request mode).result ∧
            Client.checked (Client.readName mode) told.result = plain.result ∧
            told.session = plain.session.changeDatabase id ({ · with draft := .empty })) ∧
      told.session.database id = .ok { attached with draft := .empty } ∧
      ∀ call : Call, call.Ignores id → ∀ later,
        (now.after call).database id = .ok later → later.draft = draft := by
  intro now told
  obtain ⟨earlier, source, since, hcalls, hid, hdraft⟩ := exists_drafted hopen
  refine ⟨earlier, source, since, hcalls, hid, hdraft, fun hflawed => ?_,
    fun window hwindow hcovers hselects => ?_, ?_, fun call hignores later hlater => ?_⟩
  · obtain ⟨flaw, hflaw⟩ := exists_flaw hflawed
    have htold : told = (now.changeDatabase id ({ · with draft := .empty })).refused
        flaw.failure := by
      simp only [told, readDraft, hopen, hdraft, hflaw, now]
    obtain ⟨message, hmessage⟩ := failure_eq_invalidParameter flaw
    rw [htold]
    exact ⟨⟨message, congrArg Except.error hmessage⟩, rfl, rfl⟩
  · obtain ⟨request, hfinish, hover, htracks⟩ := exists_request hwindow hcovers hselects
    have htold : told =
        (now.changeDatabase id ({ · with draft := .empty })).read id request mode := by
      simp only [told, readDraft, hopen, hdraft, hfinish, now]
    rw [read_cleared request mode hopen] at htold
    refine ⟨request, hover, htracks, ?_⟩
    rw [htold]
    exact ⟨rfl, rfl, rfl, rfl⟩
  · rw [database_eq_ok_iff] at hopen ⊢
    rw [databases_readDraft mode (database_eq_ok_iff.2 hopen), Arena.get?_modify, if_pos rfl,
      hopen]
    rfl
  · exact (draft_of_ignores hopen hignores hlater).trans hdraft

end Reads

section Example

/-- Two databases of the capture are drafted for in turn, the first one with a track twice. -/
def draftBoth : List Call :=
  [.attach capture.toSource, .attach capture.toSource, .createTrace, .bind ⟨0⟩ ⟨0⟩,
    .readMetadata ⟨0⟩, .draftWindow ⟨0⟩ ⟨0, 0⟩, .draftTrack ⟨0⟩ ⟨1⟩, .draftTrack ⟨1⟩ ⟨7⟩,
    .draftWindow ⟨0⟩ ⟨12, 20⟩, .draftTrack ⟨0⟩ ⟨0⟩, .draftWindow ⟨1⟩ ⟨3, 4⟩,
    .draftTrack ⟨0⟩ ⟨1⟩]

/-- The first draft is read as the request of both tracks, and cannot be read again. -/
theorem drafted_read_both :
    let now := (empty .standard).afterAll draftBoth
    (now.readDraft ⟨0⟩ .batch).result = (now.read ⟨0⟩ both .batch).result ∧
      ∃ message, ((now.after (.readDraft ⟨0⟩ .batch)).readDraft ⟨0⟩ .each).result =
        .error (.invalidParameter message) := by
  intro now
  have hopen : now.database ⟨0⟩ =
      .ok ⟨capture.toSource, ⟨some ⟨12, 20⟩, [⟨1⟩, ⟨0⟩, ⟨1⟩]⟩, some ⟨0⟩⟩ := rfl
  obtain ⟨-, -, since, -, -, hdraft, -, hread, hcleared, -⟩ := drafted_read .batch hopen
  obtain ⟨⟨window, tracks, covers, selects, distinct⟩, rfl, htracks, -, hresult, -⟩ :=
    hread ⟨12, 20⟩ (by rw [← hdraft]) rfl (by rw [← hdraft]; decide)
  rw [← hdraft] at htracks
  obtain rfl : tracks = [⟨1⟩, ⟨0⟩] := htracks
  have hagain : ((empty .standard).afterAll (draftBoth ++ [.readDraft ⟨0⟩ .batch])).database
      ⟨0⟩ = .ok ⟨capture.toSource, .empty, some ⟨0⟩⟩ := by
    rw [afterAll_concat]
    exact hcleared
  obtain ⟨-, -, later, -, -, hempty, hrefused, -⟩ := drafted_read .each hagain
  obtain ⟨hmessage, -⟩ := hrefused (by rw [← hempty]; simp [Request.Draft.empty])
  rw [afterAll_concat] at hmessage
  exact ⟨hresult, hmessage⟩

end Example

end Session

end TimelineStore
