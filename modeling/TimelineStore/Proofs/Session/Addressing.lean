import Mathlib.Data.List.Induction
import TimelineStore.Proofs.Event
import TimelineStore.Proofs.Session.Origins

/-!
# Detail addressed by words

On the raw surface an event is named by the word that it is packed in.  Detail is read and given
up by the number of a kind and such a word, and a trace has the handle of resident detail under
the key of its kind at the word.  Each of these calls unpacks the word for itself.

A run of the surface is a list of steps.  A read takes effect when its worker makes its turn, an
eviction at once.

**Results.**
* `Session.awaits_iff`: when a worker has a read of detail, told by the steps of a run.
* `Session.addressed?_of_not_concerns`, `Session.addressed?_of_forfeits`,
  `Session.addressed?_of_awaits`: what a step does to the handle at a word.
* `Session.details_addressed_apart`: the handle at a word after a run.
-/

namespace TimelineStore

namespace DetailKind

/-- The key under which a trace has the handles of detail of the kind. -/
def key : DetailKind → TraceKey
  | .flow => .flowOf
  | .stack => .stackOf
  | .attributes => .attributesOf

/-- The number of that key. -/
def keyNumber (kind : DetailKind) : Nat :=
  TraceKey.all.idxOf kind.key

end DetailKind

namespace Session

section Lookup

variable {session next : Session} {id : TraceId} {kind : DetailKind} {word : UInt64}

/-- The handle that a trace has of detail of a kind at a word. -/
def addressed? (session : Session) (id : TraceId) (kind : DetailKind) (word : UInt64) :
    Option Handle :=
  session.handleProperty? (.trace id) kind.keyNumber word

theorem addressed?_eq_some_iff
    {handle : Handle}
    (hnumbered : session.Numbered) :
    session.addressed? id kind word = some handle ↔
      ∃ event, event.pack = word ∧ session.Valid ⟨id, kind, event⟩ ∧
        handle = .detail ⟨id, kind, event⟩ := by
  have hkey : PropertyKey.ofNumber? .trace kind.keyNumber = some (.trace kind.key) := by
    cases kind <;> rfl
  have hfound (trace : Trace) : trace.property? kind.key word = trace.detailHandle? kind word := by
    cases kind <;> rfl
  have hraw : session.addressed? id kind word =
      ((session.trace id).toOption.bind (·.detailHandle? kind word)).bind
        PropertyValue.handle? := by
    simp [addressed?, handleProperty?, rawProperty?, entityOf?, hkey, property?, hfound]
  rw [hraw]
  constructor
  · intro hhandle
    obtain ⟨value, hvalue, hhandle⟩ := Option.bind_eq_some_iff.1 hhandle
    obtain ⟨trace, htrace, hvalue⟩ := Option.bind_eq_some_iff.1 hvalue
    obtain ⟨event, hevent, hvalue⟩ := Option.bind_eq_some_iff.1 hvalue
    obtain ⟨detail, hdetail, rfl⟩ := Option.map_eq_some_iff.1 hvalue
    cases hhandle
    have hheld := trace_eq_ok_iff.1 (Outcome.toOption_eq_some_iff.1 htrace)
    obtain rfl : trace.id = id := hnumbered.traces _ _ hheld
    exact ⟨event, EventId.unpack?_eq_some_iff.1 hevent,
      valid_iff.2 ⟨trace, hheld, Option.isSome_iff_exists.2 ⟨detail, hdetail⟩⟩, rfl⟩
  · rintro ⟨event, rfl, hvalid, rfl⟩
    obtain ⟨trace, hheld, hresident⟩ := valid_iff.1 hvalid
    obtain ⟨detail, hdetail⟩ := Option.isSome_iff_exists.1 hresident
    have hid : trace.id = id := hnumbered.traces _ _ hheld
    rw [trace_eq_ok_iff.2 hheld]
    simp [Except.toOption, Trace.detailHandle?, EventId.unpack?_pack, hdetail, hid,
      PropertyValue.handle?]

/-- A handle is found at a word just if it is valid. -/
theorem isSome_addressed?_iff
    (hnumbered : session.Numbered) :
    (session.addressed? id kind word).isSome = true ↔
      ∃ event, event.pack = word ∧ session.Valid ⟨id, kind, event⟩ := by
  rw [Option.isSome_iff_exists]
  simp only [addressed?_eq_some_iff hnumbered]
  constructor
  · rintro ⟨_, event, hword, hvalid, -⟩
    exact ⟨event, hword, hvalid⟩
  · rintro ⟨event, hword, hvalid⟩
    exact ⟨_, event, hword, hvalid, rfl⟩

/-- Sessions in which the same handles are valid have the same handle at a word. -/
theorem addressed?_congr
    (hnumbered : session.Numbered)
    (hnext : next.Numbered)
    (hsame : ∀ event : EventId, event.pack = word →
      (next.Valid ⟨id, kind, event⟩ ↔ session.Valid ⟨id, kind, event⟩)) :
    next.addressed? id kind word = session.addressed? id kind word := by
  apply Option.ext
  intro handle
  rw [addressed?_eq_some_iff hnumbered, addressed?_eq_some_iff hnext]
  constructor
  · rintro ⟨event, hword, hvalid, hhandle⟩
    exact ⟨event, hword, (hsame event hword).1 hvalid, hhandle⟩
  · rintro ⟨event, hword, hvalid, hhandle⟩
    exact ⟨event, hword, (hsame event hword).2 hvalid, hhandle⟩

end Lookup

section Steps

/-- The occurrence is one that a step of its own stands for: a call about detail, which the raw
surface makes by numbers, a turn of a worker or the deletion of a trace. -/
def Occurrence.StandsApart : Occurrence → Prop
  | .call (.scheduleDetail _ _ _ _) => True
  | .call (.evictDetail _ _ _) => True
  | .call (.evictDetails _ _) => True
  | .call (.turn _) => True
  | .call (.deleteTrace _) => True
  | _ => False

/-- A step of a run of the raw surface. -/
inductive RawStep where
  | readDetail (database : DatabaseId) (number : Nat) (word : UInt64) (worker : FutureId)
  | evictDetail (id : TraceId) (number : Nat) (word : UInt64)
  | evictDetails (id : TraceId) (number : Nat)
  | turn (worker : FutureId)
  | deleteTrace (id : TraceId)
  | other (occurrence : Occurrence) (plain : ¬ occurrence.StandsApart)

/-- The session after a step. -/
def rawUpon (session : Session) : RawStep → Session
  | .readDetail database number word worker =>
    (session.scheduleDetailRaw database number word worker).2
  | .evictDetail id number word => (session.evictDetailRaw id number word).2
  | .evictDetails id number => (session.evictDetailsRaw id number).2
  | .turn worker => session.turn worker
  | .deleteTrace id => (session.coded (session.deleteTrace id)).2
  | .other occurrence _ => session.upon occurrence

/-- What a step comes to, if its numbers stand for something. -/
def RawStep.occurrence? : RawStep → Option Occurrence
  | .readDetail database number word worker =>
    (DetailKind.ofNumber? number).bind fun kind => (EventId.unpack? word).map fun event =>
      .call (.scheduleDetail database kind event worker)
  | .evictDetail id number word =>
    (DetailKind.ofNumber? number).bind fun kind => (EventId.unpack? word).map fun event =>
      .call (.evictDetail id kind event)
  | .evictDetails id number =>
    (DetailKind.ofNumber? number).map fun kind => .call (.evictDetails id kind)
  | .turn worker => some (.call (.turn worker))
  | .deleteTrace id => some (.call (.deleteTrace id))
  | .other occurrence _ => some occurrence

variable
  {session : Session} {step : RawStep} {id : TraceId} {kind : DetailKind} {event : EventId}
  {worker : FutureId}

/-- **A step is what it comes to**, and one whose numbers stand for nothing does nothing. -/
theorem rawUpon_eq
    (session : Session) (step : RawStep) :
    session.rawUpon step = step.occurrence?.elim session session.upon := by
  cases step with
  | readDetail database number word worker =>
      simp only [rawUpon, scheduleDetailRaw, kindOfNumber, eventOfWord, RawStep.occurrence?]
      cases DetailKind.ofNumber? number <;> cases EventId.unpack? word <;> rfl
  | evictDetail id number word =>
      simp only [rawUpon, evictDetailRaw, kindOfNumber, eventOfWord, RawStep.occurrence?]
      cases DetailKind.ofNumber? number <;> cases EventId.unpack? word <;> rfl
  | evictDetails id number =>
      simp only [rawUpon, evictDetailsRaw, kindOfNumber, RawStep.occurrence?]
      cases DetailKind.ofNumber? number <;> rfl
  | _ => rfl

namespace RawStep

/-- The step that makes a call of those that stand apart. -/
def making? : Call → Option RawStep
  | .scheduleDetail database kind event worker =>
    some (.readDetail database kind.number event.pack worker)
  | .evictDetail id kind event => some (.evictDetail id kind.number event.pack)
  | .evictDetails id kind => some (.evictDetails id kind.number)
  | .turn worker => some (.turn worker)
  | .deleteTrace id => some (.deleteTrace id)
  | _ => none

/-- **Only one step comes to a call of those that stand apart.** -/
theorem occurrence?_eq_call_iff
    {call : Call} {made : RawStep}
    (hmade : making? call = some made) :
    step.occurrence? = some (.call call) ↔ step = made := by
  constructor
  · intro hcall
    cases step with
    | readDetail database number word worker =>
        obtain ⟨kind, hkind, hcall⟩ := Option.bind_eq_some_iff.1 hcall
        obtain ⟨event, hevent, hcall⟩ := Option.map_eq_some_iff.1 hcall
        cases hcall
        cases hmade
        rw [DetailKind.ofNumber?_eq_some_iff.1 hkind, EventId.unpack?_eq_some_iff.1 hevent]
    | evictDetail id number word =>
        obtain ⟨kind, hkind, hcall⟩ := Option.bind_eq_some_iff.1 hcall
        obtain ⟨event, hevent, hcall⟩ := Option.map_eq_some_iff.1 hcall
        cases hcall
        cases hmade
        rw [DetailKind.ofNumber?_eq_some_iff.1 hkind, EventId.unpack?_eq_some_iff.1 hevent]
    | evictDetails id number =>
        obtain ⟨kind, hkind, hcall⟩ := Option.map_eq_some_iff.1 hcall
        cases hcall
        cases hmade
        rw [DetailKind.ofNumber?_eq_some_iff.1 hkind]
    | turn worker =>
        cases hcall
        exact Option.some.inj hmade
    | deleteTrace id =>
        cases hcall
        exact Option.some.inj hmade
    | other occurrence plain =>
        cases hcall
        cases call <;> cases hmade <;> exact absurd trivial plain
  · rintro rfl
    cases call <;> cases hmade <;>
      simp [occurrence?, DetailKind.ofNumber?_eq_some_iff.2 rfl, EventId.unpack?_pack]

/-- The steps that forfeit detail. -/
theorem exists_forfeits_iff :
    (∃ call : Call, step.occurrence? = some (.call call) ∧ call.Forfeits ⟨id, kind, event⟩) ↔
      step = .evictDetail id kind.number event.pack ∨ step = .evictDetails id kind.number ∨
        step = .deleteTrace id := by
  constructor
  · rintro ⟨call, hcall, hforfeits⟩
    cases call with
    | evictDetail target found named =>
        obtain ⟨rfl, rfl, rfl⟩ := hforfeits
        exact .inl ((occurrence?_eq_call_iff rfl).1 hcall)
    | evictDetails target found =>
        obtain ⟨rfl, rfl⟩ := hforfeits
        exact .inr (.inl ((occurrence?_eq_call_iff rfl).1 hcall))
    | deleteTrace target =>
        obtain rfl : target = id := hforfeits
        exact .inr (.inr ((occurrence?_eq_call_iff rfl).1 hcall))
    | _ => exact hforfeits.elim
  · rintro (rfl | rfl | rfl)
    · exact ⟨.evictDetail id kind event, (occurrence?_eq_call_iff rfl).2 rfl, rfl, rfl, rfl⟩
    · exact ⟨.evictDetails id kind, (occurrence?_eq_call_iff rfl).2 rfl, rfl, rfl⟩
    · exact ⟨.deleteTrace id, (occurrence?_eq_call_iff rfl).2 rfl, rfl⟩

end RawStep

theorem exists_of_coded_eq_success
    {session : Session} {outcome : Except Failure Session}
    (hcode : (session.coded outcome).1 = .success) :
    ∃ next, outcome = .ok next := by
  cases outcome with
  | error failure => cases failure <;> cases hcode
  | ok next => exact ⟨next, rfl⟩

theorem number_of_kindOfNumber
    {number : Nat} {kind : DetailKind}
    (hkind : kindOfNumber number = .ok kind) :
    kind.number = number := by
  unfold kindOfNumber at hkind
  split at hkind
  · rename_i found hfound
    cases hkind
    exact (DetailKind.ofNumber?_eq_some_iff.1 hfound).symm
  · cases hkind

theorem pack_of_eventOfWord
    {word : UInt64} {event : EventId}
    (hevent : eventOfWord word = .ok event) :
    event.pack = word := by
  unfold eventOfWord at hevent
  split at hevent
  · rename_i found hfound
    cases hevent
    exact EventId.unpack?_eq_some_iff.1 hfound
  · cases hevent

/-- A read under the numbers of a kind and an event is one of them. -/
theorem scheduleDetailRaw_pack
    (session : Session) (database : DatabaseId) (kind : DetailKind) (event : EventId)
    (worker : FutureId) :
    session.scheduleDetailRaw database kind.number event.pack worker =
      session.coded (session.scheduleDetail database kind event worker) := by
  rw [scheduleDetailRaw, kindOfNumber, eventOfWord, DetailKind.ofNumber?_eq_some_iff.2 rfl,
    EventId.unpack?_pack]
  rfl

/-- A read can be scheduled only if its numbers stand for a kind and an event. -/
theorem exists_of_scheduleDetailRaw
    {database : DatabaseId} {number : Nat} {word : UInt64}
    (hasked : (session.scheduleDetailRaw database number word worker).1 = .success) :
    ∃ kind event next, kind.number = number ∧ event.pack = word ∧
      session.scheduleDetail database kind event worker = .ok next := by
  rw [scheduleDetailRaw] at hasked
  obtain ⟨next, hnext⟩ := exists_of_coded_eq_success hasked
  obtain ⟨kind, hkind, hnext⟩ := Outcome.bind_eq_ok_iff.1 hnext
  obtain ⟨event, hevent, hnext⟩ := Outcome.bind_eq_ok_iff.1 hnext
  exact ⟨kind, event, next, number_of_kindOfNumber hkind, pack_of_eventOfWord hevent, hnext⟩

/-- When a worker has a read of detail after a step. -/
theorem detail_rawUpon_iff
    (horderly : session.Orderly) :
    (∃ source, (session.rawUpon step).job? worker = some (.detail source id kind event)) ↔
      (step ≠ .turn worker ∧ ∃ source, session.job? worker = some (.detail source id kind event)) ∨
        ∃ database next, step = .readDetail database kind.number event.pack worker ∧
          session.scheduleDetail database kind event worker = .ok next ∧
            session.served? database = some id := by
  have hturn : step = .turn worker ↔ step.occurrence? = some (.call (.turn worker)) :=
    (RawStep.occurrence?_eq_call_iff rfl).symm
  have hread (database : DatabaseId) :
      step = .readDetail database kind.number event.pack worker ↔
        step.occurrence? = some (.call (.scheduleDetail database kind event worker)) :=
    (RawStep.occurrence?_eq_call_iff rfl).symm
  simp only [rawUpon_eq, hread, ne_eq, hturn]
  cases step.occurrence? with
  | none => simp
  | some occurrence => simp [detail_upon_iff horderly]

end Steps

section Runs

variable
  {config : Config} {run : List RawStep} {step : RawStep} {id : TraceId} {kind : DetailKind}
  {event : EventId} {worker : FutureId} {number : Nat} {word : UInt64}

/-- The session after a run that starts without anything. -/
def following (config : Config) (run : List RawStep) : Session :=
  run.foldl rawUpon (empty config)

@[simp] theorem following_concat
    (config : Config) (run : List RawStep) (step : RawStep) :
    following config (run ++ [step]) = (following config run).rawUpon step := by
  simp [following]

theorem orderly_following
    (config : Config) (run : List RawStep) :
    (following config run).Orderly := by
  induction run using List.reverseRecOn with
  | nil => exact orderly_empty config
  | append_singleton run step ih =>
      rw [following_concat, rawUpon_eq]
      cases step.occurrence? with
      | none => exact ih
      | some occurrence => exact ih.upon occurrence

/-- After a run a worker has a read of detail of a trace under a number and a word: the read was
asked for with success, of a database that served the trace, and the worker has made no turn
since. -/
inductive Awaits
    (config : Config) (worker : FutureId) (id : TraceId) (number : Nat) (word : UInt64) :
    List RawStep → Prop
  | asked {run : List RawStep} {database : DatabaseId} :
      (following config run).served? database = some id →
      ((following config run).scheduleDetailRaw database number word worker).1 = .success →
        Awaits config worker id number word (run ++ [.readDetail database number word worker])
  | kept {run : List RawStep} {step : RawStep} :
      Awaits config worker id number word run → step ≠ .turn worker →
        Awaits config worker id number word (run ++ [step])

/-- **When a worker has a read of detail**, told by the steps of a run. -/
theorem awaits_iff :
    Awaits config worker id number word run ↔
      ∃ kind event, kind.number = number ∧ event.pack = word ∧
        ∃ source, (following config run).job? worker = some (.detail source id kind event) := by
  constructor
  · intro hawaits
    induction hawaits with
    | asked hserved hasked =>
        obtain ⟨kind, event, next, rfl, rfl, hnext⟩ := exists_of_scheduleDetailRaw hasked
        refine ⟨kind, event, rfl, rfl, ?_⟩
        rw [following_concat, detail_rawUpon_iff (orderly_following ..)]
        exact .inr ⟨_, next, rfl, hnext, hserved⟩
    | kept _ hother ih =>
        obtain ⟨kind, event, hnumber, hword, hjob⟩ := ih
        refine ⟨kind, event, hnumber, hword, ?_⟩
        rw [following_concat, detail_rawUpon_iff (orderly_following ..)]
        exact .inl ⟨hother, hjob⟩
  · rintro ⟨kind, event, rfl, rfl, hjob⟩
    induction run using List.reverseRecOn with
    | nil =>
        obtain ⟨source, hjob⟩ := hjob
        cases hjob
    | append_singleton run step ih =>
        rw [following_concat, detail_rawUpon_iff (orderly_following ..)] at hjob
        rcases hjob with ⟨hother, hbefore⟩ | ⟨database, next, rfl, hnext, hserved⟩
        · exact .kept (ih hbefore) hother
        · refine .asked hserved ?_
          rw [scheduleDetailRaw_pack, hnext]
          rfl

/-- The step that comes after a run is about detail of a kind at a word: it is the turn of a worker
that has a read of the detail, or it gives the detail up. -/
def Concerns
    (config : Config) (id : TraceId) (kind : DetailKind) (word : UInt64) (run : List RawStep) :
    RawStep → Prop
  | .turn worker => Awaits config worker id kind.number word run
  | .evictDetail target number other => target = id ∧ number = kind.number ∧ other = word
  | .evictDetails target number => target = id ∧ number = kind.number
  | .deleteTrace target => target = id
  | _ => False

/-- **A step that is not about the detail at a word leaves the handle there alone.** -/
theorem addressed?_of_not_concerns
    (hspares : ¬ Concerns config id kind word run step) :
    (following config (run ++ [step])).addressed? id kind word =
      (following config run).addressed? id kind word := by
  have horderly := orderly_following config run
  refine addressed?_congr horderly.numbered (orderly_following ..).numbered fun event hword => ?_
  subst hword
  rw [following_concat, rawUpon_eq]
  cases hoccurrence : step.occurrence? with
  | none => rfl
  | some occurrence =>
      rw [Option.elim_some]
      constructor
      · intro hvalid
        rcases valid_of_upon horderly hvalid with hbefore | ⟨worker, source, rfl, hjob⟩
        · exact hbefore
        · obtain rfl := (RawStep.occurrence?_eq_call_iff rfl).1 hoccurrence
          exact absurd (awaits_iff.2 ⟨kind, event, rfl, rfl, source, hjob⟩) hspares
      · intro hvalid
        refine valid_upon horderly hvalid fun call hcall hforfeits => hspares ?_
        subst hcall
        rcases RawStep.exists_forfeits_iff.1 ⟨call, hoccurrence, hforfeits⟩ with rfl | rfl | rfl
        · exact ⟨rfl, rfl, rfl⟩
        · exact ⟨rfl, rfl⟩
        · rfl

/-- **A step that gives up the detail at a word leaves no handle there.** -/
theorem addressed?_of_forfeits
    (hconcerns : Concerns config id kind word run step)
    (hturn : ∀ worker, step ≠ .turn worker) :
    (following config (run ++ [step])).addressed? id kind word = none := by
  rw [Option.eq_none_iff_forall_ne_some]
  intro handle hhandle
  obtain ⟨event, rfl, hvalid, -⟩ :=
    (addressed?_eq_some_iff (orderly_following ..).numbered).1 hhandle
  have hgives : step = .evictDetail id kind.number event.pack ∨
      step = .evictDetails id kind.number ∨ step = .deleteTrace id := by
    cases step with
    | turn worker => exact absurd rfl (hturn worker)
    | evictDetail target number other =>
        obtain ⟨rfl, rfl, rfl⟩ := hconcerns
        exact .inl rfl
    | evictDetails target number =>
        obtain ⟨rfl, rfl⟩ := hconcerns
        exact .inr (.inl rfl)
    | deleteTrace target =>
        obtain rfl : target = id := hconcerns
        exact .inr (.inr rfl)
    | _ => exact hconcerns.elim
  obtain ⟨call, hcall, hforfeits⟩ := RawStep.exists_forfeits_iff.2 hgives
  rw [following_concat, rawUpon_eq, hcall] at hvalid
  exact not_valid_of_forfeits (orderly_following config run) hforfeits hvalid

/-- A trace that no step of a run deletes is listed whenever it is held. -/
theorem listed_following
    (hkept : .deleteTrace id ∉ run) :
    ∀ held, (following config run).traces.get? id.index = some held → held.listed = true := by
  induction run using List.reverseRecOn with
  | nil => exact fun held hheld => by cases hheld
  | append_singleton run step ih =>
      have hbefore := ih fun hmem => hkept (List.mem_append_left _ hmem)
      rw [following_concat, rawUpon_eq]
      cases hoccurrence : step.occurrence? with
      | none => exact hbefore
      | some occurrence =>
          refine listed_upon (orderly_following config run) hbefore ?_
          rintro rfl
          obtain rfl := (RawStep.occurrence?_eq_call_iff rfl).1 hoccurrence
          exact hkept (List.mem_append_right _ List.mem_cons_self)

/-- **The turn of a worker that has a read of the detail at a word** ends the read.  If that
succeeded, there is a handle at the word, unless the trace was deleted; if it failed, the handle
is left alone. -/
theorem addressed?_of_awaits
    (hawaits : Awaits config worker id kind.number word run) :
    ∃ future result last,
      (following config (run ++ [.turn worker])).futures.get? worker.index = some future ∧
      future.phase? = some (.resolved result last) ∧
      (result = .ok () → .deleteTrace id ∉ run →
        ((following config (run ++ [.turn worker])).addressed? id kind word).isSome = true) ∧
      ∀ failure, result = .error failure →
        (following config (run ++ [.turn worker])).addressed? id kind word =
          (following config run).addressed? id kind word := by
  have horderly := orderly_following config run
  have hnext := orderly_following config (run ++ [.turn worker])
  obtain ⟨found, event, hnumber, rfl, source, hjob⟩ := awaits_iff.1 hawaits
  obtain rfl := DetailKind.number_inj hnumber
  obtain ⟨future, result, last, hfuture, hresolved, hok, hfailed⟩ :=
    exists_resolved_turn horderly.numbered horderly.atWork hjob
  have hturn : following config (run ++ [.turn worker]) = (following config run).turn worker :=
    following_concat ..
  rw [hturn] at hnext ⊢
  refine ⟨future, result, last, hfuture, hresolved, fun hsucceeded hkept => ?_,
    fun failure hfailure => ?_⟩
  · obtain ⟨⟨trace, listed⟩, hheld, hresident⟩ := hok hsucceeded
    have hnever : .deleteTrace id ∉ run ++ [.turn worker] := by simp [hkept]
    obtain rfl : listed = true := listed_following hnever _ (hturn ▸ hheld)
    exact (isSome_addressed?_iff hnext.numbered).2
      ⟨event, rfl, valid_iff.2 ⟨trace, hheld, hresident⟩⟩
  · refine addressed?_congr horderly.numbered hnext.numbered fun other _ => ?_
    rw [valid_iff, valid_iff, hfailed failure hfailure]

/-- A turn gives up no detail. -/
theorem isSome_addressed?_turn
    (hbefore : ((following config run).addressed? id kind word).isSome = true) :
    ((following config (run ++ [.turn worker])).addressed? id kind word).isSome = true := by
  have horderly := orderly_following config run
  obtain ⟨event, hword, hvalid⟩ := (isSome_addressed?_iff horderly.numbered).1 hbefore
  have hkept : ((following config run).upon (.call (.turn worker))).Valid ⟨id, kind, event⟩ :=
    valid_upon horderly hvalid fun call hcall hforfeits => by
      cases hcall
      exact hforfeits
  refine (isSome_addressed?_iff (orderly_following ..).numbered).2 ⟨event, hword, ?_⟩
  rw [following_concat]
  exact hkept

/-- The step that comes after a run reads or gives up detail under a word. -/
def IsUnder (config : Config) (word : UInt64) (run : List RawStep) : RawStep → Prop
  | .readDetail _ _ other _ => other = word
  | .evictDetail _ _ other => other = word
  | .turn worker => ∃ id number, Awaits config worker id number word run
  | _ => False

/-- What is read or given up under one word is not the detail at another. -/
theorem not_concerns_of_isUnder
    {other : UInt64}
    (hother : other ≠ word)
    (hunder : IsUnder config other run step) :
    ¬ Concerns config id kind word run step := by
  intro hconcerns
  cases step with
  | evictDetail target number named => exact hother (hunder.symm.trans hconcerns.2.2)
  | turn worker =>
      obtain ⟨target, number, hawaits⟩ := hunder
      obtain ⟨_, event, -, hword, _, hjob⟩ := awaits_iff.1 hconcerns
      obtain ⟨_, named, -, hnamed, _, hsame⟩ := awaits_iff.1 hawaits
      cases hjob.symm.trans hsame
      exact hother (hnamed.symm.trans hword)
  | readDetail | other => exact hconcerns
  | evictDetails | deleteTrace => exact hunder

/-- The step that comes after a run is about the detail at a word, and changes whether there is a
handle. -/
def Changes
    (config : Config) (id : TraceId) (kind : DetailKind) (word : UInt64) (run : List RawStep)
    (step : RawStep) : Prop :=
  Concerns config id kind word run step ∧
    ((following config (run ++ [step])).addressed? id kind word).isSome ≠
      ((following config run).addressed? id kind word).isSome

/-- The most recent step of a run that is about the detail at a word and changed whether there is a
handle. -/
inductive LastChange (config : Config) (id : TraceId) (kind : DetailKind) (word : UInt64) :
    List RawStep → RawStep → Prop
  | changed {run : List RawStep} {step : RawStep} :
      Changes config id kind word run step → LastChange config id kind word (run ++ [step]) step
  | kept {run : List RawStep} {step next : RawStep} :
      LastChange config id kind word run step → ¬ Changes config id kind word run next →
        LastChange config id kind word (run ++ [next]) step

theorem lastChange_concat_iff
    {next : RawStep} :
    LastChange config id kind word (run ++ [next]) step ↔
      Changes config id kind word run next ∧ step = next ∨
        ¬ Changes config id kind word run next ∧ LastChange config id kind word run step := by
  constructor
  · intro hlast
    generalize hwhole : run ++ [next] = whole at hlast
    cases hlast with
    | changed hchanges =>
        obtain ⟨rfl, hstep⟩ := List.append_inj' hwhole rfl
        cases hstep
        exact .inl ⟨hchanges, rfl⟩
    | kept hlast hkept =>
        obtain ⟨rfl, hstep⟩ := List.append_inj' hwhole rfl
        cases hstep
        exact .inr ⟨hkept, hlast⟩
  · rintro (⟨hchanges, rfl⟩ | ⟨hkept, hlast⟩)
    · exact .changed hchanges
    · exact .kept hlast hkept

/-- **There is a handle at a word just if the last change was the turn of a worker.** -/
theorem isSome_addressed?_following_iff :
    ((following config run).addressed? id kind word).isSome = true ↔
      ∃ worker, LastChange config id kind word run (.turn worker) := by
  induction run using List.reverseRecOn with
  | nil =>
      have hnone : (following config []).addressed? id kind word = none := by
        cases kind <;> rfl
      rw [hnone]
      refine ⟨fun hsome => absurd hsome Bool.false_ne_true, fun ⟨worker, hlast⟩ => ?_⟩
      generalize hwhole : ([] : List RawStep) = whole at hlast
      cases hlast <;> simp at hwhole
  | append_singleton run next ih =>
      simp only [lastChange_concat_iff]
      by_cases hchanges : Changes config id kind word run next
      · simp only [hchanges, true_and, not_true_eq_false, false_and, or_false]
        by_cases hturn : ∃ worker, next = .turn worker
        · obtain ⟨worker, rfl⟩ := hturn
          refine iff_of_true ?_ ⟨worker, rfl⟩
          -- a turn that changed anything did so where there was no handle
          by_contra hnone
          have hbefore := hchanges.2
          rw [Bool.eq_false_iff.2 hnone] at hbefore
          exact hnone (isSome_addressed?_turn (Bool.eq_true_of_not_eq_false hbefore.symm))
        · have hgives : ∀ worker, next ≠ .turn worker := fun worker hsame => hturn ⟨worker, hsame⟩
          rw [addressed?_of_forfeits hchanges.1 hgives]
          exact iff_of_false Bool.false_ne_true fun ⟨worker, hsame⟩ => hgives worker hsame.symm
      · simp only [hchanges, false_and, not_false_eq_true, true_and, false_or]
        have hsame : ((following config (run ++ [next])).addressed? id kind word).isSome =
            ((following config run).addressed? id kind word).isSome := by
          by_cases hconcerns : Concerns config id kind word run next
          · by_contra hother
            exact hchanges ⟨hconcerns, hother⟩
          · rw [addressed?_of_not_concerns hconcerns]
        rw [hsame, ih]

/-- **Words address detail apart.**  The words that unpack are those whose high four bits are the
number of an operation, and packing gives the word back; an event that is made of a row and an
operation is unpacked from its word.

After any run, there is a handle under the key of a kind at a word just if the most recent step
that is about this detail and changed whether it is resident was the turn of a worker that read
it; the handle is of the event in the word.  No step under another word, and none that is not
about the detail, leaves another handle there.  A step that gives the detail up leaves none, and
the turn of a worker that has a read of it leaves one if it succeeds and changes nothing if it
fails. -/
theorem details_addressed_apart
    (config : Config) (id : TraceId) (kind : DetailKind) (word : UInt64) (run : List RawStep) :
    ((EventId.unpack? word).isSome = true ↔
      ∃ operation : Operation, (word >>> 60).toNat = operation.number) ∧
    (∀ event, EventId.unpack? word = some event → event.pack = word) ∧
    (∀ row operation,
      EventId.unpack? (EventId.ofRow row operation).pack = some (.ofRow row operation)) ∧
    (((following config run).addressed? id kind word).isSome = true ↔
      ∃ worker, LastChange config id kind word run (.turn worker)) ∧
    (∀ handle, (following config run).addressed? id kind word = some handle →
      ∃ event, EventId.unpack? word = some event ∧ handle = .detail ⟨id, kind, event⟩) ∧
    (∀ step other, other ≠ word → IsUnder config other run step →
      (following config (run ++ [step])).addressed? id kind word =
        (following config run).addressed? id kind word) ∧
    (∀ step, ¬ Concerns config id kind word run step →
      (following config (run ++ [step])).addressed? id kind word =
        (following config run).addressed? id kind word) ∧
    (∀ step, Concerns config id kind word run step → (∀ worker, step ≠ .turn worker) →
      (following config (run ++ [step])).addressed? id kind word = none) ∧
    (∀ worker, Awaits config worker id kind.number word run →
      ∃ future result last,
        (following config (run ++ [.turn worker])).futures.get? worker.index = some future ∧
        future.phase? = some (.resolved result last) ∧
        (result = .ok () → .deleteTrace id ∉ run →
          ((following config (run ++ [.turn worker])).addressed? id kind word).isSome = true) ∧
        ∀ failure, result = .error failure →
          (following config (run ++ [.turn worker])).addressed? id kind word =
            (following config run).addressed? id kind word) := by
  refine ⟨EventId.isSome_unpack?_iff, fun event => EventId.unpack?_eq_some_iff.1,
    fun row operation => EventId.unpack?_pack _, isSome_addressed?_following_iff,
    fun handle hhandle => ?_, fun step other hother hunder => ?_,
    fun step => addressed?_of_not_concerns, fun step => addressed?_of_forfeits,
    fun worker => addressed?_of_awaits⟩
  · obtain ⟨event, hword, -, rfl⟩ :=
      (addressed?_eq_some_iff (orderly_following config run).numbered).1 hhandle
    exact ⟨event, EventId.unpack?_eq_some_iff.2 hword, rfl⟩
  · exact addressed?_of_not_concerns (not_concerns_of_isUnder hother hunder)

/-- The links of the first call of the capture are read, and then those of an event are given up. -/
def linksUntil (event : EventId) : List RawStep := [
  .other (.call (.attach linked.toSource)) not_false, .other (.call .createTrace) not_false,
  .other (.call (.bind ⟨0⟩ ⟨0⟩)) not_false, .other (.call (.readMetadata ⟨0⟩)) not_false,
  .other (.call (.allocate true)) not_false,
  .readDetail ⟨0⟩ DetailKind.flow.number call.pack ⟨0⟩, .turn ⟨0⟩,
  .evictDetail ⟨0⟩ DetailKind.flow.number event.pack]

example :
    (following .standard (linksUntil kernel)).addressed? ⟨0⟩ .flow call.pack =
        some (.detail ⟨⟨0⟩, .flow, call⟩) ∧
      (following .standard (linksUntil call)).addressed? ⟨0⟩ .flow call.pack = none :=
  ⟨rfl, rfl⟩

end Runs

end Session

end TimelineStore
