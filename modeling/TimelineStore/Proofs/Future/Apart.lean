import TimelineStore.Proofs.Future.Overlap

/-!
# Callers that keep apart

Two callers that poll one future do not harm each other as long as the one that receives
the result has the future to itself until it returned.  Callers that do not keep apart may
harm each other in every way: one fails although the operation succeeded, takes an
operation that it did not wait for, and leaves a state that nothing came to.

**Results.**
* `Company.Runs.unharmed`: what callers that keep apart can rely on.
* `Company.exists_harmed`: callers that do not keep apart cannot.
-/

namespace TimelineStore

namespace Company

variable {ω : Type} {company next start : Company ω} {history : List Deed} {deed : Deed}
  {caller : Caller} {number : Nat} {bound : Option Nat} {stance : Stance}

/-- A result is received while the other caller is in no wait, no wait begins while the
other has its answer, and nothing is scheduled while anyone waits. -/
def Apart (company : Company ω) : Deed → Prop
  | .schedules _ => ∀ caller, company.stance caller = .away
  | .begins caller _ => ∀ number answer, company.stance caller.other ≠ .holding number answer
  | .receives caller _ _ => company.stance caller.other = .away
  | _ => True

/-- The callers do not get in each other's way: they wait for the operation that is there,
and one that has its answer has the future to itself. -/
structure Undisputed (history : List Deed) (company : Company ω) : Prop where
  current : ∀ caller number, (company.stance caller).awaited? = some number →
    number = company.number ∧ company.future.stage ≠ .empty
  alone : ∀ caller number answer, company.stance caller = .holding number answer →
    company.stance caller.other = .away ∧ .resolves number answer ∈ history
  closed : company.channel company.number = .closed → company.future.stage = .empty ∨
    ∃ caller number answer, company.stance caller = .holding number answer
  settled : company.future.stage = .empty → 0 < company.number →
    ∃ result, .resolves company.number result ∈ history ∧
      company.future.state = Future.stateOf result

namespace Undisputed

theorem opening
    (id : FutureId) (listens : Bool) :
    Undisputed [] (opening id listens : Company ω) := by
  constructor <;> simp [Company.opening, Stance.awaited?]

theorem awaits
    (hundisputed : Undisputed history company)
    (hstance : company.stance caller = stance) (hawaited : stance.awaited? = some number) :
    number = company.number ∧ company.future.stage ≠ .empty :=
  hundisputed.current caller number (hstance ▸ hawaited)

/-- While a caller waits and has no answer, nobody has one. -/
theorem not_holding
    (hundisputed : Undisputed history company)
    (hstance : company.stance caller = stance) (hwaits : stance ≠ .away)
    (hnot : ∀ number answer, stance ≠ .holding number answer)
    (rival : Caller) (number : Nat) (answer : Except Failure Unit) :
    company.stance rival ≠ .holding number answer := by
  intro hholding
  have hne : rival ≠ caller := by
    rintro rfl
    exact hnot number answer (hstance.symm.trans hholding)
  obtain ⟨haway, -⟩ := hundisputed.alone rival number answer hholding
  rw [Caller.eq_other_of_ne hne, Caller.other_other] at haway
  exact hwaits (hstance.symm.trans haway)

/-- A caller that listens does not find the result taken. -/
theorem not_closed
    (hundisputed : Undisputed history company)
    (hlistening : company.stance caller = .listening number bound) :
    company.channel number ≠ .closed := by
  intro hchannel
  obtain ⟨rfl, hstage⟩ := hundisputed.awaits hlistening rfl
  obtain hempty | ⟨rival, number, answer, hholding⟩ := hundisputed.closed hchannel
  · exact hstage hempty
  · exact hundisputed.not_holding hlistening (by simp) (by simp) _ _ _ hholding

/-- Neither caller moves. -/
theorem kept
    (hundisputed : Undisputed history company)
    (hstance : next.stance = company.stance) (hnumber : next.number = company.number)
    (hstage : next.future.stage = .empty ↔ company.future.stage = .empty)
    (hstate : next.future.state = company.future.state)
    (hchannel : next.channel next.number = .closed →
      company.channel company.number = .closed) :
    Undisputed (history ++ [deed]) next := by
  obtain ⟨hcurrent, halone, hclosed, hsettled⟩ := hundisputed
  constructor
  · simpa only [hstance, hnumber, ne_eq, hstage] using hcurrent
  · rw [hstance]
    exact fun caller number answer hholding =>
      (halone caller number answer hholding).imp_right (List.mem_append_left _)
  · rw [hstance, hstage]
    exact fun hnext => hclosed (hchannel hnext)
  · rw [hstage, hnumber, hstate]
    intro hempty hpos
    obtain ⟨result, hmem, hresult⟩ := hsettled hempty hpos
    exact ⟨result, List.mem_append_left _ hmem, hresult⟩

/-- One caller moves while nobody has an answer. -/
theorem moved
    (hundisputed : Undisputed history company)
    (hnobody : ∀ rival number answer, company.stance rival ≠ .holding number answer)
    (hstance : next.stance = (company.placing caller stance).stance)
    (hnumber : next.number = company.number)
    (hstage : next.future.stage = company.future.stage)
    (hstate : company.future.stage = .empty → next.future.state = company.future.state)
    (hcurrent : ∀ number, stance.awaited? = some number →
      number = company.number ∧ company.future.stage ≠ .empty)
    (halone : ∀ number answer, stance = .holding number answer →
      company.stance caller.other = .away ∧ .resolves number answer ∈ history)
    (hchannel : next.channel company.number = .closed →
      company.channel company.number = .closed ∨
        ∃ number answer, stance = .holding number answer) :
    Undisputed (history ++ [deed]) next := by
  constructor
  · intro rival number
    rw [hstance, hnumber, hstage]
    by_cases hsame : rival = caller
    · rw [hsame, stance_placing_self]
      exact hcurrent number
    · rw [stance_placing_of_ne hsame]
      exact hundisputed.current rival number
  · intro rival number answer
    rw [hstance]
    by_cases hsame : rival = caller
    · subst hsame
      rw [stance_placing_self, stance_placing_of_ne rival.other_ne]
      exact fun hholding => (halone number answer hholding).imp_right (List.mem_append_left _)
    · rw [stance_placing_of_ne hsame]
      exact fun hholding => absurd hholding (hnobody rival number answer)
  · rw [hnumber, hstance, hstage]
    intro hnext
    obtain hclosed | ⟨number, answer, rfl⟩ := hchannel hnext
    · refine (hundisputed.closed hclosed).imp_right ?_
      exact fun ⟨rival, number, answer, hholding⟩ =>
        absurd hholding (hnobody rival number answer)
    · exact .inr ⟨caller, number, answer, stance_placing_self ..⟩
  · rw [hstage, hnumber]
    intro hempty hpos
    obtain ⟨result, hmem, hresult⟩ := hundisputed.settled hempty hpos
    exact ⟨result, List.mem_append_left _ hmem, (hstate hempty).trans hresult⟩

/-- The caller that has its answer returns. -/
theorem settle
    (hundisputed : Undisputed history company) {answer : Except Failure Unit}
    (hholding : company.stance caller = .holding number answer) :
    Undisputed (history ++ [deed])
      ((company.carrying (company.future.settled answer)).placing caller .away) := by
  obtain ⟨rfl, hstage⟩ := hundisputed.awaits hholding rfl
  obtain ⟨hother, hresolves⟩ := hundisputed.alone _ _ _ hholding
  have haway (rival : Caller) :
      ((company.carrying (company.future.settled answer)).placing caller .away).stance rival =
        .away := by
    by_cases hsame : rival = caller
    · rw [hsame, stance_placing_self]
    · rw [stance_placing_of_ne hsame, Caller.eq_other_of_ne hsame]
      exact hother
  constructor
  · simp [haway, Stance.awaited?]
  · simp [haway]
  · exact fun _ => .inl rfl
  · exact fun _ _ => ⟨answer, List.mem_append_left _ hresolves, rfl⟩

end Undisputed

/-- Callers that keep apart stay out of each other's way. -/
theorem Step.undisputed
    (hstep : Step company deed next) (happart : Apart company deed)
    (htold : Told history company) (hundisputed : Undisputed history company) :
    Undisputed (history ++ [deed]) next := by
  -- whoever moves without an answer finds nobody with one, and whoever has an answer is
  -- the only one in a wait
  cases hstep with
  | schedule haway hjoined hschedule =>
      obtain ⟨-, rfl⟩ := Future.schedule_eq_ok_iff.mp hschedule
      constructor
      · intro caller
        simp [happart caller, Stance.awaited?]
      · intro caller
        simp [happart caller]
      · simp [channel_scheduling]
      · simp [Run.start]
  | wait caller bound haway hrun =>
      have hstage := mt Future.stage_eq_empty_iff.mp hrun
      refine hundisputed.moved ?_ rfl rfl rfl (fun _ => rfl) ?_ (by simp) .inl
      · intro rival
        by_cases hsame : rival = caller
        · simp [hsame, haway]
        · rw [Caller.eq_other_of_ne hsame]
          exact happart
      · rintro number ⟨⟩
        exact ⟨rfl, hstage⟩
  | receive caller hlistening hchannel =>
      obtain ⟨rfl, hstage⟩ := hundisputed.awaits hlistening rfl
      refine hundisputed.moved (hundisputed.not_holding hlistening (by simp) (by simp))
        rfl rfl rfl (fun _ => rfl) ?_ ?_ fun _ => .inr ⟨_, _, rfl⟩
      · rintro number ⟨⟩
        exact ⟨rfl, hstage⟩
      · rintro number answer ⟨⟩
        exact ⟨happart, htold.full _ _ hchannel⟩
  | miss caller hlistening hchannel =>
      exact absurd hchannel (hundisputed.not_closed hlistening)
  | expire caller hlistening hchannel =>
      refine hundisputed.moved (hundisputed.not_holding hlistening (by simp) (by simp))
        rfl rfl rfl (fun _ => rfl) ?_ (by simp) .inl
      rintro number ⟨⟩
      exact hundisputed.awaits hlistening rfl
  | giveUp caller hexpired =>
      obtain ⟨-, hstage⟩ := hundisputed.awaits hexpired rfl
      exact hundisputed.moved (hundisputed.not_holding hexpired (by simp) (by simp))
        rfl rfl rfl (fun hempty => absurd hempty hstage) (by simp [Stance.awaited?]) (by simp)
        .inl
  | settle caller hholding hjoined => exact hundisputed.settle hholding
  | hear => exact hundisputed.kept rfl rfl (by simp) rfl id
  | work reports rest hphase =>
      exact hundisputed.kept rfl rfl (by simp [Future.stage_take_work hphase]) rfl id
  | resolve result hphase hresolved =>
      refine hundisputed.kept rfl rfl ?_ rfl id
      simp [Future.stage_eq_resolved_iff.mpr hresolved,
        Future.stage_eq_running_iff.mpr ⟨_, hphase⟩]
  | hand hphase hchannel =>
      exact hundisputed.kept rfl rfl .rfl rfl (by simp [channel_filling])
  | _ => exact hundisputed.kept rfl rfl .rfl rfl id

/-- Neither caller harmed the other: a wait fails with the failure of its operation, as out
of time or as nothing scheduled, what was collected last is what the future says as long as
nothing else was scheduled, and no wait took an operation later than its own. -/
structure Unharmed (history : List Deed) (company : Company ω) : Prop where
  answers : ∀ caller number answer removed,
    .returns caller number answer removed ∈ history →
      .resolves number answer ∈ history ∨ ∃ seconds, answer = .error (.timedOut seconds)
  refusals : ∀ caller answer, .refuses caller answer ∈ history →
    answer = .error (.nothingScheduled (toString company.future.id))
  state : ∀ caller number answer removed,
    .returns caller number answer (some removed) ∈ history →
      (∀ later, .schedules later ∈ history → later ≤ removed) →
      ∃ result, .resolves removed result ∈ history ∧
        company.future.currentState = Future.stateOf result
  removal : ∀ caller number answer removed,
    .returns caller number answer (some removed) ∈ history → removed ≤ number

namespace Runs

variable {allowed : Company ω → Deed → Prop} {id : FutureId} {listens : Bool}
  {answer : Except Failure Unit} {removed : Option Nat}

theorem undisputed
    (hruns : Runs Apart (opening id listens) history company) :
    Undisputed history company := by
  induction hruns with
  | refl => exact .opening id listens
  | snoc hruns hstep happart ih =>
      exact hstep.undisputed happart hruns.told_attended_returned.1 ih

theorem id_eq
    (hruns : Runs allowed start history company) :
    company.future.id = start.future.id := by
  induction hruns with
  | refl => rfl
  | snoc _ hstep _ ih => exact hstep.id_eq.trans ih

theorem refuses
    (hruns : Runs allowed start history company)
    (hrefuses : .refuses caller answer ∈ history) :
    answer = .error (.nothingScheduled (toString start.future.id)) := by
  induction hruns with
  | refl => simp at hrefuses
  | snoc hruns hstep _ ih =>
      rcases List.mem_append.mp hrefuses with hmem | hmem
      · exact ih hmem
      · obtain rfl := List.mem_singleton.mp hmem
        cases hstep with
        | refuse caller haway hrun => rw [hruns.id_eq]

/-- A wait that nobody disputes returns its own result or runs out of time, and takes its
own operation. -/
theorem returns_of_apart
    (hruns : Runs Apart (opening id listens) history company)
    (hreturns : .returns caller number answer removed ∈ history) :
    (.resolves number answer ∈ history ∨ ∃ seconds, answer = .error (.timedOut seconds)) ∧
      ∀ gone, removed = some gone → gone = number := by
  induction hruns with
  | refl => simp at hreturns
  | snoc hruns hstep _ ih =>
      rcases List.mem_append.mp hreturns with hmem | hmem
      · exact (ih hmem).imp_left (.imp_left (List.mem_append_left _))
      · obtain rfl := List.mem_singleton.mp hmem
        cases hstep with
        | giveUp caller hexpired => exact ⟨.inr ⟨_, rfl⟩, by simp⟩
        | settle caller hholding hjoined =>
            obtain ⟨rfl, -⟩ := hruns.undisputed.awaits hholding rfl
            obtain ⟨-, hresolves⟩ := hruns.undisputed.alone _ _ _ hholding
            refine ⟨.inl (List.mem_append_left _ hresolves), fun gone hgone => ?_⟩
            obtain ⟨run, -, rfl⟩ := Option.map_eq_some_iff.mp hgone
            rfl

/-- Callers that keep apart do not harm each other, whatever the worker does meanwhile. -/
theorem unharmed
    (hruns : Runs Apart (opening id listens) history company) :
    Unharmed history company := by
  constructor
  · intro caller number answer removed hreturns
    exact (hruns.returns_of_apart hreturns).1
  · intro caller answer hrefuses
    rw [hruns.id_eq]
    exact hruns.refuses hrefuses
  · intro caller number answer removed hreturns hlast
    obtain ⟨htold, -, hreturned⟩ := hruns.told_attended_returned
    obtain ⟨-, hremoved⟩ := hreturned caller number answer _ hreturns
    obtain ⟨-, hpos, hover⟩ := hremoved removed rfl
    obtain hless | ⟨rfl, hempty⟩ := hover
    · have hlater := hlast _ (htold.scheduled (by omega))
      omega
    · obtain ⟨result, hresolves, hstate⟩ := hruns.undisputed.settled hempty hpos
      refine ⟨result, hresolves, ?_⟩
      rw [Future.currentState_eq, hempty]
      exact hstate
  · intro caller number answer removed hreturns
    exact Nat.le_of_eq ((hruns.returns_of_apart hreturns).2 removed rfl)

end Runs

/-- The second caller polls while the first waits; then the first receives the result. -/
theorem unharmed_of_poll :
    ∃ (history : List Deed) (company : Company Unit),
      Runs Apart (opening ⟨0⟩ false) history company ∧
        .returns .second 1 (.error (.timedOut 0)) none ∈ history ∧
        .returns .first 1 (.ok ()) (some 1) ∈ history ∧ Unharmed history company := by
  have hruns := (Runs.refl : Runs Apart (opening ⟨0⟩ false : Company Unit) [] _)
    |>.snoc (.schedule rfl (.inl rfl) (Future.schedule_of_idle rfl "read" "database" 1 ()))
      (fun _ => rfl)
    |>.snoc (.wait .first none rfl nofun) (fun _ _ => nofun)
    |>.snoc (.wait .second (some 0) rfl nofun) (fun _ _ => nofun)
    |>.snoc (.expire .second rfl nofun) trivial
    |>.snoc (.giveUp .second rfl) trivial
    |>.snoc (.resolve (.ok "done") rfl rfl) trivial
    |>.snoc (.hand rfl rfl) trivial
    |>.snoc (.receive .first rfl rfl) rfl
    |>.snoc (.settle .first rfl (.inr nofun)) trivial
  refine ⟨[.schedules 1, .begins .first 1, .begins .second 1, .expires .second 1,
    .returns .second 1 (.error (.timedOut 0)) none, .resolves 1 (.ok ()), .hands 1,
    .receives .first 1 (.ok ()), .returns .first 1 (.ok ()) (some 1)], _, hruns, ?_, ?_,
    hruns.unharmed⟩
  · simp
  · simp

/-- Both callers wait for one operation.  The first collects it and schedules another, and
the second, which finds the result taken, collects that one as lost. -/
theorem exists_harmed :
    ∃ (history : List Deed) (company : Company Unit),
      Runs Anyhow (opening ⟨0⟩ false) history company ∧
        .resolves 1 (.ok ()) ∈ history ∧ .resolves 2 (.ok ()) ∈ history ∧
        .returns .second 1 Future.loss (some 2) ∈ history ∧
        company.future.currentState = .failed ∧ ¬Unharmed history company := by
  have hruns := (Runs.refl : Runs Anyhow (opening ⟨0⟩ false : Company Unit) [] _)
    |>.snoc (.schedule rfl (.inl rfl) (Future.schedule_of_idle rfl "read" "database" 1 ()))
      trivial
    |>.snoc (.wait .first none rfl nofun) trivial
    |>.snoc (.wait .second none rfl nofun) trivial
    |>.snoc (.resolve (.ok "done") rfl rfl) trivial
    |>.snoc (.hand rfl rfl) trivial
    |>.snoc (.receive .first rfl rfl) trivial
    |>.snoc (.settle .first rfl (.inr nofun)) trivial
    |>.snoc (.miss .second rfl rfl) trivial
    |>.snoc (.schedule rfl (.inl rfl) (Future.schedule_of_idle rfl "read" "database" 1 ()))
      trivial
    |>.snoc (.resolve (.ok "done") rfl rfl) trivial
    |>.snoc (.hand rfl rfl) trivial
    |>.snoc (.settle .second rfl (.inr nofun)) trivial
  refine ⟨[.schedules 1, .begins .first 1, .begins .second 1, .resolves 1 (.ok ()), .hands 1,
    .receives .first 1 (.ok ()), .returns .first 1 (.ok ()) (some 1), .misses .second 1,
    .schedules 2, .resolves 2 (.ok ()), .hands 2, .returns .second 1 Future.loss (some 2)],
    _, hruns, by simp, by simp, by simp, rfl, fun hunharmed => ?_⟩
  -- the second caller waited for the first operation and took the second
  have hremoval := hunharmed.removal .second 1 Future.loss 2 (by simp)
  omega

end Company

end TimelineStore
