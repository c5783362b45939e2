import TimelineStore.Proofs.Future.Company

/-!
# Waits that overlap

What holds however two callers of one future come between each other.  An operation comes
to one result, and at most one wait receives it.  A wait that is overtaken by the other
finds nothing more to receive; it still writes back what it came to, to whatever operation
the future holds by then.

**Results.**
* `Company.Step.told`, `Company.Step.attended`: what the history tells of the operations
  and of the callers, kept by every step.
* `Company.Runs.receives_once`: a result is received once.
* `Company.Runs.answers`: what a wait may return, and which operations it may take.
-/

namespace TimelineStore

/-- The other caller received the result of the operation. -/
def Overtaken (history : List Deed) (caller : Caller) (number : Nat) : Prop :=
  ∃ result, .receives caller.other number result ∈ history

/-- What the answer of a wait may be: the result of its operation, that it ran out of time,
or, if the other caller received the result, that there is nothing more. -/
def Answers
    (history : List Deed) (caller : Caller) (number : Nat) (answer : Except Failure Unit) :
    Prop :=
  .resolves number answer ∈ history ∨ (∃ seconds, answer = .error (.timedOut seconds)) ∨
    answer = Future.loss ∧ Overtaken history caller number

theorem Answers.concat
    {history : List Deed} {caller : Caller} {number : Nat} {answer : Except Failure Unit}
    (hanswers : Answers history caller number answer) (deed : Deed) :
    Answers (history ++ [deed]) caller number answer := by
  refine hanswers.imp (List.mem_append_left _) (.imp_right (.imp_right ?_))
  exact fun ⟨result, hmem⟩ => ⟨result, List.mem_append_left _ hmem⟩

/-- What a caller goes by is so: it listens to nothing that it already received, and it
holds what a wait may return. -/
def Stance.Suits
    (history : List Deed) (number : Nat) (caller : Caller) : Stance → Prop
  | .away => True
  | .listening awaited _ =>
      awaited ≤ number ∧ ∀ result, .receives caller awaited result ∉ history
  | .expired awaited _ => awaited ≤ number
  | .holding awaited answer => awaited ≤ number ∧ Answers history caller awaited answer

theorem Stance.Suits.concat
    {stance : Stance} {history : List Deed} {deed : Deed} {number later : Nat}
    {caller : Caller}
    (hsuits : stance.Suits history number caller) (hnumber : number ≤ later)
    (hdeed : ∀ awaited result, .receives caller awaited result ≠ deed) :
    stance.Suits (history ++ [deed]) later caller := by
  cases stance with
  | away => trivial
  | listening awaited bound =>
      refine ⟨Nat.le_trans hsuits.1 hnumber, fun result => ?_⟩
      simpa [hdeed] using hsuits.2 result
  | expired awaited bound => exact Nat.le_trans hsuits hnumber
  | holding awaited answer => exact ⟨Nat.le_trans hsuits.1 hnumber, hsuits.2.concat deed⟩

namespace Future

variable {ω : Type} {future : Future ω} {work : ω}

theorem stage_take_work
    (hphase : future.phase? = some (.running work)) (reports : List Step) (rest : ω) :
    (future.take ⟨reports, .work rest⟩).stage = future.stage := by
  obtain ⟨run, hrun, hrunning⟩ := exists_run_of_phase hphase
  rw [take_work_of_run hrun, stage_of_run hrun, hrunning]
  rfl

end Future

namespace Company

variable {ω : Type} {company next start : Company ω} {history : List Deed} {deed : Deed}
  {caller : Caller} {number : Nat} {bound : Option Nat}

/-! ## Operations -/

/-- The future no longer holds the operation. -/
def Over (company : Company ω) (number : Nat) : Prop :=
  number < company.number ∨ number = company.number ∧ company.future.stage = .empty

theorem not_over_of_run
    (hrun : company.future.run ≠ none) :
    ¬company.Over company.number := by
  rintro (hless | ⟨-, hempty⟩)
  · exact Nat.lt_irrefl _ hless
  · exact hrun (Future.stage_eq_empty_iff.mp hempty)

theorem Step.number_le
    (hstep : Step company deed next) :
    company.number ≤ next.number := by
  cases hstep with
  | schedule => exact Nat.le_succ _
  | _ => exact Nat.le_refl _

theorem Step.id_eq
    (hstep : Step company deed next) :
    next.future.id = company.future.id := by
  cases hstep with
  | schedule haway hjoined hschedule =>
      obtain ⟨-, rfl⟩ := Future.schedule_eq_ok_iff.mp hschedule
      rfl
  | _ => rfl

/-- The future holds no operation again that it once gave up. -/
theorem Step.over
    (hstep : Step company deed next) (hover : company.Over number) :
    next.Over number := by
  have hlater (hnumber : next.number = company.number + 1) : next.Over number := by
    unfold Over at hover
    exact .inl (by omega)
  have hkept (hnumber : next.number = company.number)
      (hstage : company.future.stage = .empty → next.future.stage = .empty) :
      next.Over number :=
    hover.imp (by omega) fun ⟨hsame, hempty⟩ => ⟨by omega, hstage hempty⟩
  cases hstep with
  | schedule => exact hlater rfl
  | hear => exact hkept rfl fun hempty => (Future.stage_queueing _).trans hempty
  | settle => exact hkept rfl fun _ => rfl
  | work reports rest hphase =>
      exact hkept rfl fun hempty => (Future.stage_take_work hphase reports rest).trans hempty
  | resolve result hphase hresolved =>
      refine hkept rfl fun hempty => ?_
      simp [Future.stage_eq_running_iff.mpr ⟨_, hphase⟩] at hempty
  | _ => exact hkept rfl id

/-- What the history tells of the operations: each comes to one result, and that is what
the future shows and what is handed over. -/
structure Told (history : List Deed) (company : Company ω) : Prop where
  scheduled : 0 < company.number → .schedules company.number ∈ history
  begun : company.future.stage ≠ .empty → 0 < company.number
  shown : ∀ result last, company.future.stage = .resolved result last →
    .resolves company.number result ∈ history
  full : ∀ number result, company.channel number = .full result →
    .resolves number result ∈ history
  done : ∀ number result, .resolves number result ∈ history →
    number < company.number ∨ number = company.number ∧ company.future.stage ≠ .running
  unique : ∀ number result other, .resolves number result ∈ history →
    .resolves number other ∈ history → result = other

namespace Told

theorem opening
    (id : FutureId) (listens : Bool) :
    Told [] (opening id listens : Company ω) := by
  constructor <;> simp [Company.opening, Future.stage, Future.fresh, Future.phase?]

/-- What is told of the operations stays so while none is scheduled or resolved. -/
theorem concat
    (htold : Told history company)
    (hnumber : next.number = company.number)
    (hstage : next.future.stage = company.future.stage ∨ next.future.stage = .empty)
    (hfull : ∀ number result, next.channel number = .full result →
      .resolves number result ∈ history)
    (hdeed : ∀ number result, .resolves number result ≠ deed) :
    Told (history ++ [deed]) next := by
  constructor
  · rw [hnumber]
    exact fun hpos => List.mem_append_left _ (htold.scheduled hpos)
  · rw [hnumber]
    exact fun hnext => htold.begun fun hempty => hnext (hstage.elim (·.trans hempty) id)
  · intro result last hresolved
    rw [hnumber]
    obtain hsame | hempty := hstage
    · exact List.mem_append_left _ (htold.shown result last (hsame.symm.trans hresolved))
    · simp [hempty] at hresolved
  · intro number result hnext
    exact List.mem_append_left _ (hfull number result hnext)
  · intro number result hmem
    simp only [List.mem_append, List.mem_singleton, hdeed, or_false] at hmem
    rw [hnumber]
    refine (htold.done number result hmem).imp_right (.imp_right fun hdone => ?_)
    obtain hsame | hempty := hstage
    · rwa [hsame]
    · simp [hempty]
  · intro number result other
    simp only [List.mem_append, List.mem_singleton, hdeed, or_false]
    exact htold.unique number result other

/-- A new operation came to nothing yet. -/
theorem schedule
    (htold : Told history company) {future : Future ω} (hstage : future.stage = .running) :
    Told (history ++ [.schedules (company.number + 1)]) (company.scheduling future) := by
  constructor
  · simp
  · simp
  · simp [hstage]
  · intro number result
    rw [channel_scheduling]
    split
    · simp
    · exact fun hfull => List.mem_append_left _ (htold.full number result hfull)
  · intro number result hmem
    have hdone := htold.done number result (by simpa using hmem)
    exact .inl (by rw [number_scheduling]; omega)
  · simpa using htold.unique

/-- An operation that was running came to its result. -/
theorem resolve
    (htold : Told history company) (hrunning : company.future.stage = .running)
    {future : Future ω} {closing : Except Failure Unit} {last : ProgressEvent}
    (hstage : future.stage = .resolved closing last) :
    Told (history ++ [.resolves company.number closing]) (company.carrying future) := by
  have hfirst (result : Except Failure Unit) : .resolves company.number result ∉ history := by
    intro hmem
    obtain hless | ⟨-, hnot⟩ := htold.done _ result hmem
    · exact Nat.lt_irrefl _ hless
    · exact hnot hrunning
  constructor
  · simpa using htold.scheduled
  · exact fun _ => htold.begun (by simp [hrunning])
  · simp [hstage]
  · intro number result hfull
    exact List.mem_append_left _ (htold.full number result hfull)
  · intro number result hmem
    simp only [List.mem_append, List.mem_singleton, Deed.resolves.injEq] at hmem
    obtain hmem | ⟨rfl, -⟩ := hmem
    · exact (htold.done number result hmem).imp_right (.imp_right fun _ => by simp [hstage])
    · exact .inr ⟨rfl, by simp [hstage]⟩
  · intro number result other hresult hother
    simp only [List.mem_append, List.mem_singleton, Deed.resolves.injEq] at hresult hother
    obtain hresult | ⟨rfl, rfl⟩ := hresult <;> obtain hother | ⟨heq, rfl⟩ := hother
    · exact htold.unique number result other hresult hother
    · exact absurd (heq ▸ hresult) (hfirst result)
    · exact absurd hother (hfirst other)
    · rfl

end Told

theorem Step.told
    (hstep : Step company deed next) (htold : Told history company) :
    Told (history ++ [deed]) next := by
  cases hstep with
  | schedule haway hjoined hschedule =>
      obtain ⟨-, rfl⟩ := Future.schedule_eq_ok_iff.mp hschedule
      exact htold.schedule (by simp [Run.start])
  | resolve result hphase hresolved =>
      exact htold.resolve (Future.stage_eq_running_iff.mpr ⟨_, hphase⟩)
        (Future.stage_eq_resolved_iff.mpr hresolved)
  | hand hphase hchannel =>
      have hshown := htold.shown _ _ (Future.stage_eq_resolved_iff.mpr hphase)
      refine htold.concat rfl (.inl rfl) (fun number result => ?_) (by simp)
      rw [channel_filling]
      split
      · rename_i hsame
        rintro ⟨⟩
        exact hsame ▸ hshown
      · exact htold.full number result
  | receive caller hlistening hchannel =>
      refine htold.concat rfl (.inl rfl) (fun number result => ?_) (by simp)
      rw [channel_placing, channel_filling]
      split
      · simp
      · exact htold.full number result
  | settle => exact htold.concat rfl (.inr rfl) htold.full (by simp)
  | hear => exact htold.concat rfl (.inl (Future.stage_queueing _)) htold.full (by simp)
  | work reports rest hphase =>
      exact htold.concat rfl (.inl (Future.stage_take_work hphase reports rest)) htold.full
        (by simp)
  | _ => exact htold.concat rfl (.inl rfl) htold.full (by simp)

/-! ## Callers -/

/-- What the history tells of the callers. -/
structure Attended (history : List Deed) (company : Company ω) : Prop where
  suits : ∀ caller, (company.stance caller).Suits history company.number caller
  closed : ∀ number, company.channel number = .closed ↔
    ∃ caller result, .receives caller number result ∈ history
  once : ∀ number caller rival result other,
    .receives caller number result ∈ history → .receives rival number other ∈ history →
      caller = rival ∧ result = other
  received : ∀ caller number result, .receives caller number result ∈ history →
    (∃ answer, company.stance caller = .holding number answer) ∨ company.Over number

namespace Attended

theorem opening
    (id : FutureId) (listens : Bool) :
    Attended [] (opening id listens : Company ω) := by
  constructor <;> simp [Company.opening, Stance.Suits]

theorem suits_of_eq
    (hattended : Attended history company) {stance : Stance}
    (hstance : company.stance caller = stance) :
    stance.Suits history company.number caller :=
  hstance ▸ hattended.suits caller

theorem le_of_received
    (hattended : Attended history company) {result : Except Failure Unit}
    (hmem : .receives caller number result ∈ history) :
    number ≤ company.number := by
  obtain ⟨answer, hholding⟩ | hover := hattended.received _ _ _ hmem
  · exact (hattended.suits_of_eq hholding).1
  · exact hover.elim Nat.le_of_lt fun hlast => Nat.le_of_eq hlast.1

/-- A caller that is in no wait has not received the result of the operation that is
there. -/
theorem not_received
    (hattended : Attended history company)
    (haway : company.stance caller = .away) (hrun : company.future.run ≠ none)
    (result : Except Failure Unit) :
    .receives caller company.number result ∉ history := by
  intro hmem
  obtain ⟨answer, hholding⟩ | hover := hattended.received _ _ _ hmem
  · simp [haway] at hholding
  · exact not_over_of_run hrun hover

/-- A caller that listens where there is nothing more to receive was overtaken. -/
theorem overtaken
    (hattended : Attended history company)
    (hlistening : company.stance caller = .listening number bound)
    (hchannel : company.channel number = .closed) :
    Overtaken history caller number := by
  obtain ⟨-, hnot⟩ := hattended.suits_of_eq hlistening
  obtain ⟨taker, result, hmem⟩ := (hattended.closed number).mp hchannel
  have htaker : taker ≠ caller := by
    rintro rfl
    exact hnot result hmem
  exact ⟨result, Caller.eq_other_of_ne htaker ▸ hmem⟩

/-- What is told of the callers stays so while nobody receives a result, and a caller that
no longer holds its answer has returned it. -/
theorem concat
    (hattended : Attended history company) (hstep : Step company deed next)
    (hdeed : ∀ caller number result, .receives caller number result ≠ deed)
    (hchannel : ∀ number, next.channel number = .closed ↔ company.channel number = .closed)
    (hstance : ∀ caller, next.stance caller = company.stance caller ∨
      (next.stance caller).Suits history next.number caller ∧
        ∀ number answer, company.stance caller = .holding number answer → next.Over number) :
    Attended (history ++ [deed]) next := by
  constructor
  · intro caller
    obtain hsame | ⟨hnew, -⟩ := hstance caller
    · rw [hsame]
      exact (hattended.suits caller).concat hstep.number_le (hdeed caller)
    · exact hnew.concat (Nat.le_refl _) (hdeed caller)
  · intro number
    simp only [hchannel, hattended.closed, List.mem_append, List.mem_singleton, hdeed, or_false]
  · simp only [List.mem_append, List.mem_singleton, hdeed, or_false]
    exact hattended.once
  · intro caller number result hmem
    simp only [List.mem_append, List.mem_singleton, hdeed, or_false] at hmem
    obtain ⟨answer, hholding⟩ | hover := hattended.received caller number result hmem
    · obtain hsame | ⟨-, hleft⟩ := hstance caller
      · exact .inl ⟨answer, hsame.trans hholding⟩
      · exact .inr (hleft number answer hholding)
    · exact .inr (hstep.over hover)

/-- One caller goes elsewhere. -/
theorem moved
    (hattended : Attended history company) (hstep : Step company deed next)
    {stance : Stance}
    (hstance : next.stance = (company.placing caller stance).stance)
    (hchannel : next.channel = company.channel)
    (hdeed : ∀ caller number result, .receives caller number result ≠ deed)
    (hsuits : stance.Suits history next.number caller)
    (hleft : ∀ number answer, company.stance caller = .holding number answer →
      next.Over number) :
    Attended (history ++ [deed]) next := by
  refine hattended.concat hstep hdeed (by simp [hchannel]) fun rival => ?_
  rw [hstance]
  by_cases hsame : rival = caller
  · subst hsame
    exact .inr (by simpa using ⟨hsuits, hleft⟩)
  · exact .inl (stance_placing_of_ne hsame ..)

/-- One caller receives a result. -/
theorem receive
    (hattended : Attended history company) {result : Except Failure Unit}
    (hlistening : company.stance caller = .listening number bound)
    (hchannel : company.channel number = .full result)
    (hresolves : .resolves number result ∈ history)
    (hstep : Step company (.receives caller number result)
      ((company.filling number .closed).placing caller (.holding number result))) :
    Attended (history ++ [.receives caller number result])
      ((company.filling number .closed).placing caller (.holding number result)) := by
  obtain ⟨hnumber, -⟩ := hattended.suits_of_eq hlistening
  have hfirst (taker : Caller) (taken : Except Failure Unit) :
      .receives taker number taken ∉ history := by
    intro hmem
    have hclosed := (hattended.closed number).mpr ⟨taker, taken, hmem⟩
    simp [hchannel] at hclosed
  constructor
  · intro rival
    by_cases hsame : rival = caller
    · subst hsame
      rw [stance_placing_self]
      exact ⟨hnumber, .inl (List.mem_append_left _ hresolves)⟩
    · rw [stance_placing_of_ne hsame]
      exact (hattended.suits rival).concat (Nat.le_refl _) (by simp [hsame])
  · intro other
    rw [channel_placing, channel_filling]
    split
    · rename_i hsame
      exact iff_of_true rfl ⟨caller, result, by simp [hsame]⟩
    · rename_i hne
      simp [hattended.closed, hne]
  · intro other taker rival taken answer htaker hrival
    simp only [List.mem_append, List.mem_singleton, Deed.receives.injEq] at htaker hrival
    obtain htaker | ⟨rfl, rfl, rfl⟩ := htaker <;> obtain hrival | ⟨rfl, heq, rfl⟩ := hrival
    · exact hattended.once other taker rival taken answer htaker hrival
    · exact absurd (heq ▸ htaker) (hfirst taker taken)
    · exact absurd hrival (hfirst rival answer)
    · exact ⟨rfl, rfl⟩
  · intro rival awaited answer hmem
    simp only [List.mem_append, List.mem_singleton, Deed.receives.injEq] at hmem
    obtain hmem | ⟨rfl, rfl, -⟩ := hmem
    · obtain ⟨held, hholding⟩ | hover := hattended.received rival awaited answer hmem
      · have hsame : rival ≠ caller := by
          rintro rfl
          simp [hlistening] at hholding
        exact .inl ⟨held, by rwa [stance_placing_of_ne hsame]⟩
      · exact .inr (hstep.over hover)
    · exact .inl ⟨result, stance_placing_self ..⟩

end Attended

theorem Step.attended
    (hstep : Step company deed next) (htold : Told history company)
    (hattended : Attended history company) :
    Attended (history ++ [deed]) next := by
  cases id hstep with
  | schedule haway hjoined hschedule =>
      refine hattended.concat hstep (by simp) (fun number => ?_) fun _ => .inl rfl
      rw [channel_scheduling]
      split
      · rename_i hsame
        refine iff_of_false nofun fun hclosed => ?_
        obtain ⟨taker, taken, hmem⟩ := (hattended.closed number).mp hclosed
        have hnumber := hattended.le_of_received hmem
        omega
      · rfl
  | hand hphase hchannel =>
      refine hattended.concat hstep (by simp) (fun number => ?_) fun _ => .inl rfl
      rw [channel_filling]
      split
      · rename_i hsame
        simp [hsame, hchannel]
      · rfl
  | wait caller bound haway hrun =>
      exact hattended.moved hstep rfl rfl (by simp)
        ⟨Nat.le_refl _, hattended.not_received haway hrun⟩ (by simp [haway])
  | receive caller hlistening hchannel =>
      exact hattended.receive hlistening hchannel (htold.full _ _ hchannel) hstep
  | miss caller hlistening hchannel =>
      obtain ⟨hnumber, -⟩ := hattended.suits_of_eq hlistening
      exact hattended.moved hstep rfl rfl (by simp)
        ⟨hnumber, .inr (.inr ⟨rfl, hattended.overtaken hlistening hchannel⟩)⟩
        (by simp [hlistening])
  | expire caller hlistening hchannel =>
      exact hattended.moved hstep rfl rfl (by simp) (hattended.suits_of_eq hlistening).1
        (by simp [hlistening])
  | giveUp caller hexpired =>
      exact hattended.moved hstep rfl rfl (by simp) trivial (by simp [hexpired])
  | settle caller hholding hjoined =>
      refine hattended.moved hstep rfl rfl (by simp) trivial ?_
      rintro number answer hsame
      obtain ⟨rfl, rfl⟩ : _ = number ∧ _ = answer := by simpa [hholding] using hsame
      exact (Nat.lt_or_eq_of_le (hattended.suits_of_eq hholding).1).imp_right fun hlast =>
        ⟨hlast, rfl⟩
  | _ => exact hattended.concat hstep (by simp) (fun _ => .rfl) fun _ => .inl rfl

/-! ## Waits that returned -/

/-- What the history tells of the waits that returned. -/
def Returned (history : List Deed) (company : Company ω) : Prop :=
  ∀ caller number answer removed, .returns caller number answer removed ∈ history →
    Answers history caller number answer ∧
      ∀ gone, removed = some gone → number ≤ gone ∧ 0 < gone ∧ company.Over gone

theorem Step.returns
    {answer : Except Failure Unit} {removed : Option Nat}
    (hstep : Step company (.returns caller number answer removed) next)
    (htold : Told history company) (hattended : Attended history company) :
    Answers history caller number answer ∧
      ∀ gone, removed = some gone → number ≤ gone ∧ 0 < gone ∧ next.Over gone := by
  cases hstep with
  | giveUp caller hexpired => exact ⟨.inr (.inl ⟨_, rfl⟩), by simp⟩
  | settle caller hholding hjoined =>
      obtain ⟨hnumber, hanswers⟩ := hattended.suits_of_eq hholding
      refine ⟨hanswers, fun gone hgone => ?_⟩
      obtain ⟨run, hrun, rfl⟩ := Option.map_eq_some_iff.mp hgone
      have hpos := htold.begun (by simp [Future.stage_eq_empty_iff, hrun])
      exact ⟨hnumber, hpos, .inr ⟨rfl, rfl⟩⟩

theorem Step.returned
    (hstep : Step company deed next) (htold : Told history company)
    (hattended : Attended history company) (hreturned : Returned history company) :
    Returned (history ++ [deed]) next := by
  intro caller number answer removed hmem
  rcases List.mem_append.mp hmem with hmem | hmem
  · obtain ⟨hanswers, hremoved⟩ := hreturned caller number answer removed hmem
    refine ⟨hanswers.concat deed, fun gone hgone => ?_⟩
    exact (hremoved gone hgone).imp_right (.imp_right hstep.over)
  · obtain rfl := List.mem_singleton.mp hmem
    exact (hstep.returns htold hattended).imp_left (·.concat _)

namespace Runs

variable {allowed : Company ω → Deed → Prop} {id : FutureId} {listens : Bool}

theorem told_attended_returned
    (hruns : Runs allowed (opening id listens) history company) :
    Told history company ∧ Attended history company ∧ Returned history company := by
  induction hruns with
  | refl => exact ⟨.opening id listens, .opening id listens, by simp [Returned]⟩
  | snoc _ hstep _ ih =>
      obtain ⟨htold, hattended, hreturned⟩ := ih
      exact ⟨hstep.told htold, hstep.attended htold hattended,
        hstep.returned htold hattended hreturned⟩

/-- However the callers overlap, the result of an operation is received once. -/
theorem receives_once
    (hruns : Runs allowed (opening id listens) history company)
    {rival : Caller} {result other : Except Failure Unit}
    (hreceives : .receives caller number result ∈ history)
    (hrival : .receives rival number other ∈ history) :
    caller = rival ∧ result = other := by
  obtain ⟨-, hattended, -⟩ := hruns.told_attended_returned
  exact hattended.once number caller rival result other hreceives hrival

/-- However the callers overlap, a wait returns the one result that its operation came to,
or that it ran out of time, or, if the other caller received that result, that there is
nothing more; and it takes no operation from the future that was there before its own. -/
theorem answers
    (hruns : Runs allowed (opening id listens) history company)
    {answer : Except Failure Unit} {removed : Option Nat}
    (hreturns : .returns caller number answer removed ∈ history) :
    Answers history caller number answer ∧
      (∀ result other, .resolves number result ∈ history → .resolves number other ∈ history →
        result = other) ∧
      ∀ gone, removed = some gone → number ≤ gone := by
  obtain ⟨htold, -, hreturned⟩ := hruns.told_attended_returned
  obtain ⟨hanswers, hremoved⟩ := hreturned caller number answer removed hreturns
  exact ⟨hanswers, htold.unique number, fun gone hgone => (hremoved gone hgone).1⟩

end Runs

end Company

end TimelineStore
