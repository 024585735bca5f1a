import WorkStack.RemoteUpdate.Recorded

/-!
# No mutation over an open one

A mutation is open from the call of its port on, until an answer about it brings a code that does not
keep it open. The flow holds every open mutation as its pending identity, across any number of
restarts, and with a pending identity it asks nothing but what has become of it.
-/

namespace WorkStack.RemoteUpdate

open WorkStack.Effect

/-- The mutations of a history, and what settles them. -/
def mutations : Requesting Event (Kind × String) where
  issues
    | .issued (.issue kind operationId _) => some (kind, operationId)
    | _ => none
  settles
    | .answered question answer, identity => question.identity = some identity && question.settles answer
    | _, _ => false

/-- While a mutation is open, only its own observation goes out. -/
def AllowedOver (identity : Kind × String) : Event → Prop
  | .issued question => question = .observe identity.1 identity.2
  | _ => True

/-- An open mutation is the pending one, and nothing has been issued over it. -/
structure InFlight (s : System) : Prop where
  standing : Standing s
  covered : ∀ identity ∈ mutations.openAfter s.history,
    ∃ pending, s.flow.pending = some pending ∧ (pending.kind, pending.operationId) = identity
  issuing : ∀ kind operationId codeOnly, s.phase = .asking (.issue kind operationId codeOnly) →
    mutations.openAfter s.history = none
  orderly : mutations.Orderly AllowedOver s.history

variable {question : Question}

theorem Asks.pending_cases {slots slots' : Slots} {call : Call} {operationId : String}
    (h : Asks slots call operationId question slots') : slots'.pending = slots.pending ∨ slots.pending = none := by
  cases h with
  | observe => exact Or.inl rfl
  | read => exact Or.inl rfl
  | mutate kind codeOnly hkind hpending => exact Or.inr hpending
  | activate hpending => exact Or.inr hpending
  | confirm hpending => exact Or.inr hpending
  | restore hpending => exact Or.inr hpending
  | rollback hpending => exact Or.inr hpending

theorem Asks.pending_of_issue {slots slots' : Slots} {call : Call} {operationId issued : String} {kind : Kind} {codeOnly : Bool}
    (h : Asks slots call operationId (.issue kind issued codeOnly) slots') : slots.pending = none := by
  cases h with
  | read hreads => cases hreads
  | mutate kind codeOnly hkind hpending => exact hpending
  | activate hpending => exact hpending
  | confirm hpending => exact hpending
  | restore hpending => exact hpending
  | rollback hpending => exact hpending

namespace InFlight

variable {s : System}

theorem start (prepareBeforeStop : Bool) : InFlight (System.start prepareBeforeStop) where
  standing := Standing.start prepareBeforeStop
  covered := fun identity h ↦ by cases h
  issuing := fun _ _ _ _ ↦ rfl
  orderly := trivial

theorem closed (h : InFlight s) (hpending : s.flow.pending = none) : mutations.openAfter s.history = none := by
  apply Option.eq_none_iff_forall_not_mem.mpr
  intro identity hopen
  obtain ⟨pending, hsome, _⟩ := h.covered identity hopen
  rw [hpending] at hsome
  cases hsome

theorem asks (h : InFlight s) {call : Call} {operationId : String} {flow : Flow} {drawn : List String}
    (hstanding : Standing { s with flow, phase := .asking question, drawn })
    (hasks : Asks s.flow.slots call operationId question flow.slots) :
    InFlight { s with flow, phase := .asking question, drawn } := by
  have hkept := hasks.pending_cases
  constructor
  · exact hstanding
  · intro identity hopen
    rcases hkept with hsame | hnone
    · change ∃ pending, flow.slots.pending = some pending ∧ _
      rw [hsame]
      exact h.covered identity hopen
    · change identity ∈ mutations.openAfter s.history at hopen
      rw [h.closed hnone] at hopen
      cases hopen
  · intro kind operationId' codeOnly hphase
    have hquestion : question = .issue kind operationId' codeOnly := Phase.asking.inj hphase
    subst hquestion
    exact h.closed hasks.pending_of_issue
  · exact h.orderly

theorem port (h : InFlight s) (hphase : s.phase = .asking question)
    (hstanding : Standing { s with phase := .waiting question, history := .issued question :: s.history }) :
    InFlight { s with phase := .waiting question, history := .issued question :: s.history } := by
  have hasked : Asked s.flow.slots question := by
    have h := h.standing.asked
    rwa [hphase] at h
  constructor
  · exact hstanding
  · intro identity hopen
    cases hissues : mutations.issues (.issued question) with
    | none => exact h.covered identity (Requesting.openAfter_other hissues hopen).1
    | some issued =>
        change mutations.openAfter (.issued question :: s.history) = some identity at hopen
        rw [Requesting.openAfter_issue hissues, Option.some.injEq] at hopen
        subst hopen
        cases question with
        | issue kind operationId codeOnly =>
            cases hissues
            exact hasked
        | _ => cases hissues
  · intro kind operationId codeOnly hwaiting
    cases hwaiting
  · refine ⟨fun identity hopen ↦ ?_, h.orderly⟩
    obtain ⟨pending, hpending, hidentity⟩ := h.covered identity hopen
    cases question with
    | issue kind operationId codeOnly =>
        rw [h.issuing _ _ _ hphase] at hopen
        cases hopen
    | observe kind operationId =>
        obtain ⟨asked, hasked, hquestion⟩ := hasked
        have hsame : asked = pending := Option.some.inj (hasked.symm.trans hpending)
        rw [hsame, hidentity] at hquestion
        rw [hquestion]
        rfl
    | _ =>
        have hnone : s.flow.pending = none := hasked.1
        rw [hnone] at hpending
        cases hpending

/-- An answer that leaves an identity open leaves it pending. -/
theorem pending_of_open {slots slots' : Slots} {answer : Answer} {identity : Kind × String}
    (hasked : Asked slots question) (hanswers : Answers slots question answer slots')
    (hpending : ∃ pending, slots.pending = some pending ∧ (pending.kind, pending.operationId) = identity)
    (hopen : mutations.settles (.answered question answer) identity = false) :
    ∃ pending, slots'.pending = some pending ∧ (pending.kind, pending.operationId) = identity := by
  cases hanswers with
  | quiet => exact hpending
  | previewed => exact hpending
  | probed => exact hpending
  | finished hreads =>
      cases question with
      | issue => cases hreads
      | observe => cases hreads
      | _ =>
          have hnone : slots.pending = none := hasked.1
          obtain ⟨pending, hsome, _⟩ := hpending
          rw [hnone] at hsome
          cases hsome
  | settled hidentity hdecision hcode hdecided =>
      rename_i kind operationId decision decided
      unfold Asked at hasked
      rw [hidentity] at hasked
      obtain ⟨asked, hasked, hquestion⟩ := hasked
      obtain ⟨pending, hsome, hown⟩ := hpending
      have hsame : asked = pending := Option.some.inj (hasked.symm.trans hsome)
      have heq : identity = (kind, operationId) := by rw [← hown, ← hsame, hquestion]
      have hkept : decision.2.keepsOpen := by
        simpa [mutations, Question.settles, hidentity, hcode, heq] using hopen
      unfold Slots.settled
      rw [if_pos hkept]
      exact ⟨_, rfl, heq.symm⟩

theorem answer (h : InFlight s) {answer : Answer} (hphase : s.phase = .waiting question)
    (hstanding : Standing { s with
      flow := (s.flow.answered question answer).2
      phase := .idle
      history := .answered question answer :: s.history }) :
    InFlight { s with
      flow := (s.flow.answered question answer).2
      phase := .idle
      history := .answered question answer :: s.history } := by
  have hasked : Asked s.flow.slots question := by
    have h := h.standing.asked
    rwa [hphase] at h
  constructor
  · exact hstanding
  · intro identity hopen
    obtain ⟨hbefore, hsettles⟩ := Requesting.openAfter_other rfl hopen
    exact pending_of_open hasked (h.standing.answers hphase answer) (h.covered identity hbefore) hsettles
  · intro kind operationId codeOnly hidle
    cases hidle
  · exact ⟨fun _ _ ↦ trivial, h.orderly⟩

theorem restart (h : InFlight s)
    (hstanding : Standing { s with
      flow := Flow.build s.flow.order s.flow.journal
      phase := .idle
      history := .rebuilt s.flow.journal :: s.history }) :
    InFlight { s with
      flow := Flow.build s.flow.order s.flow.journal
      phase := .idle
      history := .rebuilt s.flow.journal :: s.history } := by
  have hpending : (Flow.build s.flow.order s.flow.journal).pending = s.flow.pending :=
    (resumes h.standing.recorded).pending
  constructor
  · exact hstanding
  · intro identity hopen
    obtain ⟨hbefore, _⟩ := Requesting.openAfter_other rfl hopen
    rw [hpending]
    exact h.covered identity hbefore
  · intro kind operationId codeOnly hidle
    cases hidle
  · exact ⟨fun _ _ ↦ trivial, h.orderly⟩

theorem step (s : System) (move : Move) (s' : System) (h : InFlight s) (hstep : Steps s move s') : InFlight s' := by
  have hstanding := h.standing.step hstep
  cases hstep with
  | quiet hphase hslots =>
      constructor
      · exact hstanding
      · intro identity hopen
        have hpending := congrArg Slots.pending hslots
        change _ = s.flow.pending at hpending
        change ∃ pending, Slots.pending (Flow.slots _) = _ ∧ _
        rw [hpending]
        exact h.covered identity hopen
      · intro kind operationId codeOnly hasking
        change s.phase = _ at hasking
        rw [hphase] at hasking
        cases hasking
      · exact h.orderly
  | asks hphase hnew hasks => exact h.asks hstanding hasks
  | port hphase => exact h.port hphase hstanding
  | answer hphase => exact h.answer hphase hstanding
  | restart => exact h.restart hstanding

end InFlight

/-- In every run, whatever the ports answer and wherever it is interrupted: while a mutation is open,
nothing goes out but its own observation; and the journal holds exactly the receipt and the identity
that the flow holds. -/
theorem no_mutation_over_open (prepareBeforeStop : Bool) (moves : List Move) :
    (∀ later earlier question kind operationId,
      (System.after prepareBeforeStop moves).history = later ++ .issued question :: earlier →
      mutations.openAfter earlier = some (kind, operationId) → question = .observe kind operationId) ∧
    (System.after prepareBeforeStop moves).flow.journal =
      (System.after prepareBeforeStop moves).flow.activation.toList ++
        (System.after prepareBeforeStop moves).flow.pending.toList := by
  have h := System.invariant (InFlight.start prepareBeforeStop) InFlight.step moves
  constructor
  · intro later earlier question kind operationId hhistory hopen
    exact h.orderly.at hhistory hopen
  · exact h.standing.recorded.journal

end WorkStack.RemoteUpdate
