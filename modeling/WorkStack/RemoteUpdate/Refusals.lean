import WorkStack.RemoteUpdate.Placed

/-!
# Refused calls

A call that is refused is meant to leave the flow as it was. Two ways to be refused do not: a cancellation that comes
when no stage is left to cancel before is remembered although it is refused, and an answer about the recorded identity
is settled before the cancellation that waited for it is refused. Every other refusal changes nothing.
-/

namespace WorkStack.RemoteUpdate

/-! ## Whole calls -/

/-- The end of a turn, with the answer to what it asks. -/
def Turn.finish (answer : Answer) : Turn → Ending × Flow
  | .ends ending flow => (ending, flow)
  | .asks question flow => flow.answered question answer

/-- A whole call, with the answer to what it asks. -/
def Call.finish (call : Call) (operationId : String) (answer : Answer) (flow : Flow) : Ending × Flow :=
  (call.begin operationId flow).finish answer

/-- A call that is refused leaves the flow as it was. -/
def Flow.RefusedUnchanged (flow : Flow) (finished : Ending × Flow) : Prop :=
  ∀ code, finished.1 = .refused code → finished.2 = flow

namespace Flow

variable (flow : Flow)

/-- No stage is left that a cancellation could come before. -/
def BehindLast : Prop := flow.order.stages.length ≤ flow.index + 1

/-- A cancellation is asked for the first time when no stage is left to come before. -/
def CancelsTooLate (call : Call) : Prop :=
  call = .cancel ∧ flow.cancelRequested = false ∧ flow.activation = none ∧ flow.pending = none ∧ flow.stage ≠ .ready ∧
    flow.stage ≠ .cancelled ∧ flow.BehindLast

/-- A code that settles an identity, moves nothing forward and leaves no activation held. -/
def Releases (code : Code) : Prop :=
  code.keepsOpen = false ∧ code ≠ .activatePendingRestart ∧ code ∉ progressCodes ∧
    (code = .rollbackVerified ∨ flow.activation = none)

/-- An answer settles the recorded identity when no stage is left for the cancellation that waited for it. -/
def SettlesTooLate (call : Call) (answer : Answer) : Prop :=
  (call = .advance ∨ call = .reconcile) ∧ flow.cancelRequested = true ∧ flow.BehindLast ∧
    ∃ pending, flow.pending = some pending ∧ ∃ code,
      (Question.observe pending.kind pending.operationId).answerCode answer = some code ∧ flow.Releases code

end Flow

/-! ## Cancelling -/

theorem Ordered.cancelCode_eq_none {order : RunOrder} (h : Ordered order) (index : ℕ) :
    order.cancelCode (order.stages[index]?.getD .verify) = none ↔ order.stages.length ≤ index + 1 := by
  have hlength := h.length
  have hverify := h.verify
  have hmem : order.stages[index]?.getD .verify ∈ order.stages := by
    cases hstage : order.stages[index]? with
    | none =>
        apply List.idxOf_lt_length_iff.mp
        change order.index .verify < _
        omega
    | some stage => exact List.mem_of_getElem? hstage
  have hindex : order.stages.idxOf (order.stages[index]?.getD .verify) = min index (order.stages.length - 1) := by
    cases hstage : order.stages[index]? with
    | none =>
        have hle := List.getElem?_eq_none_iff.mp hstage
        change order.index .verify = _
        omega
    | some stage =>
        have hlt := (List.getElem?_eq_some_iff.mp hstage).1
        rw [Option.getD_some]
        have heq := h.index_eq hstage
        change order.index stage = _
        omega
  have hdrop : order.stages[index]?.getD .verify ∈ order.stages.dropLast ↔ index + 1 < order.stages.length := by
    rw [List.dropLast_eq_take, List.mem_take_iff_idxOf_lt hmem, hindex]
    omega
  unfold RunOrder.cancelCode
  split
  · rename_i hin
    have := hdrop.mp hin
    simp only [reduceCtorEq, false_iff]
    omega
  · rename_i hout
    have := mt hdrop.mpr hout
    simp only [true_iff]
    omega

namespace Flow

variable {flow : Flow}

theorem settleCancelled_behind (hordered : Ordered flow.order) (h : flow.BehindLast) :
    flow.settleCancelled = (.refused .cancelRefusedActivationCommitted, flow) := by
  unfold settleCancelled
  rw [(hordered.cancelCode_eq_none flow.index).mpr h]

theorem settleCancelled_before (hordered : Ordered flow.order) (h : ¬flow.BehindLast) :
    flow.settleCancelled.1 = .returned := by
  unfold settleCancelled
  cases hcode : flow.order.cancelCode (flow.order.stages[flow.index]?.getD .verify) with
  | none => exact absurd ((hordered.cancelCode_eq_none flow.index).mp hcode) h
  | some code => rfl

/-! ## Turns that keep the flow when they refuse -/

/-- A turn that observes nothing and does not end with a refusal. -/
def Accepting : Turn → Prop
  | .ends ending _ => ∀ code, ending ≠ .refused code
  | .asks question _ => ∀ kind operationId, question ≠ .observe kind operationId

theorem accepting_returned (flow' : Flow) : Accepting (.ends .returned flow') := by
  intro code h
  cases h

variable {operationId : String}

theorem accepting_issue {kind : Kind} {codeOnly : Bool} :
    Accepting (flow.issue kind operationId codeOnly) := by
  intro kind' operationId' h
  cases h

theorem accepting_run (operationId : String) : Accepting (flow.run operationId) := by
  unfold run
  split
  · exact fun _ _ h ↦ by cases h
  · exact accepting_issue
  · exact accepting_issue
  · unfold runPrepare
    split_ifs
    · exact accepting_issue
    · exact accepting_returned _
    · exact accepting_issue
  · unfold runProbe
    split_ifs
    · exact accepting_returned _
    · exact fun _ _ h ↦ by cases h
  · unfold runActivate
    exact accepting_issue
  · exact fun _ _ h ↦ by cases h
  · exact fun _ h ↦ by cases h

/-- A turn that observes nothing and leaves the flow as it was if it ends with a refusal. -/
def Keeps (flow : Flow) : Turn → Prop
  | .ends ending flow' => ∀ code, ending = .refused code → flow' = flow
  | .asks question _ => ∀ kind operationId, question ≠ .observe kind operationId

theorem keeps_refuse (code : RefusalCode) : flow.Keeps (flow.refuse code) := fun _ _ ↦ rfl

theorem keeps_settleCancelled : flow.Keeps (endWith flow.settleCancelled) := by
  intro code h
  change flow.settleCancelled.1 = .refused code at h
  unfold settleCancelled at *
  cases hcode : flow.order.cancelCode (flow.order.stages[flow.index]?.getD .verify) with
  | none => rfl
  | some code =>
      rw [hcode] at h
      cases h

theorem Accepting.keeps {turn : Turn} (h : Accepting turn) : flow.Keeps turn := by
  cases turn with
  | ends ending flow' => exact fun code hrefused ↦ absurd hrefused (h code)
  | asks question flow' => exact h

theorem keeps_advance (hpending : flow.pending = none) (operationId : String) :
    flow.Keeps (flow.advance operationId) := by
  unfold advance
  rw [hpending]
  dsimp only
  split_ifs
  · exact keeps_refuse _
  · exact keeps_refuse _
  · exact keeps_refuse _
  · exact keeps_refuse _
  · exact keeps_settleCancelled
  · exact (accepting_run operationId).keeps

theorem keeps_retry (operationId : String) : flow.Keeps (flow.retry operationId) := by
  unfold retry
  split_ifs
  · exact keeps_refuse _
  · exact keeps_refuse _
  · exact keeps_refuse _
  · exact keeps_refuse _
  · exact keeps_settleCancelled
  · exact (accepting_run operationId).keeps

theorem keeps_resumeAfterRestart (evidence : Option StartupEvidence) :
    flow.Keeps (flow.resumeAfterRestart evidence) := by
  unfold resumeAfterRestart
  split
  · exact keeps_refuse _
  split
  · exact keeps_refuse _
  split
  · exact keeps_refuse _
  split
  · exact (accepting_returned _).keeps
  · exact accepting_issue.keeps

theorem keeps_restore (operationId : String) : flow.Keeps (flow.restore operationId) := by
  unfold restore
  split_ifs
  · exact keeps_refuse _
  · exact keeps_refuse _
  · exact accepting_issue.keeps

theorem keeps_rollback : flow.Keeps flow.rollback := by
  unfold rollback
  split_ifs
  · exact keeps_refuse _
  · exact keeps_refuse _
  · exact keeps_refuse _
  split
  · exact keeps_refuse _
  · exact accepting_issue.keeps

/-- Only an observation is answered with a refusal. -/
theorem answered_ne_refused {question : Question} (h : ∀ kind operationId, question ≠ .observe kind operationId)
    (answer : Answer) (code : RefusalCode) : (flow.answered question answer).1 ≠ .refused code := by
  cases question with
  | describe => cases answer <;> exact fun h ↦ by cases h
  | probe operationId =>
      cases answer with
      | probe outcome =>
          change (probeAnswered flow (.probe outcome)).1 ≠ _
          unfold probeAnswered
          dsimp only
          split <;> simp
      | _ => exact fun h ↦ by cases h
  | verify operationId => cases answer <;> exact fun h ↦ by cases h
  | issue kind operationId codeOnly => cases answer <;> exact fun h ↦ by cases h
  | observe kind operationId => exact absurd rfl (h kind operationId)

theorem refusedUnchanged_of_keeps {turn : Turn} (h : flow.Keeps turn) (answer : Answer) :
    flow.RefusedUnchanged (turn.finish answer) := by
  intro code hrefused
  cases turn with
  | ends ending flow' => exact h code hrefused
  | asks question flow' => exact absurd hrefused (answered_ne_refused h answer code)

/-! ## Cancelling late -/

theorem cancel_refusedUnchanged (hordered : Ordered flow.order) (answer : Answer) :
    flow.RefusedUnchanged (flow.cancel.finish answer) ↔ ¬flow.CancelsTooLate .cancel := by
  unfold cancel
  by_cases hheld : flow.activationHeld = true
  · rw [if_pos hheld]
    have hsome : flow.activation ≠ none := Option.isSome_iff_ne_none.mp hheld
    simp [RefusedUnchanged, CancelsTooLate, refuse, Turn.finish, hsome]
  · rw [if_neg hheld]
    have hnone : flow.activation = none := Option.not_isSome_iff_eq_none.mp hheld
    dsimp only
    split_ifs with hpending hterminal
    · have hsome : flow.pending ≠ none := Option.isSome_iff_ne_none.mp hpending
      simp [RefusedUnchanged, CancelsTooLate, Turn.finish, hsome]
    · have hstage : ¬(flow.stage ≠ .ready ∧ flow.stage ≠ .cancelled) := by
        rintro ⟨hready, hcancelled⟩
        exact hterminal.elim hready hcancelled
      simp [RefusedUnchanged, CancelsTooLate, Turn.finish]
      tauto
    · have hsettled : flow.pending = none := Option.not_isSome_iff_eq_none.mp hpending
      rw [not_or] at hterminal
      by_cases hbehind : flow.BehindLast
      · have hcancelled := @settleCancelled_behind { flow with cancelRequested := true } hordered hbehind
        rw [hcancelled]
        constructor
        · intro hunchanged hlate
          have hsame := hunchanged _ rfl
          have hrequested : flow.cancelRequested = true := by
            rw [← hsame]
            rfl
          rw [hlate.2.1] at hrequested
          cases hrequested
        · intro hlate code _
          have hrequested : flow.cancelRequested = true := by
            by_contra hne
            exact hlate ⟨rfl, Bool.eq_false_iff.mpr hne, hnone, hsettled, hterminal.1, hterminal.2, hbehind⟩
          change { flow with cancelRequested := true } = flow
          rw [← hrequested]
      · have hreturned := @settleCancelled_before { flow with cancelRequested := true } hordered hbehind
        constructor
        · exact fun _ hlate ↦ hbehind hlate.2.2.2.2.2.2
        · intro _ code hrefused
          change (settleCancelled { flow with cancelRequested := true }).1 = .refused code at hrefused
          rw [hreturned] at hrefused
          cases hrefused

/-! ## Settling late -/

theorem cancelRequested_decideOutcome {classify : Classifier} {answer : Answer} {decided : Flow} {decision : Decision}
    (h : flow.decideOutcome classify answer = some (decided, decision)) :
    decided.cancelRequested = flow.cancelRequested := by
  unfold decideOutcome at h
  split at h
  · cases h
    rfl
  · cases h
    rfl
  · cases h
    rfl
  · cases h
    split <;> rfl
  · cases h
    split <;> rfl
  · cases h
    split <;> rfl
  · cases h
    split <;> rfl
  · cases h

theorem cancelRequested_settle (decision : Decision) (operationId : String) :
    (flow.settle decision operationId).cancelRequested = flow.cancelRequested := by
  unfold settle settleRecord
  dsimp only
  split_ifs <;> split <;> (try split_ifs) <;> rfl

/-- A settled identity is followed by a refusal where a cancellation waits for it and no stage is left. -/
theorem reconciled_refused_iff (hordered : Ordered flow.order) :
    (∃ code, flow.reconciled.1 = .refused code) ↔
      flow.cancelRequested = true ∧ flow.pending = none ∧ flow.activation = none ∧ flow.BehindLast := by
  unfold reconciled
  split
  · rename_i h
    obtain ⟨hrequested, hpending, hheld⟩ := h
    have hpending := Option.isNone_iff_eq_none.mp hpending
    have hactivation : flow.activation = none := Option.not_isSome_iff_eq_none.mp hheld
    by_cases hbehind : flow.BehindLast
    · rw [settleCancelled_behind hordered hbehind]
      simp [hrequested, hpending, hactivation, hbehind]
    · have hreturned := settleCancelled_before hordered hbehind
      rw [hreturned]
      simp [hbehind]
  · rename_i h
    constructor
    · rintro ⟨code, hcode⟩
      cases hcode
    · rintro ⟨hrequested, hpending, hactivation, -⟩
      apply absurd _ h
      refine ⟨hrequested, Option.isNone_iff_eq_none.mpr hpending, ?_⟩
      rw [activationHeld, hactivation]
      simp

/-- What a settled identity leaves: nothing recorded at the end of the order, exactly where the code releases it. -/
theorem settled_released_iff {kind : Kind} {answer : Answer} {code : Code} {decided : Slots} (operationId : String)
    (hordered : Ordered flow.order) (hkind : code ∈ progressCodes → code ≠ .activateCommitted → kind ∈ stageKinds)
    (hdecides : Decides kind answer code flow.slots decided) :
    ((decided.settled kind operationId code).pending = none ∧
      (decided.settled kind operationId code).activation = none ∧
      (decided.settled kind operationId code).order.stages.length ≤ (decided.settled kind operationId code).index + 1) ↔
    flow.BehindLast ∧ flow.Releases code := by
  have horder : decided.order = flow.order := hdecides.order
  have hindex : decided.index = flow.index := hdecides.index
  have hactivation : decided.activation = flow.activation := hdecides.activation
  unfold Slots.settled
  split_ifs with hopen hwritten hcommitted hrolledBack hprogress
  · simp [Slots.recorded, Releases, hopen]
  · simp [Slots.recorded, Releases, hwritten]
  · have hprogress : code ∈ progressCodes := by
      rw [hcommitted]
      decide
    simp [Slots.recorded, Releases, hprogress]
  · have hcode : Code.rollbackVerified.keepsOpen = false ∧ Code.rollbackVerified ∉ progressCodes := by decide
    simp [Slots.recorded, Releases, BehindLast, hcode, hrolledBack, horder, hindex]
  · have hlt := hordered.stageKind_lt (hkind hprogress hcommitted)
    have hlength := hordered.length
    have hshort : ¬flow.order.stages.length ≤ flow.order.index kind.spec.stage + 1 + 1 := by omega
    simp [Slots.recorded, Releases, hprogress, horder, hshort]
  · simp [Slots.recorded, Releases, BehindLast, hopen, hwritten, hrolledBack, hprogress, horder, hindex, hactivation]
    tauto

/-- An observation is refused exactly when its answer settles the identity too late for the cancellation. -/
theorem observeAnswered_refused_iff {kind : Kind} (hkind : kind.isAnchor = false) (hordered : Ordered flow.order)
    (operationId : String) (answer : Answer) :
    (∃ code, (flow.observeAnswered kind operationId answer).1 = .refused code) ↔
      flow.cancelRequested = true ∧ flow.BehindLast ∧
        ∃ code, (Question.observe kind operationId).answerCode answer = some code ∧ flow.Releases code := by
  by_cases herror : answer = .otherError
  · rw [herror]
    simp [observeAnswered, Question.answerCode]
  have hcode : (Question.observe kind operationId).answerCode answer =
      some ((kind.spec.classify.code answer).getD kind.spec.openCode) := by
    unfold Question.answerCode
    split <;> simp_all
  rw [hcode]
  by_cases hlost : answer = .lostResponse ∨ answer = .portRefusal
  · have hreturned : (flow.observeAnswered kind operationId answer).1 = .returned := by
      rcases hlost with rfl | rfl <;> rfl
    have hnone : kind.spec.classify.code answer = none := by
      rcases hlost with rfl | rfl <;> cases kind <;> rfl
    simp [hreturned, hnone, Releases, keepsOpen_openCode]
  rw [not_or] at hlost
  rw [observeAnswered_of herror hlost.1 hlost.2]
  cases hdecided : flow.decideOutcome kind.spec.classify answer with
  | none =>
      rw [code_of_decideOutcome_none hdecided]
      simp [Releases, keepsOpen_openCode]
  | some found =>
      obtain ⟨decided, decision⟩ := found
      obtain ⟨hmem, houtcome, hdecides⟩ := decideOutcome_spec hdecided
      have hslots := Flow.slots_settle decided operationId hkind hmem
      have hprogress : decision.2 ∈ progressCodes → decision.2 ≠ .activateCommitted → kind ∈ stageKinds := by
        have hcodes : ∀ kind : Kind, kind.isAnchor = false → ∀ decision ∈ kind.decisions,
            decision.2 ∈ progressCodes → decision.2 ≠ .activateCommitted → kind ∈ stageKinds := by
          intro kind
          cases kind <;> decide
        exact hcodes kind hkind decision hmem
      have horder : (decided.settle decision operationId).order = flow.order := by
        change (decided.settle decision operationId).slots.order = _
        rw [hslots, settled_order]
        exact hdecides.order
      have hreleased : (decided.settle decision operationId).pending = none ∧
          (decided.settle decision operationId).activation = none ∧ (decided.settle decision operationId).BehindLast ↔
          flow.BehindLast ∧ flow.Releases decision.2 := by
        rw [← settled_released_iff operationId hordered hprogress hdecides, ← hslots]
        rfl
      dsimp only
      rw [reconciled_refused_iff (horder ▸ hordered), cancelRequested_settle, cancelRequested_decideOutcome hdecided,
        hreleased, houtcome, Option.getD_some]
      simp

/-- A refusal of a settled answer comes with nothing recorded any more. -/
theorem pending_of_observeAnswered {kind : Kind} {answer : Answer} {code : RefusalCode}
    (h : (flow.observeAnswered kind operationId answer).1 = .refused code) :
    (flow.observeAnswered kind operationId answer).2.pending = none := by
  have hreconciled : ∀ settled : Flow, settled.reconciled.1 = .refused code → settled.reconciled.2.pending = none := by
    intro settled hrefused
    change settled.reconciled.2.slots.pending = none
    rw [settled.slots_reconciled]
    unfold reconciled at hrefused
    split at hrefused
    · rename_i hwaits
      exact Option.isNone_iff_eq_none.mp hwaits.2.1
    · cases hrefused
  unfold observeAnswered at *
  split at h
  · cases h
  · cases h
  · cases h
  · split at h
    · exact hreconciled _ h
    · cases h

/-- An observation leaves the flow as it was, if it is refused, exactly where it is not refused. -/
theorem observe_refusedUnchanged {pending : PendingOperation} (hpending : flow.pending = some pending)
    (answer : Answer) : flow.RefusedUnchanged ((flow.askPending pending).finish answer) ↔
      ¬∃ code, (flow.observeAnswered pending.kind pending.operationId answer).1 = .refused code := by
  constructor
  · rintro hunchanged ⟨code, hrefused⟩
    have hsame : (flow.observeAnswered pending.kind pending.operationId answer).2 = flow := hunchanged code hrefused
    have hnone := pending_of_observeAnswered hrefused
    rw [hsame, hpending] at hnone
    cases hnone
  · intro hreturned code hrefused
    exact absurd ⟨code, hrefused⟩ hreturned

theorem refusedUnchanged_iff_of_keeps {call : Call} (answer : Answer)
    (hkeeps : flow.Keeps (call.begin operationId flow)) (hcancel : call ≠ .cancel)
    (hpending : call = .advance ∨ call = .reconcile → flow.pending = none) :
    flow.RefusedUnchanged (call.finish operationId answer flow) ↔
      ¬flow.CancelsTooLate call ∧ ¬flow.SettlesTooLate call answer := by
  constructor
  · intro _
    constructor
    · exact fun hlate ↦ hcancel hlate.1
    · rintro ⟨hcall, -, -, pending, hsome, -⟩
      rw [hpending hcall] at hsome
      cases hsome
  · exact fun _ ↦ refusedUnchanged_of_keeps hkeeps answer

theorem refusedUnchanged_iff_of_observe {call : Call} {pending : PendingOperation} (answer : Answer)
    (hbegin : call.begin operationId flow = flow.askPending pending) (hcall : call = .advance ∨ call = .reconcile)
    (hpending : flow.pending = some pending) (hkind : pending.kind.isAnchor = false) (hordered : Ordered flow.order) :
    flow.RefusedUnchanged (call.finish operationId answer flow) ↔
      ¬flow.CancelsTooLate call ∧ ¬flow.SettlesTooLate call answer := by
  have hcancel : ¬flow.CancelsTooLate call := by
    intro hlate
    have hnone := hlate.2.2.2.1
    rw [hpending] at hnone
    cases hnone
  have hsettles : flow.SettlesTooLate call answer ↔
      ∃ code, (flow.observeAnswered pending.kind pending.operationId answer).1 = .refused code := by
    rw [observeAnswered_refused_iff hkind hordered]
    simp [SettlesTooLate, hcall, hpending]
  rw [Call.finish, hbegin, observe_refusedUnchanged hpending, hsettles]
  exact (and_iff_right hcancel).symm

end Flow

/-! ## The calls of a run -/

theorem inPlace (prepareBeforeStop : Bool) (moves : List Move) : InPlace (System.after prepareBeforeStop moves) :=
  System.invariant (InPlace.start prepareBeforeStop) (fun _ _ _ ↦ InPlace.step) moves

/-- In every state of every run, a call leaves the flow as it was if it is refused, exactly when it is neither a first
cancellation nor a settling answer that come too late to cancel. -/
theorem refused_call_changes_nothing_iff (prepareBeforeStop : Bool) (moves : List Move) (call : Call)
    (operationId : String) (answer : Answer) :
    (System.after prepareBeforeStop moves).flow.RefusedUnchanged
        (call.finish operationId answer (System.after prepareBeforeStop moves).flow) ↔
      ¬(System.after prepareBeforeStop moves).flow.CancelsTooLate call ∧
        ¬(System.after prepareBeforeStop moves).flow.SettlesTooLate call answer := by
  have hplace := inPlace prepareBeforeStop moves
  have hordered : Ordered (System.after prepareBeforeStop moves).flow.order := hplace.placed.ordered
  have hkind := hplace.standing.recorded.pending
  cases call with
  | advance =>
      cases hpending : (System.after prepareBeforeStop moves).flow.pending with
      | none =>
          apply Flow.refusedUnchanged_iff_of_keeps answer (Flow.keeps_advance hpending operationId) (by simp)
          exact fun _ ↦ hpending
      | some pending =>
          apply Flow.refusedUnchanged_iff_of_observe answer _ (.inl rfl) hpending (hkind pending hpending).1 hordered
          unfold Call.begin Flow.advance
          rw [hpending]
  | reconcile =>
      cases hpending : (System.after prepareBeforeStop moves).flow.pending with
      | none =>
          apply Flow.refusedUnchanged_iff_of_keeps answer _ (by simp) fun _ ↦ hpending
          unfold Call.begin Flow.reconcile
          rw [hpending]
          exact Flow.keeps_refuse _
      | some pending =>
          apply Flow.refusedUnchanged_iff_of_observe answer _ (.inr rfl) hpending (hkind pending hpending).1 hordered
          unfold Call.begin Flow.reconcile
          rw [hpending]
  | cancel =>
      refine (Flow.cancel_refusedUnchanged hordered answer).trans (and_iff_left ?_).symm
      exact fun hlate ↦ by simp [Flow.SettlesTooLate] at hlate
  | retry => exact Flow.refusedUnchanged_iff_of_keeps answer (Flow.keeps_retry operationId) (by simp) (by simp)
  | resumeAfterRestart evidence =>
      exact Flow.refusedUnchanged_iff_of_keeps answer (Flow.keeps_resumeAfterRestart evidence) (by simp) (by simp)
  | restore => exact Flow.refusedUnchanged_iff_of_keeps answer (Flow.keeps_restore operationId) (by simp) (by simp)
  | rollback => exact Flow.refusedUnchanged_iff_of_keeps answer Flow.keeps_rollback (by simp) (by simp)

/-- An update that is activated, and its activation then rolled back. -/
def rolledBackMoves : List Move :=
  verifiedMoves false ++
    stageMoves "activation" (.activation ⟨.str "verified", .bool true, .str "pending", .bool true, .null, .null⟩) ++
    [.call (.resumeAfterRestart (some ⟨.str "activation", .str "verified", .str "verified"⟩)) "resume", .port,
      .answer (.activation ⟨.str "verified", .bool true, .str "confirmed", .bool false, .null, .null⟩),
      .call .rollback "rollback", .port, .answer (.rollback ⟨.str "verified", .bool true⟩)]

/-- Behind the last stage a cancellation is refused, and remembered. -/
theorem refused_cancel_is_remembered :
    ¬∀ (prepareBeforeStop : Bool) (moves : List Move) (call : Call) (operationId : String) (answer : Answer),
      (System.after prepareBeforeStop moves).flow.RefusedUnchanged
        (call.finish operationId answer (System.after prepareBeforeStop moves).flow) := by
  intro h
  have hsame := h false rolledBackMoves .cancel "cancel" .otherError .cancelRefusedActivationCommitted
    (by decide)
  have hbefore : (System.after false rolledBackMoves).flow.cancelRequested = false := by decide
  have hafter : (Call.cancel.finish "cancel" .otherError
      (System.after false rolledBackMoves).flow).2.cancelRequested = true := by decide
  rw [hsame, hbefore] at hafter
  cases hafter

end WorkStack.RemoteUpdate
