import WorkStack.RemoteUpdate.Refusals

/-!
# What the update screen offers

The actions of a snapshot are read off tables of codes and the place in the order, the refusals of the calls off the
slots. They agree because the stage and the code of a flow show, while no identity is recorded, whether a receipt waits
for its restart and whether an update behind the last stage is over. One offer can still be refused: a reconciliation
whose answer settles the identity when no stage is left for the cancellation that waited for it.
-/

namespace WorkStack.RemoteUpdate

open WorkStack.Effect

/-! ## What an offer names -/

/-- The call that an action of the flow names. -/
def Action.call? : Action → Option Call
  | .run _ => some .advance
  | .runPrepareCodeOnly => some .advance
  | .retryStage => some .retry
  | .reconcilePending => some .reconcile
  | .restoreBackup => some .restore
  | .rollbackActivation => some .rollback
  | .cancel => some .cancel
  | _ => none

/-- A call that is not refused. -/
def Flow.Accepts (flow : Flow) (operationId : String) (answer : Answer) (call : Call) : Prop :=
  ∀ code, (call.finish operationId answer flow).1 ≠ .refused code

/-- Every action offered is accepted. -/
def Flow.AcceptsOffers (flow : Flow) (operationId : String) (answer : Answer) : Prop :=
  ∀ view, flow.snapshot = some view → ∀ action ∈ view.actions, ∀ call ∈ action.call?,
    flow.Accepts operationId answer call

/-! ## What a flow shows when nothing is recorded -/

/-- Behind the last stage, with no activation held, an update is finished or was taken back. -/
def Flow.Ended (flow : Flow) : Prop :=
  flow.stage = .ready ∨ (flow.stage = .failed ∨ flow.stage = .unknown) ∧ flow.code ∈ recoveryCodes

/-- A receipt that waits for its restart is shown by the code. -/
def Flow.Waiting (flow : Flow) : Prop :=
  flow.code ∈ restartCodes ∨ flow.code ∈ recoveryCodes ∨
    (flow.stage = .failed ∨ flow.stage = .unknown) ∧ flow.code ∈ unrecoverableCodes

/-- What the stage and the code of a flow tell while no identity is recorded. -/
structure Shown (flow : Flow) : Prop where
  ended : flow.pending = none → flow.activation = none → flow.BehindLast → flow.Ended
  waiting : flow.stage ≠ .ready → flow.pending = none → flow.restartPending = true → flow.Waiting

namespace Flow

variable {flow : Flow} {operationId : String} {answer : Answer}

theorem accepts_of_accepting {call : Call} (h : Accepting (call.begin operationId flow)) :
    flow.Accepts operationId answer call := by
  intro code hrefused
  unfold Call.finish at hrefused
  cases hturn : call.begin operationId flow with
  | ends ending flow' =>
      rw [hturn] at h hrefused
      exact h code hrefused
  | asks question flow' =>
      rw [hturn] at h hrefused
      exact answered_ne_refused h answer code hrefused

theorem accepting_settleCancelled (hordered : Ordered flow.order) (h : ¬flow.BehindLast) :
    Accepting (endWith flow.settleCancelled) := by
  intro code hrefused
  change flow.settleCancelled.1 = .refused code at hrefused
  rw [settleCancelled_before hordered h] at hrefused
  cases hrefused

/-! ## Offers one by one -/

theorem accepts_advance (hordered : Ordered flow.order) (hpending : flow.pending = none) (hready : flow.stage ≠ .ready)
    (hcancelled : flow.stage ≠ .cancelled) (hfailed : flow.stage ≠ .failed) (hunknown : flow.stage ≠ .unknown)
    (hrestart : flow.restartPending = false) (hbehind : flow.activation = none → ¬flow.BehindLast) :
    flow.Accepts operationId answer .advance := by
  apply accepts_of_accepting
  unfold Call.begin advance
  rw [hpending]
  dsimp only
  rw [if_neg (by simp [hready, hcancelled]), if_neg hfailed, if_neg hunknown, if_neg (by simp [hrestart])]
  split_ifs with hcancel
  · exact accepting_settleCancelled hordered (hbehind (Option.not_isSome_iff_eq_none.mp hcancel.2))
  · exact accepting_run operationId

theorem accepts_retry (hordered : Ordered flow.order) (hpending : flow.pending = none)
    (hfailed : flow.stage = .failed ∨ flow.stage = .unknown) (hunrecoverable : flow.code ∉ unrecoverableCodes)
    (hrecovery : flow.code ∉ recoveryCodes) (hrestart : flow.restartPending = false)
    (hbehind : flow.activation = none → ¬flow.BehindLast) : flow.Accepts operationId answer .retry := by
  apply accepts_of_accepting
  unfold Call.begin retry
  rw [if_neg (by simp [hpending, hrestart]), if_neg (by tauto), if_neg hunrecoverable, if_neg hrecovery]
  split_ifs with hcancel
  · exact accepting_settleCancelled hordered (hbehind (Option.not_isSome_iff_eq_none.mp hcancel.2))
  · exact accepting_run operationId

theorem accepts_cancel (hordered : Ordered flow.order)
    (hactivation : flow.activation = none) (hbehind : ¬flow.BehindLast) : flow.Accepts operationId answer .cancel := by
  apply accepts_of_accepting
  unfold Call.begin cancel
  rw [if_neg (by simp [activationHeld, hactivation])]
  dsimp only
  split_ifs
  · exact accepting_returned _
  · exact accepting_returned _
  · exact @accepting_settleCancelled { flow with cancelRequested := true } hordered hbehind

theorem accepts_restore (hpending : flow.pending = none) (hbacked : flow.backup.status = .verified) :
    flow.Accepts operationId answer .restore := by
  apply accepts_of_accepting
  unfold Call.begin restore
  rw [if_neg (by simp [hpending]), if_neg (by simp [hbacked])]
  exact accepting_issue

theorem accepts_rollback (hpending : flow.pending = none) (havailable : flow.rollbackAvailable = true) :
    flow.Accepts operationId answer .rollback := by
  apply accepts_of_accepting
  unfold rollbackAvailable at havailable
  split_ifs at havailable with hid hmigrated
  rw [not_or, Option.isNone_iff_eq_none] at hid
  obtain ⟨activationId, hactivation⟩ := Option.ne_none_iff_exists'.mp hid.1
  unfold Call.begin rollback
  rw [if_neg (by simp [hpending]), if_neg hmigrated, if_neg (by simpa using havailable), hactivation]
  exact accepting_issue

theorem accepts_reconcile {pending : PendingOperation} (hordered : Ordered flow.order)
    (hpending : flow.pending = some pending) (hkind : pending.kind.isAnchor = false) :
    flow.Accepts operationId answer .reconcile ↔ ¬flow.SettlesTooLate .reconcile answer := by
  have hbegin : Call.reconcile.finish operationId answer flow =
      flow.observeAnswered pending.kind pending.operationId answer := by
    unfold Call.finish Call.begin reconcile
    rw [hpending]
    rfl
  have hrefused := @observeAnswered_refused_iff flow pending.kind hkind hordered pending.operationId answer
  have hlate : flow.SettlesTooLate .reconcile answer ↔
      ∃ code, (flow.observeAnswered pending.kind pending.operationId answer).1 = .refused code := by
    rw [hrefused]
    simp [SettlesTooLate, hpending]
  rw [Accepts, hbegin, hlate, not_exists]

/-! ## The actions of a snapshot -/

theorem accepts_recovery (hpending : flow.pending = none) :
    ∀ action ∈ flow.recovery, ∀ call ∈ action.call?, flow.Accepts operationId answer call := by
  intro action haction call hcall
  unfold recovery at haction
  rw [if_neg (by simp [hpending]), List.mem_append] at haction
  rcases haction with haction | haction
  · split_ifs at haction with havailable
    · rw [List.mem_singleton] at haction
      subst haction
      cases hcall
      exact accepts_rollback hpending havailable
    · cases haction
  · split_ifs at haction with hbacked
    · rw [List.mem_singleton] at haction
      subst haction
      cases hcall
      exact accepts_restore hpending hbacked
    · cases haction

theorem accepts_escape (hordered : Ordered flow.order)
    (hbehind : flow.activation = none → ¬flow.BehindLast) :
    ∀ action ∈ flow.escape, ∀ call ∈ action.call?, flow.Accepts operationId answer call := by
  intro action haction call hcall
  unfold escape at haction
  split_ifs at haction with hheld
  · cases haction
  · have hactivation : flow.activation = none := Option.not_isSome_iff_eq_none.mp hheld
    rw [List.mem_singleton] at haction
    subst haction
    cases hcall
    exact accepts_cancel hordered hactivation (hbehind hactivation)

theorem accepts_pairingActions (hpending : flow.pending = none) :
    ∀ action ∈ flow.pairingActions, ∀ call ∈ action.call?, flow.Accepts operationId answer call := by
  intro action haction call hcall
  unfold pairingActions at haction
  split_ifs at haction with havailable
  · simp only [List.mem_cons, List.not_mem_nil, or_false] at haction
    rcases haction with rfl | rfl
    · cases hcall
      exact accepts_rollback hpending havailable
    · cases hcall
  · simp only [List.mem_cons, List.not_mem_nil, or_false] at haction
    rcases haction with rfl | rfl
    · cases hcall
    · cases hcall

theorem accepts_failedActions (hordered : Ordered flow.order) (hshown : Shown flow) (hpending : flow.pending = none)
    (hfailed : flow.stage = .failed ∨ flow.stage = .unknown) (hrestart : flow.code ∉ restartCodes)
    (hrecovery : flow.code ∉ recoveryCodes) :
    ∀ action ∈ flow.failedActions, ∀ call ∈ action.call?, flow.Accepts operationId answer call := by
  have hready : flow.stage ≠ .ready := by
    rintro h
    rw [h] at hfailed
    simp at hfailed
  have hbehind : flow.activation = none → ¬flow.BehindLast := by
    intro hactivation hlate
    rcases hshown.ended hpending hactivation hlate with h | h
    · exact hready h
    · exact hrecovery h.2
  intro action haction call hcall
  unfold failedActions at haction
  simp only [List.mem_append, List.mem_singleton] at haction
  rcases haction with ((haction | haction) | rfl) | haction
  · split_ifs at haction with hunrecoverable hstop
    · rw [List.mem_singleton] at haction
      subst haction
      cases hcall
    · cases haction
    · rw [List.mem_singleton] at haction
      subst haction
      cases hcall
      apply accepts_retry hordered hpending hfailed hunrecoverable hrecovery _ hbehind
      by_contra hwaits
      rw [Bool.not_eq_false] at hwaits
      rcases hshown.waiting hready hpending hwaits with h | h | h
      · exact hrestart h
      · exact hrecovery h
      · exact hunrecoverable h.2
  · exact accepts_recovery hpending action haction call hcall
  · cases hcall
  · exact accepts_escape hordered hbehind action haction call hcall

/-- Every action offered is accepted, but for an answer that settles the identity too late for a cancellation. -/
theorem acceptsOffers_iff (hordered : Ordered flow.order) (hshown : Shown flow)
    (hkind : ∀ pending ∈ flow.pending, pending.kind.isAnchor = false) :
    flow.AcceptsOffers operationId answer ↔
      ¬(flow.stage ≠ .ready ∧ flow.stage ≠ .cancelled ∧ flow.SettlesTooLate .reconcile answer) := by
  have hview : flow.AcceptsOffers operationId answer ↔ ∀ actions, flow.actions = some actions →
      ∀ action ∈ actions, ∀ call ∈ action.call?, flow.Accepts operationId answer call := by
    unfold AcceptsOffers snapshot
    constructor
    · intro h actions hactions
      exact h _ (Option.map_eq_some_iff.mpr ⟨actions, hactions, rfl⟩)
    · rintro h view hview
      obtain ⟨actions, hactions, rfl⟩ := Option.map_eq_some_iff.mp hview
      exact h actions hactions
  rw [hview]
  have hquiet (actions : List Action) (h : ∀ action ∈ actions, action.call? = none) :
      ∀ action ∈ actions, ∀ call ∈ action.call?, flow.Accepts operationId answer call := by
    intro action haction call hcall
    rw [h action haction] at hcall
    cases hcall
  have hopen (hpending : ¬flow.pending.isSome = true) : flow.pending = none ∧
      ¬(flow.stage ≠ .ready ∧ flow.stage ≠ .cancelled ∧ flow.SettlesTooLate .reconcile answer) := by
    have hnone := Option.not_isSome_iff_eq_none.mp hpending
    refine ⟨hnone, ?_⟩
    rintro ⟨-, -, -, -, -, pending, hsome, -⟩
    rw [hnone] at hsome
    cases hsome
  have hall (actions : List Action) : (∀ actions', some actions = some actions' → ∀ action ∈ actions',
      ∀ call ∈ action.call?, flow.Accepts operationId answer call) ↔
      ∀ action ∈ actions, ∀ call ∈ action.call?, flow.Accepts operationId answer call := by
    simp only [Option.some.injEq, forall_eq']
  unfold Flow.actions
  by_cases hready : flow.stage = .ready
  · rw [if_pos hready, hall]
    apply iff_of_true (hquiet _ _) (fun h ↦ h.1 hready)
    intro action haction
    rw [List.mem_append, List.mem_map] at haction
    rcases haction with ⟨name, -, rfl⟩ | haction
    · rfl
    · split_ifs at haction
      · cases haction
      · rw [List.mem_singleton.mp haction]
        rfl
  rw [if_neg hready]
  by_cases hcancelled : flow.stage = .cancelled
  · rw [if_pos hcancelled, hall]
    exact iff_of_true (hquiet _ (by decide)) (fun h ↦ h.2.1 hcancelled)
  rw [if_neg hcancelled]
  by_cases hpending : flow.pending.isSome
  · rw [if_pos hpending, hall]
    obtain ⟨pending, hsome⟩ := Option.isSome_iff_exists.mp hpending
    have hreconcile := @accepts_reconcile flow operationId answer pending hordered hsome (hkind pending hsome)
    simp only [List.forall_mem_cons, Action.call?, Option.mem_def, Option.some.injEq, forall_eq', hreconcile,
      reduceCtorEq, false_implies, implies_true, List.not_mem_nil, and_true]
    simp [hready, hcancelled]
  obtain ⟨hnone, hlate⟩ := hopen hpending
  rw [if_neg hpending]
  by_cases hrestart : flow.code ∈ restartCodes
  · rw [if_pos hrestart, hall]
    apply iff_of_true _ hlate
    rw [List.forall_mem_append, List.forall_mem_append]
    exact ⟨⟨hquiet _ (by decide), accepts_recovery hnone⟩, hquiet _ (by decide)⟩
  rw [if_neg hrestart]
  by_cases hpairing : flow.code = .restoreVerifiedActivationSelected
  · rw [if_pos hpairing, hall]
    exact iff_of_true (accepts_pairingActions hnone) hlate
  rw [if_neg hpairing]
  by_cases hsettled : flow.code ∈ recoverySettledCodes
  · rw [if_pos hsettled, hall]
    exact iff_of_true (hquiet _ (by decide)) hlate
  rw [if_neg hsettled]
  by_cases hrecovery : flow.code ∈ recoveryCodes
  · rw [if_pos hrecovery, hall]
    apply iff_of_true _ hlate
    rw [List.forall_mem_append]
    exact ⟨accepts_recovery hnone, hquiet _ (by decide)⟩
  rw [if_neg hrecovery]
  by_cases hfailed : flow.stage = .failed ∨ flow.stage = .unknown
  · rw [if_pos hfailed, hall]
    exact iff_of_true (accepts_failedActions hordered hshown hnone hfailed hrestart hrecovery) hlate
  rw [if_neg hfailed]
  have hbehind : flow.activation = none → ¬flow.BehindLast := by
    intro hactivation hbehind
    rcases hshown.ended hnone hactivation hbehind with h | h
    · exact hready h
    · exact hfailed h.1
  have hwaits : flow.restartPending = false := by
    by_contra hwaits
    rw [Bool.not_eq_false] at hwaits
    rcases hshown.waiting hready hnone hwaits with h | h | h
    · exact hrestart h
    · exact hrecovery h
    · exact hfailed h.1
  rw [not_or] at hfailed
  apply iff_of_true _ hlate
  intro actions hactions
  obtain ⟨next, hnext, rfl⟩ := Option.map_eq_some_iff.mp hactions
  obtain ⟨stage, -, rfl⟩ := Option.map_eq_some_iff.mp hnext
  rw [List.forall_mem_append, List.forall_mem_cons]
  refine ⟨⟨?_, hquiet _ (by decide)⟩, accepts_escape hordered hbehind⟩
  intro call hcall
  have hadvance : call = .advance := by
    unfold RunOrder.actionOf at hcall
    split_ifs at hcall
    · cases hcall
      rfl
    · cases hcall
      rfl
  rw [hadvance]
  exact accepts_advance hordered hnone hready hcancelled hfailed.1 hfailed.2 hwaits hbehind

end Flow

/-! ## Calls keep what is shown -/

/-- What a turn leaves shows its slots; a verification is asked for with an activation held. -/
def Shows : Turn → Prop
  | .ends _ flow => Shown flow
  | .asks question flow => Shown flow ∧ ∀ operationId, question = .verify operationId → flow.activation ≠ none

namespace Shown

variable {flow : Flow} {operationId : String}

theorem of_pending {flow : Flow} (h : flow.pending ≠ none) : Shown flow where
  ended := fun hnone ↦ absurd hnone h
  waiting := fun _ hnone ↦ absurd hnone h

theorem issue {flow : Flow} {kind : Kind} {codeOnly : Bool} : Shows (flow.issue kind operationId codeOnly) := by
  refine ⟨of_pending (by simp [Flow.record]), ?_⟩
  intro _ h
  cases h

theorem refuse (h : Shown flow) (code : RefusalCode) : Shows (flow.refuse code) := h

theorem settleCancelled (h : Shown flow) (hordered : Ordered flow.order) (hactivation : flow.activation = none) :
    Shown flow.settleCancelled.2 := by
  by_cases hbehind : flow.BehindLast
  · rw [Flow.settleCancelled_behind hordered hbehind]
    exact h
  · unfold Flow.settleCancelled
    cases flow.order.cancelCode (flow.order.stages[flow.index]?.getD .verify) with
    | none => exact h
    | some code =>
        constructor
        · exact fun _ _ hlate ↦ absurd hlate hbehind
        · intro _ _ hwaits
          simp [Flow.restartPending, Flow.publish, hactivation] at hwaits

/-- What is published before the last stages of an order, with no receipt that waits, shows nothing special. -/
theorem publish_before {stage : Stage} {code : Code} (hbehind : ¬flow.BehindLast)
    (hwaits : flow.restartPending = false) : Shown (flow.publish stage code) where
  ended := fun _ _ hlate ↦ absurd hlate hbehind
  waiting := fun _ _ h ↦ by
    change flow.restartPending = true at h
    rw [hwaits] at h
    cases h

theorem notBehind (hordered : Ordered flow.order) {stage : Stage} (hstage : flow.order.stages[flow.index]? = some stage)
    (hne : stage ≠ .verify) : ¬flow.BehindLast := by
  intro hbehind
  have hindex := hordered.index_eq hstage
  have hlength := hordered.length
  have hverify := hordered.verify
  have hlt := (List.getElem?_eq_some_iff.mp hstage).1
  have hsame : flow.order.index stage = flow.order.index .verify := by
    unfold Flow.BehindLast at hbehind
    omega
  apply hne
  apply (List.idxOf_inj (List.mem_of_getElem? hstage)).mp
  exact hsame

theorem run (h : Shown flow) (hordered : Ordered flow.order)
    (hwaits : flow.restartPending = false) (hbehind : flow.activation = none → ¬flow.BehindLast) :
    Shows (flow.run operationId) := by
  unfold Flow.run
  split
  · exact ⟨h, fun _ h ↦ by cases h⟩
  · exact issue
  · exact issue
  · rename_i hstage
    unfold Flow.runPrepare
    split_ifs
    · exact issue
    · exact publish_before (notBehind hordered hstage (by decide)) hwaits
    · exact issue
  · rename_i hstage
    unfold Flow.runProbe
    split_ifs
    · exact publish_before (notBehind hordered hstage (by decide)) hwaits
    · exact ⟨h, fun _ h ↦ by cases h⟩
  · unfold Flow.runActivate
    exact issue
  · rename_i hstage
    refine ⟨h, fun _ _ hnone ↦ ?_⟩
    have hindex := hordered.index_eq hstage
    have hlength := hordered.length
    have hverify := hordered.verify
    apply hbehind hnone
    unfold Flow.BehindLast
    omega
  · exact h

/-! ## Each call -/

theorem not_behindLast (h : Shown flow) (hpending : flow.pending = none) (hready : flow.stage ≠ .ready)
    (hsettled : ¬((flow.stage = .failed ∨ flow.stage = .unknown) ∧ flow.code ∈ recoveryCodes)) :
    flow.activation = none → ¬flow.BehindLast := by
  intro hactivation hlate
  exact (h.ended hpending hactivation hlate).elim hready hsettled

theorem askPending (h : Shown flow) (pending : PendingOperation) : Shows (flow.askPending pending) :=
  ⟨h, fun _ hverify ↦ by cases hverify⟩

theorem advance (h : Shown flow) (hordered : Ordered flow.order) : Shows (flow.advance operationId) := by
  unfold Flow.advance
  cases hpending : flow.pending with
  | some pending => exact h.askPending pending
  | none =>
      dsimp only
      split_ifs with hterminal hfailed hunknown hwaits hcancel
      · exact h.refuse _
      · exact h.refuse _
      · exact h.refuse _
      · exact h.refuse _
      · exact h.settleCancelled hordered (Option.not_isSome_iff_eq_none.mp hcancel.2)
      · rw [not_or] at hterminal
        apply h.run hordered (Bool.eq_false_iff.mpr hwaits)
        exact h.not_behindLast hpending hterminal.1 (by tauto)

theorem retry (h : Shown flow) (hordered : Ordered flow.order) : Shows (flow.retry operationId) := by
  unfold Flow.retry
  split_ifs with hopen hfailed hunrecoverable hrecovery hcancel
  · exact h.refuse _
  · exact h.refuse _
  · exact h.refuse _
  · exact h.refuse _
  · exact h.settleCancelled hordered (Option.not_isSome_iff_eq_none.mp hcancel.2)
  · rw [not_or, Option.not_isSome_iff_eq_none] at hopen
    apply h.run hordered (Bool.eq_false_iff.mpr hopen.2)
    apply h.not_behindLast hopen.1
    · intro hready
      simp [hready] at hfailed
    · exact fun hsettled ↦ hrecovery hsettled.2

theorem reconcile (h : Shown flow) : Shows flow.reconcile := by
  unfold Flow.reconcile
  split
  · exact h.refuse _
  · exact h.askPending _

/-- What a restart can find wrong keeps the receipt in sight. -/
theorem waiting_classifyStartup {evidence : Option StartupEvidence} {activationId : String} {decision : Decision}
    (h : classifyStartup evidence activationId = some decision) : (flow.publish decision.1 decision.2).Waiting := by
  suffices hcodes : decision.2 ∈ restartCodes ∨
      (decision.1 = .failed ∨ decision.1 = .unknown) ∧ decision.2 ∈ unrecoverableCodes from
    hcodes.imp_right Or.inr
  unfold classifyStartup at h
  split at h
  · cases h
    decide
  split at h
  · split_ifs at h
    · cases h
      decide
    · cases h
      decide
    · split at h
      · cases h
        decide
      · cases h
        decide
      · cases h
  · cases h
    decide

theorem resumeAfterRestart (h : Shown flow) (evidence : Option StartupEvidence) :
    Shows (flow.resumeAfterRestart evidence) := by
  unfold Flow.resumeAfterRestart
  split
  · exact h.refuse _
  cases hactivation : flow.activation with
  | none => exact h.refuse _
  | some anchor =>
      dsimp only
      split
      · exact h.refuse _
      cases hstartup : classifyStartup evidence anchor.operationId with
      | none => exact issue
      | some decision =>
          constructor
          · intro _ hnone
            change flow.activation = none at hnone
            rw [hactivation] at hnone
            cases hnone
          · exact fun _ _ _ ↦ waiting_classifyStartup hstartup

theorem requested (h : Shown flow) : Shown { flow with cancelRequested := true } := ⟨h.ended, h.waiting⟩

theorem cancel (h : Shown flow) (hordered : Ordered flow.order) : Shows flow.cancel := by
  unfold Flow.cancel
  split
  · exact h.refuse _
  rename_i hheld
  have hactivation : flow.activation = none := Option.not_isSome_iff_eq_none.mp hheld
  dsimp only
  split_ifs with hpending
  · apply of_pending
    exact Option.isSome_iff_ne_none.mp hpending
  · exact h.requested
  · exact h.requested.settleCancelled hordered hactivation

theorem restore (h : Shown flow) : Shows (flow.restore operationId) := by
  unfold Flow.restore
  split_ifs
  · exact h.refuse _
  · exact h.refuse _
  · exact issue

theorem rollback (h : Shown flow) : Shows flow.rollback := by
  unfold Flow.rollback
  split_ifs
  · exact h.refuse _
  · exact h.refuse _
  · exact h.refuse _
  split
  · exact h.refuse _
  · exact issue

theorem begin (h : Shown flow) (hordered : Ordered flow.order) (call : Call) : Shows (call.begin operationId flow) := by
  cases call with
  | advance => exact h.advance hordered
  | retry => exact h.retry hordered
  | reconcile => exact h.reconcile
  | resumeAfterRestart evidence => exact h.resumeAfterRestart evidence
  | cancel => exact h.cancel hordered
  | restore => exact h.restore
  | rollback => exact h.rollback

/-! ## Answers keep what is shown -/

theorem restartPending_eq_false (h : flow.activation = none) : flow.restartPending = false := by
  unfold Flow.restartPending
  rw [h]
  rfl

/-- Before the activation nothing waits for a restart. -/
theorem restartPending_before (hplaced : Placed flow.slots) (h : flow.index < flow.order.activate) :
    flow.restartPending = false :=
  restartPending_eq_false (hplaced.activation_eq_none (hplaced.activationId_eq_none h))

theorem previewAnswered (h : Shown flow) (hplaced : Placed flow.slots)
    (hstage : flow.order.stages[flow.index]? = some .preview) (answer : Answer) :
    Shown (flow.previewAnswered answer).2 := by
  have hordered : Ordered flow.order := hplaced.ordered
  have hbehind : ¬flow.BehindLast := notBehind hordered hstage (by decide)
  have hwaits : flow.restartPending = false := by
    have hindex := hordered.index_eq hstage
    have hpreview := hordered.preview
    have hprobe := hordered.probe_lt
    exact restartPending_before hplaced (by omega)
  unfold Flow.previewAnswered
  split
  · exact h
  · exact publish_before hbehind hwaits
  · exact publish_before hbehind hwaits
  · refine ⟨fun _ _ hlate ↦ absurd hlate ?_, fun _ _ h ↦ ?_⟩
    · have hpreview := hordered.preview
      have hprobe := hordered.probe_lt
      have hlength := hordered.length
      change ¬flow.order.stages.length ≤ flow.order.index .preview + 1 + 1
      omega
    · change flow.restartPending = true at h
      rw [hwaits] at h
      cases h
  · exact publish_before hbehind hwaits

theorem probeAnswered (h : Shown flow) (hplaced : Placed flow.slots)
    (hstage : flow.order.stages[flow.index]? = some .probe) (answer : Answer) :
    Shown (flow.probeAnswered answer).2 := by
  have hordered : Ordered flow.order := hplaced.ordered
  have hprobe := hordered.probe
  have hactivate := hordered.probe_lt
  have hlength := hordered.length
  have hbehind : ¬flow.BehindLast := notBehind hordered hstage (by decide)
  have hwaits : flow.restartPending = false := by
    have hindex := hordered.index_eq hstage
    exact restartPending_before hplaced (by omega)
  unfold Flow.probeAnswered
  split
  · exact h
  · exact publish_before hbehind hwaits
  · exact publish_before hbehind hwaits
  · dsimp only
    split
    · rename_i hprogress
      rw [stage_classifyProbe _ hprogress]
      refine ⟨fun _ _ hlate ↦ absurd hlate ?_, fun _ _ h ↦ ?_⟩
      · change ¬flow.order.stages.length ≤ flow.order.index .probe + 1 + 1
        omega
      · change flow.restartPending = true at h
        rw [hwaits] at h
        cases h
    · rename_i outcome _
      apply @publish_before { flow with versions := _ }
      · exact hbehind
      · exact hwaits
  · exact publish_before hbehind hwaits

/-- A verification ends the update or leaves a receipt that waits for nothing. -/
theorem verifyAnswered (h : Shown flow) (hplaced : Placed flow.slots)
    (hstage : flow.order.stages[flow.index]? = some .verify) (hheld : flow.activation ≠ none) (answer : Answer) :
    Shown (flow.verifyAnswered answer).2 := by
  have hwaits : flow.restartPending = false := by
    rw [Bool.eq_false_iff]
    intro hwaits
    obtain ⟨anchor, hactivation⟩ := Option.ne_none_iff_exists'.mp hheld
    have hkind : anchor.kind = .activationPending := by
      simpa [Flow.restartPending, hactivation] using hwaits
    have hindex := hplaced.ordered.index_eq hstage
    have hverify := hplaced.ordered.verify
    have hplace := hplaced.pendingAnchor anchor hactivation hkind
    change flow.index = flow.order.activate at hplace
    change flow.order.index .verify = flow.order.activate + 1 at hverify
    change flow.index = flow.order.index .verify at hindex
    omega
  have hpublish (versions : MeasuredVersions) (stage : Stage) (code : Code) :
      Shown ({ flow with versions }.publish stage code) := by
    refine ⟨fun _ hnone ↦ absurd hnone hheld, fun _ _ h ↦ ?_⟩
    change flow.restartPending = true at h
    rw [hwaits] at h
    cases h
  unfold Flow.verifyAnswered
  split
  · exact h
  · exact hpublish flow.versions _ _
  · exact hpublish flow.versions _ _
  · dsimp only
    split
    · rename_i hready
      refine ⟨fun _ _ _ ↦ Or.inl hready, fun hnot ↦ absurd hready hnot⟩
    · exact hpublish _ _ _
  · exact hpublish flow.versions _ _

/-! ## Settling -/

theorem stage_settle (decision : Decision) : (flow.settle decision operationId).stage = decision.1 := by
  unfold Flow.settle
  dsimp only
  split_ifs <;> rfl

theorem code_settle (decision : Decision) :
    (flow.settle decision operationId).code = flow.settledCode decision.2 := by
  unfold Flow.settle
  dsimp only
  split_ifs <;> rfl

theorem settledCode_eq {code : Code} (h : code ≠ .restoreVerified) : flow.settledCode code = code := by
  unfold Flow.settledCode
  rw [if_neg (fun hrestore ↦ h hrestore.1)]

theorem settledCode_recovery {code : Code} (h : code ∈ recoveryCodes) : flow.settledCode code ∈ recoveryCodes := by
  unfold Flow.settledCode
  split_ifs
  · decide
  · exact h

/-- The decisions that settle an identity without moving the order. -/
theorem closing_decisions : ∀ kind : Kind, kind.isAnchor = false → ∀ decision ∈ kind.decisions,
    decision.2.keepsOpen = false → decision.2 ∉ progressCodes → kind ∈ stageKinds ∨ kind = .activationIssue ∨
      kind = .activationConfirm ∧ decision.2 = .activateConfirmFailed ∨
      decision.1 = .failed ∧ decision.2 ∈ recoveryCodes := by
  intro kind
  cases kind <;> decide

theorem of_slots {slots : Slots} (hslots : flow.slots = slots)
    (hended : slots.pending = none → slots.activation = none → slots.order.stages.length ≤ slots.index + 1 → flow.Ended)
    (hwaiting : slots.pending = none → (∃ anchor ∈ slots.activation, anchor.kind = .activationPending) → flow.Waiting) :
    Shown flow := by
  subst hslots
  refine ⟨hended, fun _ hnone hwaits ↦ hwaiting hnone ?_⟩
  obtain ⟨anchor, hactivation, hkind⟩ := (Option.any_eq_true _ _).mp hwaits
  exact ⟨anchor, hactivation, of_decide_eq_true hkind⟩

section Settled

variable {pending : PendingOperation} {answer : Answer} {decision : Decision} {decided after : Slots}

/-- Behind the last stage only what was taken back leaves neither an identity nor a receipt. -/
theorem ended_settled (hplaced : Placed flow.slots) (hpending : flow.slots.pending = some pending)
    (hkind : pending.kind.isAnchor = false) (hdecision : decision ∈ pending.kind.decisions)
    (hdecides : Decides pending.kind answer decision.2 flow.slots decided)
    (hsettles : Settles decided pending.kind pending.operationId decision.2 after) (hnone : after.pending = none)
    (hreleased : after.activation = none) (hlate : after.order.stages.length ≤ after.index + 1) :
    decision.1 = .failed ∧ decision.2 ∈ recoveryCodes := by
  have hordered := hplaced.ordered
  have hlength := hordered.length
  have horder := hdecides.order
  cases hsettles with
  | kept => cases hnone
  | written => cases hreleased
  | committed => cases hreleased
  | rolledBack hrollback hcode =>
      rcases closing_decisions _ hkind _ hdecision (by rw [hcode]; rfl) (by rw [hcode]; decide) with
        hstaged | hissue | ⟨hconfirm, -⟩ | hfailed
      · rw [hrollback] at hstaged
        exact absurd hstaged (by decide)
      · rw [hrollback] at hissue
        cases hissue
      · rw [hrollback] at hconfirm
        cases hconfirm
      · exact hfailed
  | progressed hstaged =>
      have hlt := hordered.stageKind_lt hstaged
      change decided.order.stages.length ≤ decided.order.index pending.kind.spec.stage + 1 + 1 at hlate
      rw [horder] at hlate
      omega
  | closed hopen hprogress =>
      change decided.activation = none at hreleased
      change decided.order.stages.length ≤ decided.index + 1 at hlate
      rw [horder, hdecides.index] at hlate
      rw [hdecides.activation] at hreleased
      rcases closing_decisions _ hkind _ hdecision hopen hprogress with hstaged | hissue | ⟨hconfirm, -⟩ | hfailed
      · have hindex := hplaced.staged pending hpending hstaged
        have hlt := hordered.stageKind_lt hstaged
        omega
      · have hindex := (hplaced.activating pending hpending hissue).1
        omega
      · obtain ⟨anchor, hactivation, -⟩ := hplaced.confirming pending hpending hconfirm
        rw [hreleased] at hactivation
        cases hactivation
      · exact hfailed

/-- What leaves a receipt waiting says so by its code. -/
theorem waiting_settled (hplaced : Placed flow.slots) (hpending : flow.slots.pending = some pending)
    (hkind : pending.kind.isAnchor = false) (hdecision : decision ∈ pending.kind.decisions)
    (hdecides : Decides pending.kind answer decision.2 flow.slots decided)
    (hsettles : Settles decided pending.kind pending.operationId decision.2 after) (hnone : after.pending = none)
    (hwaits : ∃ anchor ∈ after.activation, anchor.kind = .activationPending) :
    decision.2 ∈ restartCodes ∨ decision.2 ∈ recoveryCodes := by
  obtain ⟨anchor, hactivation, hanchor⟩ := hwaits
  cases hsettles with
  | kept => cases hnone
  | written hissue hcode =>
      left
      rw [hcode]
      decide
  | committed =>
      cases hactivation
      cases hanchor
  | rolledBack => cases hactivation
  | progressed hstaged =>
      change decided.activation = some anchor at hactivation
      rw [hdecides.activation, (hplaced.staged_activation hpending hstaged).2] at hactivation
      cases hactivation
  | closed hopen hprogress =>
      change decided.activation = some anchor at hactivation
      rw [hdecides.activation] at hactivation
      rcases closing_decisions _ hkind _ hdecision hopen hprogress with hstaged | hissue | ⟨-, hcode⟩ | hfailed
      · rw [(hplaced.staged_activation hpending hstaged).2] at hactivation
        cases hactivation
      · rw [(hplaced.activating pending hpending hissue).2] at hactivation
        cases hactivation
      · left
        rw [hcode]
        decide
      · exact Or.inr hfailed.2

end Settled

theorem settled {pending : PendingOperation} {answer : Answer} {decision : Decision} {decided : Flow}
    (hplaced : Placed flow.slots) (hpending : flow.slots.pending = some pending) (hkind : pending.kind.isAnchor = false)
    (hdecision : decision ∈ pending.kind.decisions)
    (hdecides : Decides pending.kind answer decision.2 flow.slots decided.slots) :
    Shown (decided.settle decision pending.operationId) := by
  have hsettles := @settles decided.slots pending.kind decision pending.operationId hkind hdecision
  have hcode := @code_settle decided pending.operationId decision
  apply of_slots (Flow.slots_settle decided pending.operationId hkind hdecision)
  · intro hnone hreleased hlate
    right
    obtain ⟨hfailed, hrecovery⟩ :=
      ended_settled hplaced hpending hkind hdecision hdecides hsettles hnone hreleased hlate
    constructor
    · exact Or.inl ((stage_settle decision).trans hfailed)
    · rw [hcode]
      exact settledCode_recovery hrecovery
  · intro hnone hwaits
    rcases waiting_settled hplaced hpending hkind hdecision hdecides hsettles hnone hwaits with hrestart | hrecovery
    · left
      rw [hcode, settledCode_eq]
      · exact hrestart
      · intro h
        rw [h] at hrestart
        exact absurd hrestart (by decide)
    · right
      left
      rw [hcode]
      exact settledCode_recovery hrecovery

theorem reconciled (h : Shown flow) (hordered : Ordered flow.order) : Shown flow.reconciled.2 := by
  unfold Flow.reconciled
  split
  · rename_i hcancel
    exact h.settleCancelled hordered (Option.not_isSome_iff_eq_none.mp hcancel.2.2)
  · exact h

theorem issueAnswered {pending : PendingOperation} (h : Shown flow) (hplaced : Placed flow.slots)
    (hpending : flow.slots.pending = some pending) (hkind : pending.kind.isAnchor = false) (answer : Answer) :
    Shown (flow.issueAnswered pending.kind pending.operationId answer).2 := by
  by_cases herror : answer = .otherError
  · subst herror
    exact h
  obtain ⟨hmem, -, hdecides⟩ := @issueDecision_spec flow pending.kind pending.operationId false answer herror
  have hanswered : (flow.issueAnswered pending.kind pending.operationId answer).2 =
      (flow.issueDecision pending.kind answer).1.settle (flow.issueDecision pending.kind answer).2
        pending.operationId := by
    unfold Flow.issueAnswered
    split <;> first | rfl | contradiction
  rw [hanswered]
  exact settled hplaced hpending hkind hmem hdecides

theorem observeAnswered {pending : PendingOperation} (h : Shown flow) (hplaced : Placed flow.slots)
    (hpending : flow.slots.pending = some pending) (hkind : pending.kind.isAnchor = false) (answer : Answer) :
    Shown (flow.observeAnswered pending.kind pending.operationId answer).2 := by
  have hopen (stage : Stage) (code : Code) : Shown (flow.publish stage code) := by
    apply of_pending
    change flow.slots.pending ≠ none
    simp [hpending]
  unfold Flow.observeAnswered
  split
  · exact h
  · exact hopen _ _
  · exact hopen _ _
  · cases hdecided : flow.decideOutcome pending.kind.spec.classify answer with
    | none => exact hopen _ _
    | some found =>
        obtain ⟨decided, decision⟩ := found
        obtain ⟨hmem, -, hdecides⟩ := decideOutcome_spec hdecided
        have hslots := Flow.slots_settle decided pending.operationId hkind hmem
        apply (settled hplaced hpending hkind hmem hdecides).reconciled
        have hordered : Ordered decided.slots.order := by
          rw [hdecides.order]
          exact hplaced.ordered
        change Ordered (decided.settle decision pending.operationId).slots.order
        rw [hslots, settled_order]
        exact hordered

theorem answered {question : Question} (h : Shown flow) (hplaced : Placed flow.slots) (hrecorded : Recorded flow.slots)
    (hasked : Asked flow.slots question)
    (hverify : ∀ operationId, question = .verify operationId → flow.activation ≠ none) (answer : Answer) :
    Shown (flow.answered question answer).2 := by
  cases question with
  | describe =>
      obtain ⟨-, stage, hreads, hstage⟩ := hasked
      cases hreads
      exact h.previewAnswered hplaced hstage answer
  | probe operationId =>
      obtain ⟨-, stage, hreads, hstage⟩ := hasked
      cases hreads
      exact h.probeAnswered hplaced hstage answer
  | verify operationId =>
      obtain ⟨-, stage, hreads, hstage⟩ := hasked
      cases hreads
      exact h.verifyAnswered hplaced hstage (hverify operationId rfl) answer
  | issue kind operationId codeOnly =>
      obtain ⟨pending, hpending, hsame⟩ := hasked
      cases hsame
      exact h.issueAnswered hplaced hpending (hrecorded.pending pending hpending).1 answer
  | observe kind operationId =>
      obtain ⟨pending, hpending, hsame⟩ := hasked
      cases hsame
      exact h.observeAnswered hplaced hpending (hrecorded.pending pending hpending).1 answer

/-! ## A restart -/

theorem resumedDecision_of_waits {placed : Flow} (hpending : placed.pending = none)
    (hwaits : placed.restartPending = true) : placed.resumedDecision = (.activate, .activatePendingRestart) := by
  simp only [Flow.resumedDecision, hpending, hwaits, if_true]

theorem code_resume (hpending : flow.pending = none) (hwaits : flow.restartPending = true) :
    flow.resume.code = .activatePendingRestart := by
  have hheld : ¬(flow.pending.isNone = true ∧ flow.activation.isNone = true) := by
    rintro ⟨-, hnone⟩
    rw [restartPending_eq_false (Option.isNone_iff_eq_none.mp hnone)] at hwaits
    cases hwaits
  have hdecision : { flow with index := flow.resumedIndex }.resumedDecision = (.activate, .activatePendingRestart) :=
    resumedDecision_of_waits hpending hwaits
  unfold Flow.resume
  rw [if_neg hheld]
  dsimp only
  rw [hdecision]
  split_ifs <;> rfl

theorem kept_resume (flow : Flow) : flow.resume.pending = flow.pending ∧ flow.resume.activation = flow.activation := by
  unfold Flow.resume
  dsimp only
  split_ifs <;> exact ⟨rfl, rfl⟩

theorem build (hplaced : Placed flow.slots) (hrecorded : Recorded flow.slots) :
    Shown (Flow.build flow.order flow.journal) := by
  have hresumes : Resumes flow.slots (Flow.build flow.order flow.journal).slots := resumes hrecorded
  constructor
  · intro hnone hreleased hlate
    exfalso
    have hpending : flow.slots.pending = none := hresumes.pending.symm.trans hnone
    have hactivation : flow.slots.activation = none := hresumes.activation.symm.trans hreleased
    have hindex : flow.slots.recordedIndex = 0 := by
      unfold Slots.recordedIndex
      rw [hpending, hactivation]
    have hlength := hplaced.ordered.length
    change (Flow.build flow.order flow.journal).slots.order.stages.length ≤
      (Flow.build flow.order flow.journal).slots.index + 1 at hlate
    rw [hresumes.order, hresumes.index, hindex, hlength] at hlate
    omega
  · intro _ hnone hwaits
    left
    unfold Flow.build at *
    obtain ⟨hpending, hactivation⟩ :=
      kept_resume (flow.journal.foldl Flow.adoptEntry (Flow.blank flow.order flow.journal))
    rw [hpending] at hnone
    unfold Flow.restartPending at hwaits
    rw [hactivation] at hwaits
    rw [code_resume hnone hwaits]
    decide

end Shown

/-! ## Runs -/

/-- The flow keeps its place and shows it, and a verification goes out with an activation held. -/
structure Offering (s : System) : Prop where
  inPlace : InPlace s
  shown : Shown s.flow
  verifying : ∀ operationId, s.phase = .asking (.verify operationId) ∨ s.phase = .waiting (.verify operationId) →
    s.flow.activation ≠ none

namespace Offering

variable {s s' : System} {move : Move}

theorem start (prepareBeforeStop : Bool) : Offering (System.start prepareBeforeStop) where
  inPlace := InPlace.start prepareBeforeStop
  shown := by
    refine ⟨fun _ _ hlate ↦ absurd hlate ?_, fun _ _ hwaits ↦ by cases hwaits⟩
    cases prepareBeforeStop <;> unfold Flow.BehindLast <;> decide
  verifying := fun operationId h ↦ by simp [System.start] at h

theorem turned {turn : Turn} {drawn : List String} (hplace : InPlace { s.turned turn with drawn })
    (hphase : s.phase = .idle) (hshows : Shows turn) : Offering { s.turned turn with drawn } where
  inPlace := hplace
  shown := by
    cases turn with
    | ends => exact hshows
    | asks => exact hshows.1
  verifying := by
    intro operationId h
    cases turn with
    | ends ending flow =>
        change s.phase = _ ∨ s.phase = _ at h
        simp [hphase] at h
    | asks question flow =>
        change Phase.asking question = _ ∨ Phase.asking question = _ at h
        simp only [Phase.asking.injEq, reduceCtorEq, or_false] at h
        exact hshows.2 operationId h

theorem skillPublished (h : Shown s.flow) (flowCode : Option String) (offer : SkillOffer) :
    Shown (s.flow.skillPublished flowCode offer) := by
  unfold Flow.skillPublished
  dsimp only
  split
  · rename_i hready
    exact ⟨fun _ _ _ ↦ Or.inl rfl, fun hne ↦ absurd rfl hne⟩
  · exact ⟨h.ended, h.waiting⟩

theorem step (h : Offering s) (hstep : s.step move = some s') : Offering s' := by
  have hplace := h.inPlace.step (steps_of_step hstep)
  have hplaced := h.inPlace.placed
  have hrecorded := h.inPlace.standing.recorded
  unfold System.step at hstep
  split at hstep
  · rename_i call operationId hphase
    split at hstep
    · cases hstep
    · rw [Option.some.injEq] at hstep
      subst hstep
      exact turned hplace hphase (h.shown.begin hplaced.ordered call)
  · rename_i flowCode offer hphase
    rw [Option.some.injEq] at hstep
    subst hstep
    refine ⟨hplace, skillPublished h.shown flowCode offer, fun operationId hverify ↦ ?_⟩
    change s.phase = _ ∨ s.phase = _ at hverify
    simp [hphase] at hverify
  · rename_i question hphase
    rw [Option.some.injEq] at hstep
    subst hstep
    refine ⟨hplace, h.shown, fun operationId hverify ↦ h.verifying operationId ?_⟩
    simpa [hphase] using hverify
  · rename_i question answer hphase
    rw [Option.some.injEq] at hstep
    subst hstep
    refine ⟨hplace, ?_, fun operationId hverify ↦ by simp at hverify⟩
    apply h.shown.answered hplaced hrecorded (h.inPlace.asked hphase)
    intro operationId hquestion
    exact h.verifying operationId (Or.inr (by rw [hphase, hquestion]))
  · rw [Option.some.injEq] at hstep
    subst hstep
    exact ⟨hplace, Shown.build hplaced hrecorded, fun operationId hverify ↦ by simp at hverify⟩
  · cases hstep

end Offering

theorem offering (prepareBeforeStop : Bool) (moves : List Move) : Offering (System.after prepareBeforeStop moves) :=
  Requests.invariant_after (Offering.start prepareBeforeStop) fun _ _ _ h ↦ h.step

/-- In every state of every run, every action offered is accepted by the call it names, exactly when the answer does
not settle the recorded identity too late for the cancellation that waits for it. -/
theorem offered_calls_accepted_iff (prepareBeforeStop : Bool) (moves : List Move) (operationId : String)
    (answer : Answer) : (System.after prepareBeforeStop moves).flow.AcceptsOffers operationId answer ↔
      ¬((System.after prepareBeforeStop moves).flow.stage ≠ .ready ∧
        (System.after prepareBeforeStop moves).flow.stage ≠ .cancelled ∧
        (System.after prepareBeforeStop moves).flow.SettlesTooLate .reconcile answer) := by
  have h := offering prepareBeforeStop moves
  apply Flow.acceptsOffers_iff h.inPlace.placed.ordered h.shown
  exact fun pending hpending ↦ (h.inPlace.standing.recorded.pending pending hpending).1

/-- A restore behind a rollback whose answer is lost, and a cancellation that waits for it. -/
def cancelledRestoreMoves : List Move :=
  rolledBackMoves ++ [.call .restore "restore", .port, .answer .lostResponse, .call .cancel "cancel"]

/-- A reconciliation is offered, and refused once it has settled the restore. -/
theorem offered_reconciliation_is_refused :
    ¬∀ (prepareBeforeStop : Bool) (moves : List Move) (operationId : String) (answer : Answer),
      (System.after prepareBeforeStop moves).flow.AcceptsOffers operationId answer := by
  intro h
  have hview : ∃ view, (System.after false cancelledRestoreMoves).flow.snapshot = some view ∧
      Action.reconcilePending ∈ view.actions := by
    refine ⟨_, rfl, ?_⟩
    decide
  obtain ⟨view, hsnapshot, haction⟩ := hview
  apply h false cancelledRestoreMoves "reconcile" (.restore ⟨.str "verified", .bool true⟩) view hsnapshot _ haction
    .reconcile rfl .cancelRefusedActivationCommitted
  decide

end WorkStack.RemoteUpdate
