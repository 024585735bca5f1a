import WorkStack.RemoteUpdate.Placed

/-!
# Rolling an activation back

A rollback puts the previous application back in charge, so the data in place must not be migrated, and
there must be a receipt to roll back. The flow reads the first off a flag that a verified restore sets
and nothing but a restart clears, and the second off the id of the activation that it has named. Both
can outlive their meaning: an activation can be confirmed after the restore, and a refused activation
leaves its id behind. Away from these two steps every rollback is one of the right kind.
-/

namespace WorkStack.RemoteUpdate

/-! ## What a call leaves alone -/

variable {question : Question} {operationId : String} {decision : Decision}

section Steps

variable {slots slots' : Slots}

/-- What decides whether the data in place is migrated is left alone by every call. -/
theorem Asks.migration_eq {call : Call} (h : Asks slots call operationId question slots') :
    slots'.restored = slots.restored ∧
      slots'.migrationRequired = slots.migrationRequired ∧ slots'.index = slots.index := by
  cases h <;> exact ⟨rfl, rfl, rfl⟩

theorem settled_migration (slots : Slots) (kind : Kind) (operationId : String) (code : Code) :
    (slots.settled kind operationId code).restored = slots.restored ∧
      (slots.settled kind operationId code).migrationRequired = slots.migrationRequired ∧
      (slots.settled kind operationId code).activationId = slots.activationId := by
  unfold Slots.settled
  split_ifs <;> exact ⟨rfl, rfl, rfl⟩

/-- A settled identity never moves the flow back. -/
theorem Placed.index_le_settled (h : Placed slots) {pending : PendingOperation} {answer : Answer} {decided : Slots}
    (hpending : slots.pending = some pending) (hanchor : pending.kind.isAnchor = false)
    (hdecision : decision ∈ pending.kind.decisions) (hdecided : Decides pending.kind answer decision.2 slots decided) :
    slots.index ≤ (decided.settled pending.kind pending.operationId decision.2).index := by
  have hsettles := @settles decided _ _ pending.operationId hanchor hdecision
  have hactivate := h.ordered.activate
  generalize decided.settled pending.kind pending.operationId decision.2 = after at hsettles
  cases hsettles with
  | committed hkind =>
      obtain ⟨anchor, hactivation, hpendingAnchor⟩ := h.confirming pending hpending hkind
      have hindex := h.pendingAnchor anchor hactivation hpendingAnchor
      change slots.index ≤ decided.order.index .activate + 1
      rw [hdecided.order]
      omega
  | progressed hkind =>
      have hindex := h.staged pending hpending hkind
      change slots.index ≤ decided.order.index pending.kind.spec.stage + 1
      rw [hdecided.order]
      omega
  | _ => exact hdecided.index.ge

end Steps

/-! ## Old code and migrated data -/

/-- A restore has been verified, and no activation has been confirmed since; the latest event first. -/
def restoredSinceConfirm : List Event → Bool
  | [] => false
  | event :: earlier => event.establishes .backupRestore [.restoreVerified] ||
      (!event.issues .activationConfirm && restoredSinceConfirm earlier)

/-- A call that confirms an activation while the data counts as restored and may be migrated. -/
def Flow.confirmsRestored (flow : Flow) : Call → Bool
  | .resumeAfterRestart evidence =>
      flow.restoredPreMigration && flow.migrationRequired ≠ some false && flow.pending.isNone &&
        flow.activation.any fun anchor ↦
          anchor.kind = .activationPending && (classifyStartup evidence anchor.operationId).isNone
  | _ => false

def System.confirmsRestored (s : System) : Move → Bool
  | .call call _ => s.flow.confirmsRestored call
  | _ => false

/-- The update is known not to migrate, and nothing that is still to come says otherwise. -/
def Spared (slots : Slots) : Prop := slots.migrationRequired = some false ∧ slots.order.backup < slots.index

/-- Where the data counts as restored, no activation has been confirmed since, or none migrates. -/
structure RestoredRun (s : System) : Prop where
  inPlace : InPlace s
  restored : s.flow.slots.restored → restoredSinceConfirm (attempt s.history) ∨ Spared s.flow.slots
  confirming : ∀ operationId codeOnly, s.phase = .asking (.issue .activationConfirm operationId codeOnly) →
    s.flow.slots.restored → Spared s.flow.slots
  rolling : ∀ operationId codeOnly, s.phase = .asking (.issue .activationRollback operationId codeOnly) →
    s.flow.slots.restored ∨ s.flow.slots.migrationRequired = some false

namespace RestoredRun

variable {s : System}

theorem start (prepareBeforeStop : Bool) : RestoredRun (System.start prepareBeforeStop) where
  inPlace := InPlace.start prepareBeforeStop
  restored := fun h ↦ by cases h
  confirming := fun _ _ h ↦ by cases h
  rolling := fun _ _ h ↦ by cases h

/-- A confirmation that goes out on restored data goes out where no update migrates. -/
theorem spared_of_confirm (h : RestoredRun s) {call : Call} {operationId confirmed : String} {codeOnly : Bool}
    {slots : Slots} (hfair : s.flow.confirmsRestored call = false)
    (hasks : Asks s.flow.slots call operationId (.issue .activationConfirm confirmed codeOnly) slots)
    (hrestored : s.flow.slots.restored) : Spared s.flow.slots := by
  have hplaced := h.inPlace.placed
  cases hasks with
  | read hreads => cases hreads
  | mutate kind codeOnly hkind => cases hkind; contradiction
  | confirm hpending hactivation hanchor hcall hstartup =>
      have hindex := hplaced.pendingAnchor _ hactivation hanchor
      have hbackup := hplaced.ordered.backup_lt
      have hprobe := hplaced.ordered.probe_lt
      constructor
      · subst hcall
        change s.flow.restoredPreMigration = true at hrestored
        change s.flow.pending = none at hpending
        change s.flow.activation = some _ at hactivation
        change s.flow.migrationRequired = some false
        simpa [Flow.confirmsRestored, hrestored, hpending, hactivation, hanchor, hstartup] using hfair
      · omega

/-- Behind the probe a rollback goes out only on data that counts as not migrated. -/
theorem migration_of_rollback (h : RestoredRun s) {call : Call} {operationId rolled : String} {codeOnly : Bool}
    {slots : Slots} (hasks : Asks s.flow.slots call operationId (.issue .activationRollback rolled codeOnly) slots) :
    s.flow.slots.restored ∨ s.flow.slots.migrationRequired = some false := by
  have hplaced := h.inPlace.placed
  cases hasks with
  | read hreads => cases hreads
  | mutate kind codeOnly hkind => cases hkind; contradiction
  | rollback hpending hmigrated hretention hactivation =>
      have hindex := hplaced.named (by rw [hactivation]; rfl)
      have hprobe := hplaced.ordered.probe_lt
      rcases hmigrated with hrestored | hprobed | hrequired
      · exact Or.inl hrestored
      · omega
      · exact Or.inr hrequired

theorem asks (h : RestoredRun s) {call : Call} {flow : Flow} {drawn : List String}
    (hinPlace : InPlace { s with flow, phase := .asking question, drawn })
    (hfair : s.flow.confirmsRestored call = false) (hasks : Asks s.flow.slots call operationId question flow.slots) :
    RestoredRun { s with flow, phase := .asking question, drawn } := by
  obtain ⟨hrestored, hmigration, hindex⟩ := hasks.migration_eq
  have hspared : Spared s.flow.slots → Spared flow.slots := by
    unfold Spared
    rw [hmigration, hindex, hasks.order_eq]
    exact id
  constructor
  · exact hinPlace
  · intro hflag
    change flow.slots.restored at hflag
    rw [hrestored] at hflag
    exact (h.restored hflag).imp_right hspared
  · intro confirmed codeOnly hphase hflag
    change flow.slots.restored at hflag
    rw [hrestored] at hflag
    cases hphase
    exact hspared (h.spared_of_confirm hfair hasks hflag)
  · intro rolled codeOnly hphase
    cases hphase
    change flow.slots.restored ∨ flow.slots.migrationRequired = some false
    rw [hrestored, hmigration]
    exact h.migration_of_rollback hasks

theorem port (h : RestoredRun s) (hphase : s.phase = .asking question)
    (hinPlace : InPlace { s with phase := .waiting question, history := .issued question :: s.history }) :
    RestoredRun { s with phase := .waiting question, history := .issued question :: s.history } := by
  constructor
  · exact hinPlace
  · intro hflag
    change restoredSinceConfirm (attempt (.issued question :: s.history)) ∨ _
    rw [attempt_cons rfl]
    cases hissues : (Event.issued question).issues .activationConfirm with
    | false =>
        simp only [restoredSinceConfirm, hissues, Bool.not_false, Bool.true_and]
        exact (h.restored hflag).imp_left fun hsince ↦ by rw [hsince, Bool.or_true]
    | true =>
        right
        cases question with
        | issue kind operationId codeOnly =>
            have hkind : kind = .activationConfirm := of_decide_eq_true hissues
            subst hkind
            exact h.confirming operationId codeOnly hphase hflag
        | _ => cases hissues
  · intro _ _ hwaiting
    cases hwaiting
  · intro _ _ hwaiting
    cases hwaiting

theorem kind_of_restoreVerified {kind : Kind} (h : decision ∈ kind.decisions) (hcode : decision.2 = .restoreVerified) :
    kind = .backupRestore := by
  revert decision
  cases kind <;> decide

/-- What an answer settles keeps the update spared, and restores nothing but what it verifies. -/
theorem settled (h : RestoredRun s) {pending : PendingOperation} {answer : Answer} {decided : Slots}
    (hpending : s.flow.slots.pending = some pending)
    (hidentity : question.identity = some (pending.kind, pending.operationId))
    (hcode : question.answerCode answer = some decision.2) (hdecision : decision ∈ pending.kind.decisions)
    (hdecided : Decides pending.kind answer decision.2 s.flow.slots decided)
    (hflag : (decided.settled pending.kind pending.operationId decision.2).restored) :
    restoredSinceConfirm (attempt (.answered question answer :: s.history)) ∨
      Spared (decided.settled pending.kind pending.operationId decision.2) := by
  have hplaced := h.inPlace.placed
  obtain ⟨hrestored, hmigration, _⟩ := settled_migration decided pending.kind pending.operationId decision.2
  have horder := @settled_order decided pending.operationId pending.kind decision.2
  have hanchor := (h.inPlace.standing.recorded.pending pending hpending).1
  have hindex := hplaced.index_le_settled hpending hanchor hdecision hdecided
  rw [attempt_cons rfl]
  rw [hrestored, hdecided.restored, Bool.or_eq_true, decide_eq_true_eq] at hflag
  rcases hflag with hbefore | hverified
  · rcases h.restored hbefore with hsince | hrequired
    · left
      rw [restoredSinceConfirm, hsince]
      exact Bool.or_true _
    · right
      have hbackup := hplaced.ordered.backup
      have hlater : pending.kind ≠ .backupCreate := by
        intro hkind
        have hat := hplaced.staged pending hpending (by rw [hkind]; decide)
        rw [hkind] at hat
        change s.flow.slots.index = s.flow.slots.order.index .backup at hat
        have hlt := hrequired.2
        omega
      constructor
      · rw [hmigration, hdecided.migrationRequired hlater]
        exact hrequired.1
      · rw [horder, hdecided.order]
        exact hrequired.2.trans_le hindex
  · left
    have hkind := kind_of_restoreVerified hdecision hverified
    have hestablishes : (Event.answered question answer).establishes .backupRestore [.restoreVerified] := by
      simp [Event.establishes, hidentity, hcode, hkind, hverified]
    rw [restoredSinceConfirm, hestablishes]
    rfl

theorem answered (h : RestoredRun s) {answer : Answer} {slots : Slots} (hasked : Asked s.flow.slots question)
    (hanswers : Answers s.flow.slots question answer slots) (hflag : slots.restored) :
    restoredSinceConfirm (attempt (.answered question answer :: s.history)) ∨ Spared slots := by
  have hordered := h.inPlace.placed.ordered
  have hbackup := hordered.backup_lt
  have hpreview := hordered.preview
  have hprobe := hordered.probe
  have hactivate := hordered.probe_lt
  have hlength := hordered.length
  have hsince : restoredSinceConfirm (attempt s.history) →
      restoredSinceConfirm (attempt (.answered question answer :: s.history)) := by
    intro hsince
    rw [attempt_cons rfl, restoredSinceConfirm, hsince]
    exact Bool.or_true _
  cases hanswers with
  | quiet => exact (h.restored hflag).imp_left hsince
  | previewed migrationRequired hquestion =>
      subst hquestion
      obtain ⟨_, stage, hstage, hat⟩ := hasked
      cases hstage
      have hindex := hordered.index_eq hat
      rcases h.restored hflag with hbefore | hspared
      · exact Or.inl (hsince hbefore)
      · have hlt := hspared.2
        omega
  | probed =>
      apply (h.restored hflag).imp hsince
      intro hspared
      constructor
      · exact hspared.1
      · change s.flow.slots.order.backup < s.flow.slots.order.index .probe + 1
        omega
  | finished =>
      apply (h.restored hflag).imp hsince
      intro hspared
      constructor
      · exact hspared.1
      · change s.flow.slots.order.backup < s.flow.slots.order.stages.length
        omega
  | settled hidentity hdecision hcode hdecided =>
      unfold Asked at hasked
      rw [hidentity] at hasked
      obtain ⟨pending, hpending, hsame⟩ := hasked
      cases hsame
      exact h.settled hpending hidentity hcode hdecision hdecided hflag

theorem step {move : Move} {s' : System} (h : RestoredRun s) (hfair : s.confirmsRestored move = false)
    (hstep : Steps s move s') : RestoredRun s' := by
  have hinPlace := h.inPlace.step hstep
  cases hstep with
  | quiet hphase hslots =>
      constructor
      · exact hinPlace
      · rw [hslots]
        exact h.restored
      · intro _ _ hasking
        change s.phase = _ at hasking
        rw [hphase] at hasking
        cases hasking
      · intro _ _ hasking
        change s.phase = _ at hasking
        rw [hphase] at hasking
        cases hasking
  | asks hphase hnew hasks => exact h.asks hinPlace hfair hasks
  | port hphase => exact h.port hphase hinPlace
  | answer hphase =>
      rename_i question answer
      constructor
      · exact hinPlace
      · exact h.answered (h.inPlace.asked hphase) (h.inPlace.standing.answers hphase answer)
      · intro _ _ hidle
        cases hidle
      · intro _ _ hidle
        cases hidle
  | restart =>
      have hresumes := resumes h.inPlace.standing.recorded
      constructor
      · exact hinPlace
      · intro hflag
        rw [hresumes.restored] at hflag
        cases hflag
      · intro _ _ hidle
        cases hidle
      · intro _ _ hidle
        cases hidle

end RestoredRun

/-- In every run that never confirms an activation on data that counts as restored and may be migrated:
a rollback goes out only where the update does not migrate, nothing has been activated, or a verified
restore has put the data back and no activation has been confirmed since. -/
theorem rollback_on_restored_data (prepareBeforeStop : Bool) (moves : List Move)
    (hfair : ∀ step ∈ System.steps prepareBeforeStop moves, step.1.confirmsRestored step.2 = false)
    (operationId : String) (codeOnly : Bool)
    (h : (System.after prepareBeforeStop moves).phase = .asking (.issue .activationRollback operationId codeOnly)) :
    (System.after prepareBeforeStop moves).flow.migrationRequired = some false ∨
      (∀ event ∈ attempt (System.after prepareBeforeStop moves).history, event.issues .activationIssue = false) ∨
      restoredSinceConfirm (attempt (System.after prepareBeforeStop moves).history) := by
  have hrun : RestoredRun (System.after prepareBeforeStop moves) :=
    System.invariant_of_steps (RestoredRun.start prepareBeforeStop) (fun _ _ _ ↦ RestoredRun.step) hfair
  rcases hrun.rolling operationId codeOnly h with hrestored | hrequired
  · rcases hrun.restored hrestored with hsince | hspared
    · exact Or.inr (Or.inr hsince)
    · exact Or.inl hspared.1
  · exact Or.inl hrequired

/-- A migrating update that is activated, and its data then put back. -/
def restoredMoves : List Move :=
  verifiedMoves true ++
    stageMoves "activation" (.activation ⟨.str "verified", .bool true, .str "pending", .bool true, .null, .null⟩) ++
    [.call .restore "restore", .port, .answer (.restore ⟨.str "verified", .bool true⟩)]

/-- The same attempt, with the activation confirmed on the restored data. -/
def confirmedMoves : List Move :=
  restoredMoves ++
    [.call (.resumeAfterRestart (some ⟨.str "activation", .str "verified", .str "verified"⟩)) "resume", .port,
      .answer (.activation ⟨.str "verified", .bool true, .str "confirmed", .bool false, .null, .null⟩)]

/-- After the restore the rollback may go out. -/
theorem rollback_on_restored_data_verified :
    restoredSinceConfirm (attempt (System.after false (restoredMoves ++ [.call .rollback "rollback"])).history) := by
  have hfair : ∀ step ∈ System.steps false (restoredMoves ++ [.call .rollback "rollback"]),
      step.1.confirmsRestored step.2 = false := by decide
  have hphase : (System.after false (restoredMoves ++ [.call .rollback "rollback"])).phase =
      .asking (.issue .activationRollback "activation" false) := by decide
  have hmigrates : (System.after false (restoredMoves ++ [.call .rollback "rollback"])).flow.migrationRequired =
      some true := by decide
  have hactivated : ∃ event ∈ attempt (System.after false (restoredMoves ++ [.call .rollback "rollback"])).history,
      event.issues .activationIssue = true := by decide
  rcases rollback_on_restored_data false _ hfair "activation" false hphase with hspared | hnone | hsince
  · rw [hmigrates] at hspared
    cases hspared
  · obtain ⟨event, hevent, hissues⟩ := hactivated
    rw [hnone event hevent] at hissues
    cases hissues
  · exact hsince

/-- Confirmed on the restored data, the migrating update is rolled back with nothing restored since. -/
theorem rollback_on_migrated_data :
    ¬∀ prepareBeforeStop moves operationId codeOnly,
      (System.after prepareBeforeStop moves).phase = .asking (.issue .activationRollback operationId codeOnly) →
      (System.after prepareBeforeStop moves).flow.migrationRequired = some false ∨
        (∀ event ∈ attempt (System.after prepareBeforeStop moves).history, event.issues .activationIssue = false) ∨
        restoredSinceConfirm (attempt (System.after prepareBeforeStop moves).history) := by
  intro h
  have hphase : (System.after false (confirmedMoves ++ [.call .rollback "rollback"])).phase =
      .asking (.issue .activationRollback "activation" false) := by decide
  have hmigrated : ¬((System.after false (confirmedMoves ++ [.call .rollback "rollback"])).flow.migrationRequired =
        some false ∨
      (∀ event ∈ attempt (System.after false (confirmedMoves ++ [.call .rollback "rollback"])).history,
        event.issues .activationIssue = false) ∨
      restoredSinceConfirm (attempt (System.after false (confirmedMoves ++ [.call .rollback "rollback"])).history)) := by
    decide
  exact hmigrated (h _ _ _ _ hphase)

/-! ## A receipt to roll back -/

/-- An answer that settles an activation of this id as having written nothing, or as rolled back. -/
def Event.voids (operationId : String) : Event → Bool
  | .answered question answer =>
      (question.identity = some (.activationIssue, operationId) && question.answerCode answer = some .activateFailed) ||
        (question.identity = some (.activationRollback, operationId) &&
          question.answerCode answer = some .rollbackVerified)
  | _ => false

/-- There is no receipt under this id any more. -/
def voided (operationId : String) (history : List Event) : Bool := history.any (·.voids operationId)

/-- The port refuses to issue an activation. -/
def System.refusesActivation (s : System) (move : Move) : Bool :=
  match s.phase, move with
  | .waiting (.issue .activationIssue _ _), .answer .portRefusal => true
  | _, _ => false

/-- The activation that the flow has named may exist; ids are drawn before they are used. -/
structure LiveRun (s : System) : Prop where
  inPlace : InPlace s
  live : ∀ operationId, s.flow.slots.activationId = some operationId → voided operationId s.history = false
  named : ∀ operationId, s.flow.slots.activationId = some operationId → operationId ∈ s.drawn
  pending : ∀ pending ∈ s.flow.slots.pending, pending.operationId ∈ s.drawn
  voidedDrawn : ∀ operationId, voided operationId s.history → operationId ∈ s.drawn

theorem voided_cons (operationId : String) (event : Event) (history : List Event) :
    voided operationId (event :: history) = (event.voids operationId || voided operationId history) := rfl

namespace LiveRun

variable {s : System}

theorem start (prepareBeforeStop : Bool) : LiveRun (System.start prepareBeforeStop) where
  inPlace := InPlace.start prepareBeforeStop
  live := fun _ _ ↦ rfl
  named := fun _ h ↦ by cases h
  pending := fun _ h ↦ by cases h
  voidedDrawn := fun _ h ↦ by cases h

theorem asks (h : LiveRun s) {call : Call} {flow : Flow}
    (hinPlace : InPlace { s with flow, phase := .asking question, drawn := operationId :: s.drawn })
    (hnew : operationId ∉ s.drawn) (hasks : Asks s.flow.slots call operationId question flow.slots) :
    LiveRun { s with flow, phase := .asking question, drawn := operationId :: s.drawn } := by
  have hfresh : voided operationId s.history = false := by
    rw [Bool.eq_false_iff]
    exact fun hvoided ↦ hnew (h.voidedDrawn operationId hvoided)
  have hid : flow.slots.activationId = s.flow.slots.activationId ∨ flow.slots.activationId = some operationId := by
    generalize flow.slots = slots at hasks
    cases hasks with
    | activate => exact Or.inr rfl
    | _ => exact Or.inl rfl
  have hpending : ∀ pending ∈ flow.slots.pending, pending.operationId ∈ operationId :: s.drawn := by
    generalize flow.slots = slots at hasks
    intro pending hpending
    cases hasks with
    | observe => exact List.mem_cons_of_mem _ (h.pending pending hpending)
    | read => exact List.mem_cons_of_mem _ (h.pending pending hpending)
    | confirm _ hactivation =>
        have hdrawn := h.named _ (h.inPlace.placed.held _ hactivation)
        cases hpending
        exact List.mem_cons_of_mem _ hdrawn
    | rollback _ _ _ hactivation =>
        have hdrawn := h.named _ hactivation
        cases hpending
        exact List.mem_cons_of_mem _ hdrawn
    | _ =>
        cases hpending
        exact List.mem_cons_self ..
  constructor
  · exact hinPlace
  · intro named hnamed
    rcases hid with hsame | hdrawn
    · exact h.live named (hsame.symm.trans hnamed)
    · change flow.slots.activationId = some named at hnamed
      rw [hdrawn, Option.some.injEq] at hnamed
      rw [← hnamed]
      exact hfresh
  · intro named hnamed
    rcases hid with hsame | hdrawn
    · exact List.mem_cons_of_mem _ (h.named named (hsame.symm.trans hnamed))
    · change flow.slots.activationId = some named at hnamed
      rw [hdrawn, Option.some.injEq] at hnamed
      rw [← hnamed]
      exact List.mem_cons_self ..
  · exact hpending
  · exact fun id hvoided ↦ List.mem_cons_of_mem _ (h.voidedDrawn id hvoided)

/-- A refusal voids nothing but the activation that it refuses to issue. -/
theorem issue_of_voids_portRefusal (h : (Event.answered question .portRefusal).voids operationId) :
    ∃ issued codeOnly, question = .issue .activationIssue issued codeOnly := by
  cases question with
  | issue kind issued codeOnly =>
      cases kind with
      | activationIssue => exact ⟨issued, codeOnly, rfl⟩
      | _ => simp [Event.voids, Question.identity, Question.answerCode, Kind.spec] at h
  | observe kind issued =>
      cases kind <;>
        simp [Event.voids, Question.identity, Question.answerCode, Classifier.code, Kind.spec] at h
  | _ => cases h

/-- An activation that is still named once its answer is read back is not void. -/
theorem not_voids {answer : Answer} {kind : Kind} {decided : Slots}
    (hfair : s.refusesActivation (.answer answer) = false) (hphase : s.phase = .waiting question)
    (hcode : question.answerCode answer = some decision.2)
    (hdecided : Decides kind answer decision.2 s.flow.slots decided)
    (hnamed : decided.activationId = some operationId) :
    (Event.answered question answer).voids operationId = false := by
  rw [Bool.eq_false_iff]
  intro hvoids
  have hvoid : decision.2 ∈ voidCodes := by
    simp only [Event.voids, hcode, Option.some.injEq, Bool.or_eq_true, Bool.and_eq_true, decide_eq_true_eq] at hvoids
    rcases hvoids with ⟨_, hfailed⟩ | ⟨_, hrolledBack⟩
    · simp [voidCodes, hfailed]
    · simp [voidCodes, hrolledBack]
  have hanswer : answer ≠ .portRefusal := by
    rintro rfl
    obtain ⟨issued, codeOnly, rfl⟩ := issue_of_voids_portRefusal hvoids
    simp [System.refusesActivation, hphase] at hfair
  rw [hdecided.cleared hanswer hvoid] at hnamed
  cases hnamed

theorem identity_of_voids {answer : Answer} (h : (Event.answered question answer).voids operationId) :
    ∃ kind, question.identity = some (kind, operationId) := by
  simp only [Event.voids, Bool.or_eq_true, Bool.and_eq_true, decide_eq_true_eq] at h
  rcases h with ⟨hissue, _⟩ | ⟨hrollback, _⟩
  · exact ⟨_, hissue⟩
  · exact ⟨_, hrollback⟩

theorem settles_of_voids {answer : Answer} (h : (Event.answered question answer).voids operationId) :
    question.settles answer := by
  simp only [Event.voids, Bool.or_eq_true, Bool.and_eq_true, decide_eq_true_eq] at h
  unfold Question.settles
  rcases h with ⟨_, hfailed⟩ | ⟨_, hrolledBack⟩
  · rw [hfailed]
    rfl
  · rw [hrolledBack]
    rfl

/-- Whatever the answer, what the flow still names it has named before, and the answer does not void it. -/
theorem named_of_answers {answer : Answer} {slots : Slots} (hfair : s.refusesActivation (.answer answer) = false)
    (hphase : s.phase = .waiting question) (hanswers : Answers s.flow.slots question answer slots)
    (hnamed : slots.activationId = some operationId) :
    s.flow.slots.activationId = some operationId ∧ (Event.answered question answer).voids operationId = false := by
  have hreads : ∀ stage, question.reads = some stage → (Event.answered question answer).voids operationId = false := by
    intro stage hstage
    rw [Bool.eq_false_iff]
    intro hvoids
    obtain ⟨kind, hidentity⟩ := identity_of_voids hvoids
    cases question with
    | issue => cases hstage
    | observe => cases hstage
    | _ => cases hidentity
  cases hanswers with
  | quiet hquiet =>
      constructor
      · exact hnamed
      · rw [Bool.eq_false_iff]
        intro hvoids
        rw [settles_of_voids hvoids] at hquiet
        cases hquiet
  | previewed migrationRequired hquestion => exact ⟨hnamed, hreads .preview (by rw [hquestion]; rfl)⟩
  | probed hquestion => exact ⟨hnamed, hreads .probe hquestion⟩
  | finished hquestion => exact ⟨hnamed, hreads .verify hquestion⟩
  | settled hidentity hdecision hcode hdecided =>
      rw [(settled_migration ..).2.2] at hnamed
      constructor
      · rcases Placed.activationId_decided hdecided with hnone | hsame
        · rw [hnone] at hnamed
          cases hnamed
        · exact hsame.symm.trans hnamed
      · exact not_voids hfair hphase hcode hdecided hnamed

/-- Whatever the answer, the identity that stays recorded keeps its id. -/
theorem pending_of_answers {slots slots' : Slots} {answer : Answer} (hasked : Asked slots question)
    (hanswers : Answers slots question answer slots') :
    ∀ pending ∈ slots'.pending, ∃ before ∈ slots.pending, pending.operationId = before.operationId := by
  intro pending hpending
  cases hanswers with
  | quiet => exact ⟨pending, hpending, rfl⟩
  | previewed => exact ⟨pending, hpending, rfl⟩
  | probed => exact ⟨pending, hpending, rfl⟩
  | finished => cases hpending
  | settled hidentity hdecision hcode hdecided =>
      unfold Asked at hasked
      rw [hidentity] at hasked
      obtain ⟨before, hbefore, hsame⟩ := hasked
      cases hsame
      unfold Slots.settled at hpending
      split_ifs at hpending
      · cases hpending
        exact ⟨before, hbefore, rfl⟩
      all_goals cases hpending

theorem answer (h : LiveRun s) {answer : Answer} (hphase : s.phase = .waiting question)
    (hfair : s.refusesActivation (.answer answer) = false)
    (hinPlace : InPlace { s with
      flow := (s.flow.answered question answer).2
      phase := .idle
      history := .answered question answer :: s.history }) :
    LiveRun { s with
      flow := (s.flow.answered question answer).2
      phase := .idle
      history := .answered question answer :: s.history } := by
  have hasked := h.inPlace.asked hphase
  have hanswers := h.inPlace.standing.answers hphase answer
  constructor
  · exact hinPlace
  · intro operationId hnamed
    obtain ⟨hbefore, hvoids⟩ := named_of_answers hfair hphase hanswers hnamed
    rw [voided_cons, hvoids, h.live operationId hbefore]
    rfl
  · intro operationId hnamed
    exact h.named operationId (named_of_answers hfair hphase hanswers hnamed).1
  · intro pending hpending
    obtain ⟨before, hbefore, hsame⟩ := pending_of_answers hasked hanswers pending hpending
    rw [hsame]
    exact h.pending before hbefore
  · intro operationId hvoided
    rw [voided_cons, Bool.or_eq_true] at hvoided
    rcases hvoided with hvoids | hbefore
    · obtain ⟨kind, hidentity⟩ := identity_of_voids hvoids
      unfold Asked at hasked
      rw [hidentity] at hasked
      obtain ⟨pending, hpending, hsame⟩ := hasked
      cases hsame
      exact h.pending pending hpending
    · exact h.voidedDrawn operationId hbefore

theorem restart (h : LiveRun s)
    (hinPlace : InPlace { s with
      flow := Flow.build s.flow.order s.flow.journal
      phase := .idle
      history := .rebuilt s.flow.journal :: s.history }) :
    LiveRun { s with
      flow := Flow.build s.flow.order s.flow.journal
      phase := .idle
      history := .rebuilt s.flow.journal :: s.history } := by
  have hresumes := resumes h.inPlace.standing.recorded
  have hid : ∀ operationId, (Flow.build s.flow.order s.flow.journal).slots.activationId = some operationId →
      s.flow.slots.activationId = some operationId := by
    intro operationId hnamed
    rw [hresumes.activationId] at hnamed
    rw [← (h.inPlace.placed.recordedId_eq (by rw [hnamed]; simp)).1, hnamed]
  constructor
  · exact hinPlace
  · intro operationId hnamed
    exact h.live operationId (hid operationId hnamed)
  · intro operationId hnamed
    exact h.named operationId (hid operationId hnamed)
  · intro pending hpending
    change pending ∈ (Flow.build s.flow.order s.flow.journal).slots.pending at hpending
    rw [hresumes.pending] at hpending
    exact h.pending pending hpending
  · exact h.voidedDrawn

theorem step {move : Move} {s' : System} (h : LiveRun s) (hfair : s.refusesActivation move = false)
    (hstep : Steps s move s') : LiveRun s' := by
  have hinPlace := h.inPlace.step hstep
  cases hstep with
  | quiet hphase hslots hdrawn =>
      constructor
      · exact hinPlace
      · rw [hslots]
        exact h.live
      · rw [hslots]
        exact fun operationId hnamed ↦ hdrawn (h.named operationId hnamed)
      · rw [hslots]
        exact fun pending hpending ↦ hdrawn (h.pending pending hpending)
      · exact fun operationId hvoided ↦ hdrawn (h.voidedDrawn operationId hvoided)
  | asks hphase hnew hasks => exact h.asks hinPlace hnew hasks
  | port hphase => exact ⟨hinPlace, h.live, h.named, h.pending, h.voidedDrawn⟩
  | answer hphase => exact h.answer hphase hfair hinPlace
  | restart => exact h.restart hinPlace

end LiveRun

section Offers

variable {flow : Flow}

theorem Flow.not_mem_recovery (h : flow.rollbackAvailable = false) : .rollbackActivation ∉ flow.recovery := by
  unfold recovery
  rw [h]
  simp only [Bool.false_eq_true, if_false, List.nil_append]
  split_ifs <;> simp

theorem Flow.not_mem_failedActions (h : flow.rollbackAvailable = false) :
    .rollbackActivation ∉ flow.failedActions := by
  have hrecovery := flow.not_mem_recovery h
  have hescape : .rollbackActivation ∉ flow.escape := by
    unfold escape
    split <;> simp
  unfold failedActions
  dsimp only
  split_ifs <;> simp [hrecovery, hescape]

/-- A rollback is offered only where it is available. -/
theorem Flow.rollbackAvailable_of_offered {view : Snapshot} (hview : flow.snapshot = some view)
    (h : .rollbackActivation ∈ view.actions) : flow.rollbackAvailable := by
  obtain ⟨actions, hactions, rfl⟩ := Option.map_eq_some_iff.mp hview
  change .rollbackActivation ∈ actions at h
  by_contra hunavailable
  rw [Bool.not_eq_true] at hunavailable
  have hrecovery := flow.not_mem_recovery hunavailable
  have hfailed := flow.not_mem_failedActions hunavailable
  have hescape : .rollbackActivation ∉ flow.escape := by
    unfold escape
    split <;> simp
  unfold Flow.actions at hactions
  split_ifs at hactions
  · cases hactions
    simp at h
  · cases hactions
    simp at h
  · cases hactions
    simp at h
  · cases hactions
    simp at h
  · cases hactions
    simp [hrecovery] at h
  · cases hactions
    simp [pairingActions, hunavailable] at h
  · cases hactions
    simp at h
  · cases hactions
    simp [hrecovery] at h
  · cases hactions
    exact hfailed h
  · obtain ⟨next, hnext, rfl⟩ := Option.map_eq_some_iff.mp hactions
    obtain ⟨stage, _, rfl⟩ := Option.map_eq_some_iff.mp hnext
    have hstage : flow.order.actionOf stage ≠ .rollbackActivation := by
      unfold RunOrder.actionOf
      split <;> simp
    simp [hescape, hstage.symm] at h

end Offers

/-- In every run in which no port refuses to issue an activation: a rollback is offered and issued only
under the id of an activation that may have been written and has not been rolled back. -/
theorem rollback_of_live_activation (prepareBeforeStop : Bool) (moves : List Move)
    (hfair : ∀ step ∈ System.steps prepareBeforeStop moves, step.1.refusesActivation step.2 = false) :
    (∀ view, (System.after prepareBeforeStop moves).flow.snapshot = some view → .rollbackActivation ∈ view.actions →
      ∃ operationId, (System.after prepareBeforeStop moves).flow.activationId = some operationId ∧
        voided operationId (System.after prepareBeforeStop moves).history = false) ∧
    ∀ operationId codeOnly,
      (System.after prepareBeforeStop moves).phase = .asking (.issue .activationRollback operationId codeOnly) →
      voided operationId (System.after prepareBeforeStop moves).history = false := by
  have hrun : LiveRun (System.after prepareBeforeStop moves) :=
    System.invariant_of_steps (LiveRun.start prepareBeforeStop) (fun _ _ _ ↦ LiveRun.step) hfair
  constructor
  · intro view hview hoffered
    have havailable := Flow.rollbackAvailable_of_offered hview hoffered
    cases hid : (System.after prepareBeforeStop moves).flow.activationId with
    | none => simp [Flow.rollbackAvailable, hid] at havailable
    | some operationId => exact ⟨operationId, rfl, hrun.live operationId hid⟩
  · intro operationId codeOnly hphase
    have hasked := hrun.inPlace.standing.asked
    rw [hphase] at hasked
    obtain ⟨pending, hpending, hsame⟩ := hasked
    obtain ⟨hkind, hid⟩ := Prod.mk.inj hsame
    rw [← hid]
    apply hrun.live
    exact hrun.inPlace.placed.naming pending hpending (by rw [hkind]; rfl)

/-- An update that migrates nothing, its activation written and then rolled back. -/
def writtenMoves : List Move :=
  verifiedMoves false ++
    stageMoves "activation" (.activation ⟨.str "verified", .bool true, .str "pending", .bool true, .null, .null⟩) ++
    [.call .rollback "rollback"]

/-- The same update, its activation refused. -/
def refusedMoves : List Move :=
  verifiedMoves false ++ stageMoves "activation" .portRefusal ++ [.call .rollback "rollback"]

theorem rollback_of_live_activation_written :
    voided "activation" (System.after false writtenMoves).history = false := by
  have hfair : ∀ step ∈ System.steps false writtenMoves, step.1.refusesActivation step.2 = false := by
    decide
  have hphase : (System.after false writtenMoves).phase = .asking (.issue .activationRollback "activation" false) := by
    decide
  exact (rollback_of_live_activation false writtenMoves hfair).2 _ _ hphase

/-- Refused, an activation that was never written is rolled back. -/
theorem rollback_of_refused_activation :
    ¬∀ prepareBeforeStop moves operationId codeOnly,
      (System.after prepareBeforeStop moves).phase = .asking (.issue .activationRollback operationId codeOnly) →
      voided operationId (System.after prepareBeforeStop moves).history = false := by
  intro h
  have hphase : (System.after false refusedMoves).phase = .asking (.issue .activationRollback "activation" false) := by
    decide
  have hvoided : voided "activation" (System.after false refusedMoves).history = true := by decide
  rw [h _ _ _ _ hphase] at hvoided
  cases hvoided

end WorkStack.RemoteUpdate
