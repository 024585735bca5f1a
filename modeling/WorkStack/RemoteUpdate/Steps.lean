import WorkStack.RemoteUpdate.Flow
import Mathlib

/-!
# What a step can do

Most of what a flow holds is for its snapshot. What its guards compare, apart from the stage and the
code, are its slots, and a step changes them in few ways: a call either leaves them alone, or asks
something, or records a mutation before it is issued; an answer leaves them alone, moves the order
forward, or settles the recorded mutation as its code says.
-/

namespace WorkStack.RemoteUpdate

/-! ## The slots of a flow -/

/-- What the guards of a flow compare, apart from its stage and its code. -/
structure Slots where
  order : RunOrder
  index : ℕ
  activationId : Option String
  retention : Observation
  restored : Bool
  backed : Bool
  migrationRequired : Option Bool
  pending : Option PendingOperation
  activation : Option PendingOperation
  journal : List PendingOperation
  deriving DecidableEq

namespace Slots

variable (slots : Slots)

def newRecord (kind : Kind) (operationId : String) : PendingOperation :=
  ⟨kind.spec.stage, operationId, kind, slots.retention⟩

def recorded (pending activation : Option PendingOperation) : Slots :=
  { slots with pending, activation, journal := activation.toList ++ pending.toList }

/-- The slots once a mutation is recorded that has not been issued. -/
def opened (kind : Kind) (operationId : String) : Slots :=
  slots.recorded (some (slots.newRecord kind operationId)) slots.activation

end Slots

namespace Flow

variable (flow : Flow)

def slots : Slots where
  order := flow.order
  index := flow.index
  activationId := flow.activationId
  retention := flow.retention
  restored := flow.restoredPreMigration
  backed := flow.backup.status = .verified
  migrationRequired := flow.migrationRequired
  pending := flow.pending
  activation := flow.activation
  journal := flow.journal

@[simp] theorem slots_publish (stage : Stage) (code : Code) : (flow.publish stage code).slots = flow.slots := rfl

@[simp] theorem slots_progress (stage : Stage) (code : Code) :
    (flow.progress stage code).slots = { flow.slots with index := flow.order.index stage + 1 } := rfl

@[simp] theorem slots_record (pending activation : Option PendingOperation) :
    (flow.record pending activation).slots =
      { flow.slots with pending, activation, journal := activation.toList ++ pending.toList } := rfl

theorem slots_settleCancelled : flow.settleCancelled.2.slots = flow.slots := by
  unfold settleCancelled
  split <;> rfl

theorem slots_reconciled : flow.reconciled.2.slots = flow.slots := by
  unfold reconciled
  split
  · exact flow.slots_settleCancelled
  · rfl

end Flow

/-! ## What a call does -/

/-- The public calls of a flow; the evidence is missing where the caller passes something else. -/
inductive Call where
  | advance
  | retry
  | reconcile
  | resumeAfterRestart (evidence : Option StartupEvidence)
  | cancel
  | restore
  | rollback

/-- What a call does, given the operation id that it may draw. -/
def Call.begin (call : Call) (operationId : String) (flow : Flow) : Turn :=
  match call with
  | .advance => flow.advance operationId
  | .retry => flow.retry operationId
  | .reconcile => flow.reconcile
  | .resumeAfterRestart evidence => flow.resumeAfterRestart evidence
  | .cancel => flow.cancel
  | .restore => flow.restore operationId
  | .rollback => flow.rollback

/-- The stage that a question without an identity belongs to. -/
def Question.reads : Question → Option Stage
  | .describe => some .preview
  | .probe _ => some .probe
  | .verify _ => some .verify
  | _ => none

/-- The recorded identity that a question is about. -/
def Question.identity : Question → Option (Kind × String)
  | .issue kind operationId _ => some (kind, operationId)
  | .observe kind operationId => some (kind, operationId)
  | _ => none

/-- The mutations that run as stages before the activation. -/
def stageKinds : List Kind := [.ownerStop, .backupCreate, .prepareApply]

/-- All that a call can ask, with the slots it leaves while the port has not answered. -/
inductive Asks (slots : Slots) (call : Call) (operationId : String) : Question → Slots → Prop
  | observe {pending : PendingOperation} (hpending : slots.pending = some pending) :
      Asks slots call operationId (.observe pending.kind pending.operationId) slots
  | read {question : Question} {stage : Stage} (hreads : question.reads = some stage)
      (hpending : slots.pending = none) (hstage : slots.order.stages[slots.index]? = some stage)
      (hbacked : stage = .probe → slots.backed) : Asks slots call operationId question slots
  | mutate (kind : Kind) (codeOnly : Bool) (hkind : kind ∈ stageKinds) (hpending : slots.pending = none)
      (hstage : slots.order.stages[slots.index]? = some kind.spec.stage)
      (hcodeOnly : codeOnly = (kind = .prepareApply && slots.order.prepareBeforeStop))
      (hbacked : kind = .prepareApply → codeOnly = false → slots.backed) :
      Asks slots call operationId (.issue kind operationId codeOnly) (slots.opened kind operationId)
  | activate (hpending : slots.pending = none)
      (hrestart : ∀ anchor ∈ slots.activation, anchor.kind ≠ .activationPending)
      (hstage : slots.order.stages[slots.index]? = some .activate) :
      Asks slots call operationId (.issue .activationIssue operationId false)
        ({ slots with activationId := some operationId }.opened .activationIssue operationId)
  | confirm {anchor : PendingOperation} {evidence : Option StartupEvidence} (hpending : slots.pending = none)
      (hactivation : slots.activation = some anchor) (hanchor : anchor.kind = .activationPending)
      (hcall : call = .resumeAfterRestart evidence)
      (hstartup : classifyStartup evidence anchor.operationId = none) :
      Asks slots call operationId (.issue .activationConfirm anchor.operationId false)
        (slots.opened .activationConfirm anchor.operationId)
  | restore (hpending : slots.pending = none) (hbacked : slots.backed) :
      Asks slots call operationId (.issue .backupRestore operationId false) (slots.opened .backupRestore operationId)
  | rollback {activationId : String} (hpending : slots.pending = none)
      (hmigrated : slots.restored ∨ slots.index ≤ slots.order.probe ∨ slots.migrationRequired = some false)
      (hretention : slots.retention = .verified) (hactivation : slots.activationId = some activationId) :
      Asks slots call operationId (.issue .activationRollback activationId false)
        (slots.opened .activationRollback activationId)

/-- All that a call can do before a port has answered. -/
inductive Begins (slots : Slots) (call : Call) (operationId : String) : Turn → Prop
  | quiet {ending : Ending} {flow : Flow} (h : flow.slots = slots) : Begins slots call operationId (.ends ending flow)
  | asks {question : Question} {flow : Flow} (h : Asks slots call operationId question flow.slots) :
      Begins slots call operationId (.asks question flow)

section Calls

variable {flow : Flow} {call : Call} {operationId : String}

theorem begins_refuse (code : RefusalCode) : Begins flow.slots call operationId (flow.refuse code) := .quiet rfl

theorem begins_endWith {ended : Ending × Flow} (h : ended.2.slots = flow.slots) :
    Begins flow.slots call operationId (Flow.endWith ended) := .quiet h

theorem begins_askPending {pending : PendingOperation} (h : flow.pending = some pending) :
    Begins flow.slots call operationId (flow.askPending pending) := .asks (.observe h)

theorem begins_runPrepare (hpending : flow.pending = none)
    (hstage : flow.order.stages[flow.index]? = some .prepare) : Begins flow.slots call operationId (flow.runPrepare operationId) := by
  unfold Flow.runPrepare
  by_cases hfirst : flow.order.prepareBeforeStop
  · rw [if_pos hfirst]
    apply Begins.asks
    apply Asks.mutate .prepareApply true (by decide) hpending hstage
    · exact hfirst.symm
    · intro _ h
      cases h
  · rw [if_neg hfirst]
    by_cases hbacked : flow.backup.status = .verified
    · rw [if_neg (not_not.mpr hbacked)]
      apply Begins.asks
      apply Asks.mutate .prepareApply false (by decide) hpending hstage
      · exact (Bool.eq_false_iff.mpr hfirst).symm
      · intro _ _
        exact decide_eq_true hbacked
    · rw [if_pos hbacked]
      exact .quiet rfl

theorem begins_runProbe (hpending : flow.pending = none)
    (hstage : flow.order.stages[flow.index]? = some .probe) : Begins flow.slots call operationId (flow.runProbe operationId) := by
  unfold Flow.runProbe
  by_cases hbacked : flow.backup.status = .verified
  · rw [if_neg (not_not.mpr hbacked)]
    exact .asks (.read rfl hpending hstage fun _ ↦ decide_eq_true hbacked)
  · rw [if_pos hbacked]
    exact .quiet rfl

theorem begins_run (hpending : flow.pending = none) (hrestart : flow.restartPending = false) :
    Begins flow.slots call operationId (flow.run operationId) := by
  unfold Flow.run
  cases hstage : flow.order.stages[flow.index]? with
  | none => exact .quiet rfl
  | some stage =>
      cases stage with
      | preview => exact .asks (.read rfl hpending hstage fun h ↦ by cases h)
      | stop => exact .asks (.mutate .ownerStop false (by decide) hpending hstage rfl fun h ↦ by cases h)
      | backup => exact .asks (.mutate .backupCreate false (by decide) hpending hstage rfl fun h ↦ by cases h)
      | prepare => exact begins_runPrepare hpending hstage
      | probe => exact begins_runProbe hpending hstage
      | activate =>
          apply Begins.asks
          apply Asks.activate hpending _ hstage
          intro anchor hanchor hkind
          rw [Option.mem_def] at hanchor
          change flow.activation = some anchor at hanchor
          simp [Flow.restartPending, hanchor, hkind] at hrestart
      | verify => exact .asks (.read rfl hpending hstage fun h ↦ by cases h)
      | _ => exact .quiet rfl

theorem begins_advance : Begins flow.slots call operationId (flow.advance operationId) := by
  unfold Flow.advance
  cases hpending : flow.pending with
  | some pending => exact begins_askPending hpending
  | none =>
      dsimp only
      split
      · exact begins_refuse _
      split
      · exact begins_refuse _
      split
      · exact begins_refuse _
      split
      · exact begins_refuse _
      rename_i hrestart
      split
      · exact begins_endWith flow.slots_settleCancelled
      · exact begins_run hpending (Bool.eq_false_iff.mpr hrestart)

theorem begins_retry : Begins flow.slots call operationId (flow.retry operationId) := by
  unfold Flow.retry
  split
  · exact begins_refuse _
  rename_i hopen
  rw [not_or, Option.not_isSome_iff_eq_none] at hopen
  split
  · exact begins_refuse _
  split
  · exact begins_refuse _
  split
  · exact begins_refuse _
  split
  · exact begins_endWith flow.slots_settleCancelled
  · exact begins_run hopen.1 (Bool.eq_false_iff.mpr hopen.2)

theorem begins_reconcile : Begins flow.slots call operationId flow.reconcile := by
  unfold Flow.reconcile
  cases hpending : flow.pending with
  | none => exact begins_refuse _
  | some pending => exact begins_askPending hpending

theorem begins_resumeAfterRestart (evidence : Option StartupEvidence) :
    Begins flow.slots (.resumeAfterRestart evidence) operationId (flow.resumeAfterRestart evidence) := by
  unfold Flow.resumeAfterRestart
  split
  · exact begins_refuse _
  rename_i hopen
  rw [Option.not_isSome_iff_eq_none] at hopen
  cases hactivation : flow.activation with
  | none => exact begins_refuse _
  | some anchor =>
      dsimp only
      split
      · exact begins_refuse _
      rename_i hrestart
      have hanchor : anchor.kind = .activationPending := by
        simpa [Flow.restartPending, hactivation] using hrestart
      cases hstartup : classifyStartup evidence anchor.operationId with
      | some decision => exact .quiet rfl
      | none => exact .asks (.confirm hopen hactivation hanchor rfl hstartup)

theorem begins_cancel : Begins flow.slots call operationId flow.cancel := by
  unfold Flow.cancel
  split
  · exact begins_refuse _
  dsimp only
  split
  · exact .quiet rfl
  split
  · exact .quiet rfl
  · exact begins_endWith (Flow.slots_settleCancelled _)

theorem begins_restore : Begins flow.slots call operationId (flow.restore operationId) := by
  unfold Flow.restore
  split
  · exact begins_refuse _
  rename_i hopen
  rw [Option.not_isSome_iff_eq_none] at hopen
  by_cases hbacked : flow.backup.status = .verified
  · rw [if_neg (not_not.mpr hbacked)]
    exact .asks (.restore hopen (decide_eq_true hbacked))
  · rw [if_pos hbacked]
    exact begins_refuse _

theorem notMigrated_cases (h : flow.dataMigrated = some false) :
    flow.slots.restored ∨ flow.slots.index ≤ flow.slots.order.probe ∨ flow.slots.migrationRequired = some false := by
  unfold Flow.dataMigrated at h
  split at h
  · left
    assumption
  split at h
  · right
    left
    assumption
  · exact Or.inr (Or.inr h)

theorem begins_rollback : Begins flow.slots call operationId flow.rollback := by
  unfold Flow.rollback
  split
  · exact begins_refuse _
  rename_i hopen
  rw [Option.not_isSome_iff_eq_none] at hopen
  split
  · exact begins_refuse _
  rename_i hmigrated
  split
  · exact begins_refuse _
  rename_i hretention
  cases hactivation : flow.activationId with
  | none => exact begins_refuse _
  | some activationId =>
      apply Begins.asks
      apply Asks.rollback hopen _ (not_not.mp hretention) hactivation
      exact notMigrated_cases (not_not.mp hmigrated)

theorem begins (flow : Flow) (call : Call) (operationId : String) : Begins flow.slots call operationId (call.begin operationId flow) := by
  cases call with
  | advance => exact begins_advance
  | retry => exact begins_retry
  | reconcile => exact begins_reconcile
  | resumeAfterRestart evidence => exact begins_resumeAfterRestart evidence
  | cancel => exact begins_cancel
  | restore => exact begins_restore
  | rollback => exact begins_rollback

end Calls

/-! ## What an answer settles -/

/-- Whether a code leaves the identity it is about unsettled. -/
def Code.keepsOpen (code : Code) : Bool := (retainedKind code).any fun kind ↦ !kind.isAnchor

/-- The code of an outcome of the classifier's own type. -/
def Classifier.code : Classifier → Answer → Option Code
  | .ownerStop, .ownerStop facts => some (classifyOwnerStop facts).2
  | .backupCreate, .backup outcome => some (classifyBackupCreate outcome none).2.2
  | .prepareApply, .prepare outcome => some (classifyPrepareApply outcome).2.2
  | .activationIssue, .activation outcome => some (classifyActivationIssue outcome).2
  | .activationConfirm, .activation outcome => some (classifyActivationConfirm outcome).2
  | .backupRestore, .restore outcome => some (classifyBackupRestore outcome).2
  | .activationRollback, .rollback outcome => some (classifyActivationRollback outcome).2
  | _, _ => none

/-- The code that an answer establishes for the identity it is about. Any exception but the two of the
contract establishes none; a refusal settles what it refuses to issue, and nothing when observing. -/
def Question.answerCode (question : Question) (answer : Answer) : Option Code :=
  match question, answer with
  | .issue _ _ _, .otherError => none
  | .observe _ _, .otherError => none
  | .issue kind _ _, .portRefusal => some kind.spec.refusedCode
  | .issue kind _ _, answer => some ((kind.spec.classify.code answer).getD kind.spec.openCode)
  | .observe kind _, answer => some ((kind.spec.classify.code answer).getD kind.spec.openCode)
  | _, _ => none

/-- Whether an answer settles the identity it is about. -/
def Question.settles (question : Question) (answer : Answer) : Bool :=
  (question.answerCode answer).any fun code ↦ !code.keepsOpen

/-- The decisions of a classifier. -/
def Classifier.decisions : Classifier → List Decision
  | .ownerStop =>
      [(.failed, .stopRefusedMissingToken), (.unknown, .stopTokenUnknown), (.failed, .stopRefusedForeignHost),
        (.failed, .stopRefusedUnfencedReceipt), (.failed, .stopOwnerStillLive), (.failed, .stopFailed),
        (.unknown, .stopIncompleteUnknown), (.stop, .stopVerifiedWithoutPidfd), (.stop, .stopVerified)]
  | .backupCreate =>
      [(.backup, .backupVerified), (.failed, .backupFailed), (.failed, .backupNotRun), (.unknown, .backupUnknown)]
  | .prepareApply =>
      [(.failed, .prepareCapabilityUnavailable), (.failed, .prepareFailed), (.unknown, .prepareUnknown),
        (.failed, .previousAppNotPreserved), (.unknown, .previousAppPreservationUnknown), (.prepare, .prepareReady)]
  | .activationIssue =>
      [(.failed, .activateFailed), (.activate, .activatePendingRestart), (.unknown, .activateUnknown)]
  | .activationConfirm =>
      [(.activate, .activateCommitted), (.failed, .activateConfirmFailed), (.unknown, .activateConfirmUnknown)]
  | .backupRestore => [(.failed, .restoreVerified), (.failed, .restoreFailed), (.unknown, .restoreUnknown)]
  | .activationRollback => [(.failed, .rollbackVerified), (.failed, .rollbackFailed), (.unknown, .rollbackUnknown)]

/-- What can be decided about an identity of a kind. -/
def Kind.decisions (kind : Kind) : List Decision :=
  (.unknown, kind.spec.openCode) :: (.failed, kind.spec.refusedCode) :: kind.spec.classify.decisions

/-- The codes after which the registry holds no receipt of the activation. -/
def voidCodes : List Code := [.activateFailed, .rollbackVerified]

namespace Slots

variable (slots : Slots)

/-- What a code makes of the recorded identity. -/
def settled (kind : Kind) (operationId : String) (code : Code) : Slots :=
  if code.keepsOpen then slots.recorded (some (slots.newRecord kind operationId)) slots.activation
  else if code = .activatePendingRestart then
    slots.recorded none (some (slots.newRecord .activationPending operationId))
  else if code = .activateCommitted then
    { slots with index := slots.order.index .activate + 1 }.recorded none
      (some (slots.newRecord .activationConfirmed operationId))
  else if code = .rollbackVerified then slots.recorded none none
  else if code ∈ progressCodes then
    { slots with index := slots.order.index kind.spec.stage + 1 }.recorded none slots.activation
  else slots.recorded none slots.activation

end Slots

theorem Flow.slots_settle {kind : Kind} {decision : Decision} (flow : Flow) (operationId : String)
    (hkind : kind.isAnchor = false) (h : decision ∈ kind.decisions) :
    (flow.settle decision operationId).slots = flow.slots.settled kind operationId decision.2 := by
  have hrestore : (flow.settle (.failed, .restoreVerified) operationId).slots =
      flow.slots.recorded none flow.slots.activation := by
    unfold Flow.settle Flow.settledCode
    cases flow.activationHeld <;> rfl
  cases kind <;> simp only [Kind.decisions, Kind.spec, Classifier.decisions, List.mem_cons, List.not_mem_nil,
    or_false] at h
  case activationPending => cases hkind
  case activationConfirmed => cases hkind
  case backupRestore =>
    rcases h with rfl | rfl | rfl | rfl | rfl
    · rfl
    · rfl
    · exact hrestore
    · rfl
    · rfl
  all_goals
    repeat' (rcases h with rfl | h)
    all_goals rfl

/-- What reading an outcome back changes before its code is settled. -/
structure Decides (kind : Kind) (answer : Answer) (code : Code) (before after : Slots) : Prop where
  order : after.order = before.order
  index : after.index = before.index
  pending : after.pending = before.pending
  activation : after.activation = before.activation
  journal : after.journal = before.journal
  cleared : answer ≠ .portRefusal → code ∈ voidCodes → after.activationId = none
  kept : answer = .portRefusal ∨ code ∉ voidCodes → after.activationId = before.activationId
  restored : after.restored = (before.restored || code = .restoreVerified)
  backed : after.backed → code = .backupVerified ∨ before.backed
  migrationRequired : kind ≠ .backupCreate → after.migrationRequired = before.migrationRequired
  retention : kind ≠ .prepareApply → after.retention = before.retention

/-- A code that opens or refuses changes nothing but the recorded identity. -/
theorem Decides.same {kind : Kind} {answer : Answer} {code : Code} (slots : Slots)
    (hvoid : answer = .portRefusal ∨ code ∉ voidCodes) (hrestore : code ≠ .restoreVerified) :
    Decides kind answer code slots slots where
  order := rfl
  index := rfl
  pending := rfl
  activation := rfl
  journal := rfl
  cleared := by
    intro hanswer hcode
    exact absurd hcode (hvoid.resolve_left hanswer)
  kept := fun _ ↦ rfl
  restored := by simp [hrestore]
  backed := Or.inr
  migrationRequired := fun _ ↦ rfl
  retention := fun _ ↦ rfl

/-! ## Reading an outcome back -/

theorem classifyOwnerStop_mem (facts : OwnerStopFacts) : classifyOwnerStop facts ∈ Classifier.ownerStop.decisions := by
  unfold classifyOwnerStop
  dsimp only
  split <;> (try split_ifs) <;> decide

theorem classifyBackupCreate_mem (outcome : BackupOutcome) (planned : Option Bool) :
    (classifyBackupCreate outcome planned).2 ∈ Classifier.backupCreate.decisions := by
  unfold classifyBackupCreate
  cases backupStatus outcome.status <;> (dsimp only; decide)

theorem classifyPrepareApply_mem (outcome : PrepareOutcome) :
    (classifyPrepareApply outcome).2 ∈ Classifier.prepareApply.decisions := by
  unfold classifyPrepareApply
  dsimp only
  split_ifs <;> (dsimp only; decide)

theorem classifyActivationIssue_mem (outcome : ActivationOutcome) :
    classifyActivationIssue outcome ∈ Classifier.activationIssue.decisions := by
  unfold classifyActivationIssue
  dsimp only
  split_ifs <;> decide

theorem classifyActivationConfirm_mem (outcome : ActivationOutcome) :
    classifyActivationConfirm outcome ∈ Classifier.activationConfirm.decisions := by
  unfold classifyActivationConfirm
  dsimp only
  split_ifs <;> decide

theorem classifyBackupRestore_mem (outcome : RestoreOutcome) :
    classifyBackupRestore outcome ∈ Classifier.backupRestore.decisions := by
  unfold classifyBackupRestore
  dsimp only
  split_ifs <;> decide

theorem classifyActivationRollback_mem (outcome : RollbackOutcome) :
    classifyActivationRollback outcome ∈ Classifier.activationRollback.decisions := by
  unfold classifyActivationRollback
  dsimp only
  split_ifs <;> decide

section Outcomes

variable {flow decided : Flow} {kind : Kind} {answer : Answer} {decision : Decision}

theorem code_classifyBackupCreate (outcome : BackupOutcome) (planned planned' : Option Bool) :
    (classifyBackupCreate outcome planned).2 = (classifyBackupCreate outcome planned').2 := by
  unfold classifyBackupCreate
  cases backupStatus outcome.status <;> rfl

theorem backed_classifyBackupCreate (outcome : BackupOutcome) (planned : Option Bool)
    (h : (classifyBackupCreate outcome planned).1.status = .verified) :
    (classifyBackupCreate outcome planned).2.2 = .backupVerified := by
  unfold classifyBackupCreate at *
  cases hstatus : backupStatus outcome.status <;> simp_all

theorem mem_decisions (h : decision ∈ kind.spec.classify.decisions) : decision ∈ kind.decisions :=
  List.mem_cons_of_mem _ (List.mem_cons_of_mem _ h)

theorem decides_ownerStop (facts : OwnerStopFacts) :
    Decides .ownerStop (.ownerStop facts) (classifyOwnerStop facts).2 flow.slots flow.slots := by
  have hcodes : ∀ decision ∈ Classifier.ownerStop.decisions,
      decision.2 ∉ voidCodes ∧ decision.2 ≠ .restoreVerified := by decide
  have h := hcodes _ (classifyOwnerStop_mem facts)
  exact Decides.same _ (Or.inr h.1) h.2

theorem decides_backupCreate (outcome : BackupOutcome) (planned : Option Bool) :
    Decides .backupCreate (.backup outcome) (classifyBackupCreate outcome planned).2.2 flow.slots
      { flow with backup := (classifyBackupCreate outcome planned).1 }.slots := by
  have hcodes : ∀ decision ∈ Classifier.backupCreate.decisions,
      decision.2 ∉ voidCodes ∧ decision.2 ≠ .restoreVerified := by decide
  have h := hcodes _ (classifyBackupCreate_mem outcome planned)
  have hsame := @Decides.same .backupCreate (.backup outcome) _ flow.slots (Or.inr h.1) h.2
  constructor
  · rfl
  · rfl
  · rfl
  · rfl
  · rfl
  · exact fun hanswer hcode ↦ absurd hcode h.1
  · exact fun _ ↦ rfl
  · exact hsame.restored
  · intro hbacked
    exact Or.inl (backed_classifyBackupCreate outcome planned (of_decide_eq_true hbacked))
  · exact fun hne ↦ absurd rfl hne
  · exact fun _ ↦ rfl

theorem decides_prepareApply (outcome : PrepareOutcome) (fact : PrepareFact) (retention : Observation) :
    Decides .prepareApply (.prepare outcome) (classifyPrepareApply outcome).2.2 flow.slots
      { flow with prepare := fact, retention }.slots := by
  have hcodes : ∀ decision ∈ Classifier.prepareApply.decisions,
      decision.2 ∉ voidCodes ∧ decision.2 ≠ .restoreVerified := by decide
  have h := hcodes _ (classifyPrepareApply_mem outcome)
  have hsame := @Decides.same .prepareApply (.prepare outcome) _ flow.slots (Or.inr h.1) h.2
  constructor
  · rfl
  · rfl
  · rfl
  · rfl
  · rfl
  · exact fun _ hcode ↦ absurd hcode h.1
  · exact fun _ ↦ rfl
  · exact hsame.restored
  · exact hsame.backed
  · exact fun _ ↦ rfl
  · exact fun hne ↦ absurd rfl hne

/-- An outcome that voids the activation takes its id away. -/
theorem decides_void {code : Code} (void : Code) (hanswer : answer ≠ .portRefusal) (hvoid : void ∈ voidCodes)
    (honly : code ∈ voidCodes → code = void) (hrestore : code ≠ .restoreVerified) :
    Decides kind answer code flow.slots
      (if code = void then { flow with activationId := none } else flow).slots := by
  by_cases hcode : code = void
  · rw [if_pos hcode]
    constructor
    · rfl
    · rfl
    · rfl
    · rfl
    · rfl
    · exact fun _ _ ↦ rfl
    · intro h
      exact absurd (hcode ▸ hvoid) (h.resolve_left hanswer)
    · simp [hrestore, Flow.slots]
    · exact Or.inr
    · exact fun _ ↦ rfl
    · exact fun _ ↦ rfl
  · rw [if_neg hcode]
    exact Decides.same _ (Or.inr fun h ↦ hcode (honly h)) hrestore

theorem decides_activationIssue (outcome : ActivationOutcome) :
    Decides kind (.activation outcome) (classifyActivationIssue outcome).2 flow.slots
      (if (classifyActivationIssue outcome).2 = .activateFailed then { flow with activationId := none }
        else flow).slots := by
  have hcodes : ∀ decision ∈ Classifier.activationIssue.decisions,
      (decision.2 ∈ voidCodes → decision.2 = .activateFailed) ∧ decision.2 ≠ .restoreVerified := by decide
  have h := hcodes _ (classifyActivationIssue_mem outcome)
  exact decides_void .activateFailed (by simp) (by decide) h.1 h.2

theorem decides_activationRollback (outcome : RollbackOutcome) :
    Decides kind (.rollback outcome) (classifyActivationRollback outcome).2 flow.slots
      (if (classifyActivationRollback outcome).2 = .rollbackVerified then { flow with activationId := none }
        else flow).slots := by
  have hcodes : ∀ decision ∈ Classifier.activationRollback.decisions,
      (decision.2 ∈ voidCodes → decision.2 = .rollbackVerified) ∧ decision.2 ≠ .restoreVerified := by decide
  have h := hcodes _ (classifyActivationRollback_mem outcome)
  exact decides_void .rollbackVerified (by simp) (by decide) h.1 h.2

theorem decides_activationConfirm (outcome : ActivationOutcome) (versions : MeasuredVersions) :
    Decides kind (.activation outcome) (classifyActivationConfirm outcome).2 flow.slots
      (if (classifyActivationConfirm outcome).2 = .activateCommitted then { flow with versions }
        else flow).slots := by
  have hcodes : ∀ decision ∈ Classifier.activationConfirm.decisions,
      decision.2 ∉ voidCodes ∧ decision.2 ≠ .restoreVerified := by decide
  have h := hcodes _ (classifyActivationConfirm_mem outcome)
  have hslots : (if (classifyActivationConfirm outcome).2 = .activateCommitted then { flow with versions }
      else flow).slots = flow.slots := by
    split <;> rfl
  rw [hslots]
  exact Decides.same _ (Or.inr h.1) h.2

theorem decides_backupRestore (outcome : RestoreOutcome) :
    Decides kind (.restore outcome) (classifyBackupRestore outcome).2 flow.slots
      (if (classifyBackupRestore outcome).2 = .restoreVerified then { flow with restoredPreMigration := true }
        else flow).slots := by
  have hcodes : ∀ decision ∈ Classifier.backupRestore.decisions, decision.2 ∉ voidCodes := by decide
  have h := hcodes _ (classifyBackupRestore_mem outcome)
  by_cases hcode : (classifyBackupRestore outcome).2 = .restoreVerified
  · rw [if_pos hcode]
    constructor
    · rfl
    · rfl
    · rfl
    · rfl
    · rfl
    · exact fun _ hvoid ↦ absurd hvoid h
    · exact fun _ ↦ rfl
    · simp [hcode, Flow.slots]
    · exact Or.inr
    · exact fun _ ↦ rfl
    · exact fun _ ↦ rfl
  · rw [if_neg hcode]
    exact Decides.same _ (Or.inr h) hcode

/-- Reading an outcome back decides something that its kind can decide, by the code of the outcome. -/
theorem decideOutcome_spec (h : flow.decideOutcome kind.spec.classify answer = some (decided, decision)) :
    decision ∈ kind.decisions ∧ kind.spec.classify.code answer = some decision.2 ∧
      Decides kind answer decision.2 flow.slots decided.slots := by
  cases kind with
  | ownerStop =>
      cases answer with
      | ownerStop facts =>
          cases h
          exact ⟨mem_decisions (classifyOwnerStop_mem facts), rfl, decides_ownerStop facts⟩
      | _ => cases h
  | backupCreate =>
      cases answer with
      | backup outcome =>
          cases h
          refine ⟨mem_decisions (classifyBackupCreate_mem outcome _), ?_, decides_backupCreate outcome _⟩
          exact congrArg (fun decision : Decision ↦ some decision.2) (code_classifyBackupCreate outcome _ _)
      | _ => cases h
  | prepareApply =>
      cases answer with
      | prepare outcome =>
          cases h
          exact ⟨mem_decisions (classifyPrepareApply_mem outcome), rfl, decides_prepareApply outcome _ _⟩
      | _ => cases h
  | backupRestore =>
      cases answer with
      | restore outcome =>
          cases h
          exact ⟨mem_decisions (classifyBackupRestore_mem outcome), rfl, decides_backupRestore outcome⟩
      | _ => cases h
  | activationRollback =>
      cases answer with
      | rollback outcome =>
          cases h
          exact ⟨mem_decisions (classifyActivationRollback_mem outcome), rfl, decides_activationRollback outcome⟩
      | _ => cases h
  | activationIssue | activationPending =>
      cases answer with
      | activation outcome =>
          cases h
          exact ⟨mem_decisions (classifyActivationIssue_mem outcome), rfl, decides_activationIssue outcome⟩
      | _ => cases h
  | activationConfirm | activationConfirmed =>
      cases answer with
      | activation outcome =>
          cases h
          exact ⟨mem_decisions (classifyActivationConfirm_mem outcome), rfl, decides_activationConfirm outcome _⟩
      | _ => cases h

theorem code_of_decideOutcome_none (h : flow.decideOutcome kind.spec.classify answer = none) :
    kind.spec.classify.code answer = none := by
  cases kind <;> cases answer <;> first | rfl | cases h

end Outcomes

end WorkStack.RemoteUpdate
