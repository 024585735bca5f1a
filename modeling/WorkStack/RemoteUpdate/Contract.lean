import WorkStack.Json
import WorkStack.Python.Text

/-!
# The vocabulary of a remote update

The stages and codes a flow publishes, the two orders it can run in, what its ports answer, and the
mutations it issues under a recorded identity. A port may put any object into a field of its answer,
so the fields are decoded values, and `member`, `flag` and `version` admit what the flow understands.
-/

namespace WorkStack.RemoteUpdate

/-! ## Stages, codes and actions -/

/-- `RemoteUpdateStage` -/
inductive Stage where
  | idle | preview | stop | backup | prepare | probe | activate | verify | ready | failed | cancelled | unknown
  deriving DecidableEq, Repr

/-- `CODES`; the codes of the skill offer are held by their text. -/
inductive Code where
  | idle
  | previewReady | previewFailed | previewUnknown
  | stopVerified | stopVerifiedWithoutPidfd | stopRefusedMissingToken
  | stopTokenUnknown | stopRefusedForeignHost | stopRefusedUnfencedReceipt
  | stopOwnerStillLive | stopFailed | stopIncompleteUnknown
  | backupVerified | backupFailed | backupNotRun | backupUnknown
  | backupCommitUnknown | backupNotVerifiedBeforeStart
  | prepareReady | prepareFailed | prepareUnknown | prepareCommitUnknown
  | prepareCapabilityUnavailable | previousAppNotPreserved | previousAppPreservationUnknown
  | probeVerified | probeFailed | probeUnknown | probeWorkspaceMismatch | probeWorkspaceUnknown
  | activatePendingRestart | activateRestartNotSelected
  | activateRestartIdentityMismatch | activateWorkspaceMismatch | activateWorkspaceUnknown
  | activateCommitted | activateFailed | activateUnknown
  | activateCommitUnknown | activateConfirmFailed | activateConfirmUnknown
  | updateReady | verifyFailed | verifyUnknown
  | cancelledBefore (stage : Stage)
  | cancelDeferredCommitUnknown
  | restoreVerified | restoreVerifiedActivationSelected | restoreFailed | restoreUnknown
  | rollbackVerified | rollbackFailed | rollbackUnknown
  | skill (flowCode : String)
  deriving DecidableEq, Repr

/-- `REFUSAL_CODES`, those of the flow itself. -/
inductive RefusalCode where
  | advanceRefusedTerminal | advanceRefusedFailed | advanceRefusedUnsettled | advanceRefusedRestartRequired
  | retryRefusedNotFailed | retryRefusedPendingCommit | retryRefusedUnrecoverable
  | reconcileRefusedNoPending
  | resumeRefusedNoPendingActivation | resumeRefusedPendingCommit
  | cancelRefusedActivationCommitted
  | restoreRefusedBackupNotVerified | restoreRefusedPendingCommit
  | rollbackRefusedMigratedSsot | rollbackRefusedNoPreviousApp
  | rollbackRefusedPendingCommit | rollbackRefusedNoActivation
  deriving DecidableEq, Repr

/-- `ACTIONS`; the actions of the skill offer are held by their text. -/
inductive Action where
  | run (stage : Stage)
  | runPrepareCodeOnly
  | restartDesktop | retryStage | reconcilePending | resolveOwnerAuthority | resolveActivationPairing
  | restoreBackup | rollbackActivation | inspectDiagnostics | cancel | dismiss | finish
  | skill (action : String)
  deriving DecidableEq, Repr

/-! ## The order of a run -/

/-- `RunOrder`: the stages in their order, and the places the flow compares its own with. -/
structure RunOrder where
  stages : List Stage
  prepareBeforeStop : Bool
  prepare : ℕ
  backup : ℕ
  probe : ℕ
  activate : ℕ
  deriving DecidableEq, Repr

/-- `RUN_ORDER` and `PREPARE_FIRST_RUN_ORDER` -/
def runStages (prepareBeforeStop : Bool) : List Stage :=
  if prepareBeforeStop then [.preview, .prepare, .stop, .backup, .probe, .activate, .verify]
  else [.preview, .stop, .backup, .prepare, .probe, .activate, .verify]

/-- `run_order` -/
def runOrder (prepareBeforeStop : Bool) : RunOrder where
  stages := runStages prepareBeforeStop
  prepareBeforeStop := prepareBeforeStop
  prepare := (runStages prepareBeforeStop).idxOf .prepare
  backup := (runStages prepareBeforeStop).idxOf .backup
  probe := (runStages prepareBeforeStop).idxOf .probe
  activate := (runStages prepareBeforeStop).idxOf .activate

namespace RunOrder

variable (order : RunOrder)

/-- `RunOrder.index` -/
def index (stage : Stage) : ℕ := order.stages.idxOf stage

/-- `RunOrder.actions` -/
def actionOf (stage : Stage) : Action :=
  if order.prepareBeforeStop ∧ stage = .prepare then .runPrepareCodeOnly else .run stage

/-- `RunOrder.action`; there is none behind the last stage. -/
def action (index : ℕ) : Option Action := order.stages[index]?.map order.actionOf

/-- `RunOrder.cancel_codes`: no entry for the last stage. -/
def cancelCode (stage : Stage) : Option Code :=
  if stage ∈ order.stages.dropLast then some (.cancelledBefore stage) else none

end RunOrder

/-! ## Fields of an answer -/

/-- `OBSERVATIONS` -/
inductive Observation where
  | verified | failed | unknown
  deriving DecidableEq, Repr

/-- `OWNER_STATES` -/
inductive OwnerState where
  | live | stopping | dead | foreign | unfenced | unknown
  deriving DecidableEq, Repr

/-- `CAPABILITIES` -/
inductive Capability where
  | available | unavailable | unknown
  deriving DecidableEq, Repr

/-- `METHODS` -/
inductive Method where
  | transactional | verifiedUnpack | unknown
  deriving DecidableEq, Repr

/-- `BACKUP_STATUSES` -/
inductive BackupStatus where
  | verified | failed | notRun | unknown
  deriving DecidableEq, Repr

/-- `ACTIVATION_STATES` -/
inductive ActivationState where
  | pending | confirmed | rolledBack | unknown
  deriving DecidableEq, Repr

/-- `member`: a name of an enumeration; anything else is its unknown member. -/
def member {α : Type} (names : List (String × α)) (unknown : α) : Json → α
  | .str text => (names.lookup text).getD unknown
  | _ => unknown

def observation : Json → Observation := member [("verified", .verified), ("failed", .failed)] .unknown

def ownerState : Json → OwnerState :=
  member [("live", .live), ("stopping", .stopping), ("dead", .dead), ("foreign", .foreign),
    ("unfenced", .unfenced)] .unknown

def capability : Json → Capability := member [("available", .available), ("unavailable", .unavailable)] .unknown

def method : Json → Method :=
  member [("transactional", .transactional), ("verified_unpack", .verifiedUnpack)] .unknown

def backupStatus : Json → BackupStatus :=
  member [("verified", .verified), ("failed", .failed), ("not_run", .notRun)] .unknown

def activationState : Json → ActivationState :=
  member [("pending", .pending), ("confirmed", .confirmed), ("rolled_back", .rolledBack)] .unknown

/-- `flag` -/
def flag : Json → Option Bool
  | .bool value => some value
  | _ => none

/-- `MAX_VERSION_LENGTH` -/
def maxVersionLength : ℕ := 64

/-- `version`: a short text of one line. -/
def version : Json → Option String
  | .str value =>
      let text := Python.stripText Python.isSpace value
      if text = "" ∨ maxVersionLength < text.length then none
      else if text.toList.any fun c ↦ c < ' ' || c = '\x7f' then none
      else some text
  | _ => none

/-- `measured_version`: the slot of the served interface also takes a digest, and then nothing else. -/
def measuredVersion (servedUi : Bool) : Json → Option String
  | .str value =>
      if servedUi ∧ "sha256:".toList.isPrefixOf value.toList then
        let digest := value.toList.drop 7
        if digest.length = 64 ∧ digest.all ("0123456789abcdef".toList.contains ·) then some value else none
      else version (.str value)
  | _ => none

/-! ## Answers of the ports -/

/-- `PreviewFacts` -/
structure PreviewFacts where
  desktopVersion : Json
  remoteVersion : Json
  servedUiVersion : Json
  protocolVersion : Json
  schemaVersionBefore : Json
  schemaVersionTarget : Json
  migrationRequired : Json
  installCapability : Json
  installMethod : Json

/-- `OwnerStopFacts` -/
structure OwnerStopFacts where
  state : Json
  tokenAvailable : Json
  pidfdAvailable : Json
  processExit : Json
  listenerRelease : Json
  leaseRelease : Json

/-- `BackupOutcome` -/
structure BackupOutcome where
  status : Json
  migrationRequired : Json

/-- `PrepareOutcome` -/
structure PrepareOutcome where
  status : Json
  capability : Json
  method : Json
  previousAppRetained : Json
  previousProfileRetained : Json

/-- `ProbeOutcome` -/
structure ProbeOutcome where
  status : Json
  workspaceMatch : Json
  servedUiVersion : Json
  protocolVersion : Json

/-- `ActivationOutcome` -/
structure ActivationOutcome where
  status : Json
  committed : Json
  state : Json
  restartRequired : Json
  remoteVersion : Json
  schemaVersion : Json

/-- `RestoreOutcome` -/
structure RestoreOutcome where
  status : Json
  preMigrationData : Json

/-- `RollbackOutcome` -/
structure RollbackOutcome where
  status : Json
  previousActivationSelected : Json

/-- `StartupEvidence` -/
structure StartupEvidence where
  selectedActivationId : Json
  authoritySelected : Json
  workspaceMatch : Json

/-- `VerifyOutcome` -/
structure VerifyOutcome where
  status : Json
  desktopVersion : Json
  remoteVersion : Json
  servedUiVersion : Json
  protocolVersion : Json
  schemaVersion : Json

/-- What a port call ends with: an exception, one of the typed outcomes, or any other object. -/
inductive Answer where
  | lostResponse
  | portRefusal
  | otherError
  | previewFacts (facts : PreviewFacts)
  | ownerStop (facts : OwnerStopFacts)
  | backup (outcome : BackupOutcome)
  | prepare (outcome : PrepareOutcome)
  | probe (outcome : ProbeOutcome)
  | activation (outcome : ActivationOutcome)
  | restore (outcome : RestoreOutcome)
  | rollback (outcome : RollbackOutcome)
  | verify (outcome : VerifyOutcome)
  | otherObject

/-! ## Mutations -/

/-- The `KIND_` constants -/
inductive Kind where
  | ownerStop | backupCreate | backupRestore | prepareApply
  | activationIssue | activationPending | activationConfirmed | activationConfirm | activationRollback
  deriving DecidableEq, Repr

/-- `ACTIVATION_ANCHOR_KINDS` -/
def Kind.isAnchor (kind : Kind) : Bool := kind = .activationPending || kind = .activationConfirmed

inductive Port where
  | preview | owner | backup | prepare | probe | activation | verification
  deriving DecidableEq, Repr

/-- The methods of the ports. -/
inductive PortMethod where
  | describe
  | stop | observe
  | createVerified | restore | observeRestore
  | prepare | prepareCodeOnly
  | probe
  | activate | confirm | observeConfirm | rollback | observeRollback
  | verify
  deriving DecidableEq, Repr

/-- The `_decide_` method that reads an outcome back. -/
inductive Classifier where
  | ownerStop | backupCreate | prepareApply | activationIssue | activationConfirm | backupRestore
  | activationRollback
  deriving DecidableEq, Repr

/-- `MutationSpec`; the kinds of an anchor are issued by no method. -/
structure MutationSpec where
  stage : Stage
  port : Port
  issue : Option PortMethod
  observe : PortMethod
  classify : Classifier
  openCode : Code
  refusedCode : Code

/-- `MUTATIONS` -/
def Kind.spec : Kind → MutationSpec
  | .ownerStop => ⟨.stop, .owner, some .stop, .observe, .ownerStop, .stopIncompleteUnknown, .stopFailed⟩
  | .backupCreate =>
      ⟨.backup, .backup, some .createVerified, .observe, .backupCreate, .backupCommitUnknown, .backupFailed⟩
  | .backupRestore =>
      ⟨.backup, .backup, some .restore, .observeRestore, .backupRestore, .restoreUnknown, .restoreFailed⟩
  | .prepareApply =>
      ⟨.prepare, .prepare, some .prepare, .observe, .prepareApply, .prepareCommitUnknown, .prepareFailed⟩
  | .activationIssue =>
      ⟨.activate, .activation, some .activate, .observe, .activationIssue, .activateCommitUnknown, .activateFailed⟩
  | .activationPending =>
      ⟨.activate, .activation, none, .observe, .activationIssue, .activateCommitUnknown, .activateFailed⟩
  | .activationConfirmed =>
      ⟨.activate, .activation, none, .observeConfirm, .activationConfirm, .activateConfirmUnknown,
        .activateConfirmFailed⟩
  | .activationConfirm =>
      ⟨.activate, .activation, some .confirm, .observeConfirm, .activationConfirm, .activateConfirmUnknown,
        .activateConfirmFailed⟩
  | .activationRollback =>
      ⟨.activate, .activation, some .rollback, .observeRollback, .activationRollback, .rollbackUnknown,
        .rollbackFailed⟩

/-- `PendingOperation`: a recorded identity, and what preparation measured before it. -/
structure PendingOperation where
  stage : Stage
  operationId : String
  kind : Kind
  previousAppRetained : Observation
  deriving DecidableEq, Repr

end WorkStack.RemoteUpdate
