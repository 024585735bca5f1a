import WorkStack.RemoteUpdate.Contract

/-!
# What an answer means

The stage and the code that one typed outcome establishes, and the tables of codes: which keep an
identity recorded and under which kind, which move the order forward, and which no second try can
improve.
-/

namespace WorkStack.RemoteUpdate

/-- `Decision` -/
abbrev Decision := Stage × Code

/-! ## The facts a flow holds -/

/-- A `BackupOutcome` with its fields admitted. -/
structure BackupFact where
  status : BackupStatus
  migrationRequired : Option Bool
  deriving DecidableEq, Repr

/-- A `PrepareOutcome` with its fields admitted. -/
structure PrepareFact where
  status : Observation
  capability : Capability
  method : Method
  previousAppRetained : Option Bool
  previousProfileRetained : Option Bool
  deriving DecidableEq, Repr

/-! ## Classification -/

/-- `classify_owner_stop` -/
def classifyOwnerStop (facts : OwnerStopFacts) : Decision :=
  let releases := [facts.processExit, facts.listenerRelease, facts.leaseRelease].map observation
  match flag facts.tokenAvailable, ownerState facts.state with
  | some false, _ => (.failed, .stopRefusedMissingToken)
  | none, _ => (.unknown, .stopTokenUnknown)
  | some true, .foreign => (.failed, .stopRefusedForeignHost)
  | some true, .unfenced => (.failed, .stopRefusedUnfencedReceipt)
  | some true, .live => (.failed, .stopOwnerStillLive)
  | some true, .dead =>
      if Observation.failed ∈ releases then (.failed, .stopFailed)
      else if Observation.unknown ∈ releases then (.unknown, .stopIncompleteUnknown)
      else if flag facts.pidfdAvailable = some false then (.stop, .stopVerifiedWithoutPidfd)
      else (.stop, .stopVerified)
  | some true, _ => (.unknown, .stopIncompleteUnknown)

/-- `classify_backup_create` -/
def classifyBackupCreate (outcome : BackupOutcome) (plannedMigration : Option Bool) : BackupFact × Decision :=
  let status := backupStatus outcome.status
  let fact : BackupFact := ⟨status, (flag outcome.migrationRequired).or plannedMigration⟩
  match status with
  | .verified => (fact, .backup, .backupVerified)
  | .failed => (fact, .failed, .backupFailed)
  | .notRun => (fact, .failed, .backupNotRun)
  | .unknown => (fact, .unknown, .backupUnknown)

/-- `classify_prepare_apply` -/
def classifyPrepareApply (outcome : PrepareOutcome) : PrepareFact × Decision :=
  let prepared : PrepareFact :=
    { status := observation outcome.status
      capability := capability outcome.capability
      method := method outcome.method
      previousAppRetained := flag outcome.previousAppRetained
      previousProfileRetained := flag outcome.previousProfileRetained }
  let retained := [prepared.previousAppRetained, prepared.previousProfileRetained]
  if prepared.capability = .unavailable then (prepared, .failed, .prepareCapabilityUnavailable)
  else if prepared.status = .failed then (prepared, .failed, .prepareFailed)
  else if prepared.status = .unknown then (prepared, .unknown, .prepareUnknown)
  else if some false ∈ retained then (prepared, .failed, .previousAppNotPreserved)
  else if none ∈ retained then (prepared, .unknown, .previousAppPreservationUnknown)
  else (prepared, .prepare, .prepareReady)

/-- `classify_probe`: the workspace outranks the verdict of the probe. -/
def classifyProbe (outcome : ProbeOutcome) : Decision :=
  match observation outcome.workspaceMatch, observation outcome.status with
  | .failed, _ => (.failed, .probeWorkspaceMismatch)
  | .unknown, _ => (.unknown, .probeWorkspaceUnknown)
  | .verified, .failed => (.failed, .probeFailed)
  | .verified, .unknown => (.unknown, .probeUnknown)
  | .verified, .verified => (.probe, .probeVerified)

/-- `classify_activation_issue`: an issued activation ends pending. -/
def classifyActivationIssue (outcome : ActivationOutcome) : Decision :=
  let status := observation outcome.status
  let committed := flag outcome.committed
  if status = .failed ∨ (status = .verified ∧ committed = some false) then (.failed, .activateFailed)
  else if status = .verified ∧ committed = some true ∧ activationState outcome.state = .pending ∧
      flag outcome.restartRequired = some true then (.activate, .activatePendingRestart)
  else (.unknown, .activateUnknown)

/-- `classify_activation_confirm` -/
def classifyActivationConfirm (outcome : ActivationOutcome) : Decision :=
  let status := observation outcome.status
  let committed := flag outcome.committed
  if status = .verified ∧ committed = some true ∧ activationState outcome.state = .confirmed then
    (.activate, .activateCommitted)
  else if status = .failed ∨ (status = .verified ∧ committed = some false) then (.failed, .activateConfirmFailed)
  else (.unknown, .activateConfirmUnknown)

/-- `classify_activation_rollback` -/
def classifyActivationRollback (outcome : RollbackOutcome) : Decision :=
  let status := observation outcome.status
  if status = .verified ∧ flag outcome.previousActivationSelected = some true then (.failed, .rollbackVerified)
  else if status = .failed then (.failed, .rollbackFailed)
  else (.unknown, .rollbackUnknown)

/-- `classify_backup_restore` -/
def classifyBackupRestore (outcome : RestoreOutcome) : Decision :=
  let status := observation outcome.status
  if status = .verified ∧ flag outcome.preMigrationData = some true then (.failed, .restoreVerified)
  else if status = .failed then (.failed, .restoreFailed)
  else (.unknown, .restoreUnknown)

/-- `retention_of` -/
def retentionOf (prepared : PrepareFact) : Observation :=
  let answers := [prepared.previousAppRetained, prepared.previousProfileRetained]
  if answers.all (· = some true) then .verified
  else if some false ∈ answers then .failed
  else .unknown

/-- `classify_verify` -/
def classifyVerify (outcome : VerifyOutcome) : Decision :=
  match observation outcome.status with
  | .failed => (.failed, .verifyFailed)
  | .unknown => (.unknown, .verifyUnknown)
  | .verified => (.ready, .updateReady)

/-- `classify_startup`: nothing to publish means that the restart may resume this activation. The
evidence is missing where the caller passed something else. -/
def classifyStartup (evidence : Option StartupEvidence) (activationId : String) : Option Decision :=
  match evidence with
  | none => some (.unknown, .activateRestartNotSelected)
  | some evidence =>
      match evidence.selectedActivationId with
      | .str selected =>
          if selected ≠ activationId then some (.unknown, .activateRestartIdentityMismatch)
          else if observation evidence.authoritySelected ≠ .verified then some (.unknown, .activateRestartNotSelected)
          else match observation evidence.workspaceMatch with
            | .failed => some (.failed, .activateWorkspaceMismatch)
            | .unknown => some (.unknown, .activateWorkspaceUnknown)
            | .verified => none
      | _ => some (.unknown, .activateRestartIdentityMismatch)

/-! ## The tables -/

/-- `RETAINED_KINDS` -/
def retainedKind : Code → Option Kind
  | .stopIncompleteUnknown | .stopTokenUnknown => some .ownerStop
  | .backupUnknown | .backupCommitUnknown => some .backupCreate
  | .prepareUnknown | .prepareCommitUnknown => some .prepareApply
  | .activateUnknown | .activateCommitUnknown => some .activationIssue
  | .activatePendingRestart => some .activationPending
  | .activateCommitted => some .activationConfirmed
  | .activateConfirmUnknown => some .activationConfirm
  | .restoreUnknown => some .backupRestore
  | .rollbackUnknown => some .activationRollback
  | _ => none

/-- `PROGRESS_CODES` -/
def progressCodes : List Code :=
  [.previewReady, .stopVerified, .stopVerifiedWithoutPidfd, .backupVerified, .prepareReady, .probeVerified,
    .activateCommitted]

/-- `UNRECOVERABLE_CODES` -/
def unrecoverableCodes : List Code :=
  [.stopRefusedMissingToken, .stopRefusedForeignHost, .stopRefusedUnfencedReceipt, .previousAppNotPreserved,
    .previousAppPreservationUnknown, .probeWorkspaceMismatch, .activateWorkspaceMismatch,
    .activateWorkspaceUnknown]

/-- The unrecoverable codes that start with `stop_`. -/
def Code.ofStop : Code → Bool
  | .stopVerified | .stopVerifiedWithoutPidfd | .stopRefusedMissingToken | .stopTokenUnknown
  | .stopRefusedForeignHost | .stopRefusedUnfencedReceipt | .stopOwnerStillLive | .stopFailed
  | .stopIncompleteUnknown => true
  | _ => false

/-- `RESTART_CODES` -/
def restartCodes : List Code :=
  [.activatePendingRestart, .activateRestartNotSelected, .activateRestartIdentityMismatch, .activateConfirmFailed]

/-- `RECOVERY_SETTLED_CODES` -/
def recoverySettledCodes : List Code := [.restoreVerified, .rollbackVerified]

/-- `RECOVERY_CODES` -/
def recoveryCodes : List Code :=
  recoverySettledCodes ++ [.restoreFailed, .restoreUnknown, .restoreVerifiedActivationSelected, .rollbackFailed,
    .rollbackUnknown]

end WorkStack.RemoteUpdate
