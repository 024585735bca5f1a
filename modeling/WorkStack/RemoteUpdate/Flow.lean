import WorkStack.RemoteUpdate.Outcomes

/-!
# The remote update flow

One attempt to update a remote application, driven one call at a time. A call refuses, returns at once
or asks one port something; what it asks and what an answer makes of the flow are separate functions,
so that a crash can come between the two. A mutation is recorded under its identity before it is issued,
and the record is kept until an answer says what happened.

The guards, the order of the comparisons and every field a step writes are those of the source. The
flow carries what its journal holds, as `record` is the only place that writes it.
-/

namespace WorkStack.RemoteUpdate

/-- `MeasuredVersions` -/
structure MeasuredVersions where
  desktop : Option String
  remote : Option String
  servedUi : Option String
  protocol : Option String
  schema : Option String
  deriving DecidableEq, Repr

/-- What the flow keeps of the `PreviewFacts`. -/
structure PreviewFact where
  schemaVersionBefore : Json
  schemaVersionTarget : Json
  migrationRequired : Option Bool
  installCapability : Capability
  installMethod : Method

/-- What the offer of the skill, which has its own calls, shows of itself. -/
structure SkillOffer where
  actions : List String
  inFlight : Bool
  deriving DecidableEq, Repr

/-- What a flow asks a port; a code-only preparation is issued under the kind of the full one. -/
inductive Question where
  | describe
  | probe (operationId : String)
  | verify (operationId : String)
  | issue (kind : Kind) (operationId : String) (codeOnly : Bool)
  | observe (kind : Kind) (operationId : String)
  deriving DecidableEq, Repr

/-- The port and the method that a question goes to; no method issues the kind of an anchor. -/
def Question.call : Question → Option (Port × PortMethod)
  | .describe => some (.preview, .describe)
  | .probe _ => some (.probe, .probe)
  | .verify _ => some (.verification, .verify)
  | .issue kind _ codeOnly =>
      if codeOnly then some (kind.spec.port, .prepareCodeOnly)
      else kind.spec.issue.map fun issue ↦ (kind.spec.port, issue)
  | .observe kind _ => some (kind.spec.port, kind.spec.observe)

/-- `RemoteUpdateFlow` -/
structure Flow where
  order : RunOrder
  stage : Stage
  code : Code
  index : ℕ
  cancelRequested : Bool
  activationId : Option String
  retention : Observation
  restoredPreMigration : Bool
  preview : PreviewFact
  versions : MeasuredVersions
  owner : OwnerStopFacts
  backup : BackupFact
  prepare : PrepareFact
  pending : Option PendingOperation
  activation : Option PendingOperation
  skill : SkillOffer
  /-- What the journal holds. -/
  journal : List PendingOperation

/-- How a call ends: with a snapshot, with `RemoteUpdateRefused`, or with another exception. -/
inductive Ending where
  | returned
  | refused (code : RefusalCode)
  | raised
  deriving DecidableEq, Repr

/-- What a call does before a port has answered it. -/
inductive Turn where
  | ends (ending : Ending) (flow : Flow)
  | asks (question : Question) (flow : Flow)

namespace Flow

variable (flow : Flow)

/-! ## What the flow knows -/

/-- `_migration_required_locked` -/
def migrationRequired : Option Bool := flow.backup.migrationRequired.or flow.preview.migrationRequired

/-- `_data_migrated_locked` -/
def dataMigrated : Option Bool :=
  if flow.restoredPreMigration then some false
  else if flow.index ≤ flow.order.probe then some false
  else flow.migrationRequired

/-- `_activation_held_locked` -/
def activationHeld : Bool := flow.activation.isSome

/-- `_restart_pending_locked` -/
def restartPending : Bool := flow.activation.any fun anchor ↦ anchor.kind = .activationPending

/-- `_rollback_available_locked` -/
def rollbackAvailable : Bool :=
  if flow.activationId.isNone ∨ flow.index < flow.order.prepare then false
  else if flow.dataMigrated ≠ some false then false
  else flow.retention = .verified

/-- `_recovery_locked` -/
def recovery : List Action :=
  if flow.pending.isSome then []
  else (if flow.rollbackAvailable then [.rollbackActivation] else []) ++
    (if flow.backup.status = .verified then [.restoreBackup] else [])

/-- `_escape_locked` -/
def escape : List Action := if flow.activationHeld then [] else [.cancel]

/-- `_pairing_actions_locked` -/
def pairingActions : List Action :=
  if flow.rollbackAvailable then [.rollbackActivation, .inspectDiagnostics]
  else [.resolveActivationPairing, .inspectDiagnostics]

/-- `_failed_actions_locked` -/
def failedActions : List Action :=
  let first : List Action :=
    if flow.code ∈ unrecoverableCodes then (if flow.code.ofStop then [.resolveOwnerAuthority] else [])
    else [.retryStage]
  first ++ flow.recovery ++ [.inspectDiagnostics] ++ flow.escape

/-- `_actions_locked`; behind the last stage there is no next action to name. -/
def actions : Option (List Action) :=
  if flow.stage = .ready then
    some (flow.skill.actions.map .skill ++ if flow.skill.inFlight then [] else [.finish])
  else if flow.stage = .cancelled then some [.dismiss, .inspectDiagnostics]
  else if flow.pending.isSome then some [.reconcilePending, .inspectDiagnostics]
  else if flow.code ∈ restartCodes then some ([.restartDesktop] ++ flow.recovery ++ [.inspectDiagnostics])
  else if flow.code = .restoreVerifiedActivationSelected then some flow.pairingActions
  else if flow.code ∈ recoverySettledCodes then some [.dismiss, .inspectDiagnostics]
  else if flow.code ∈ recoveryCodes then some (flow.recovery ++ [.inspectDiagnostics])
  else if flow.stage = .failed ∨ flow.stage = .unknown then some flow.failedActions
  else (flow.order.action flow.index).map fun next ↦ [next, .inspectDiagnostics] ++ flow.escape

/-- What the snapshot tells about the owner. -/
structure OwnerView where
  state : OwnerState
  tokenAvailable : Option Bool
  pidfdAvailable : Option Bool
  processExit : Observation
  listenerRelease : Observation
  leaseRelease : Observation
  deriving DecidableEq, Repr

/-- `RemoteUpdateSnapshot` -/
structure Snapshot where
  stage : Stage
  code : Code
  versions : MeasuredVersions
  owner : OwnerView
  installCapability : Capability
  installMethod : Method
  backupStatus : BackupStatus
  migrationRequired : Option Bool
  actions : List Action
  deriving DecidableEq, Repr

/-- `_snapshot_locked` -/
def snapshot : Option Snapshot :=
  flow.actions.map fun actions ↦
    { stage := flow.stage
      code := flow.code
      versions := flow.versions
      owner :=
        { state := ownerState flow.owner.state
          tokenAvailable := flag flow.owner.tokenAvailable
          pidfdAvailable := flag flow.owner.pidfdAvailable
          processExit := observation flow.owner.processExit
          listenerRelease := observation flow.owner.listenerRelease
          leaseRelease := observation flow.owner.leaseRelease }
      installCapability :=
        if flow.prepare.capability ≠ .unknown then flow.prepare.capability else flow.preview.installCapability
      installMethod := if flow.prepare.method ≠ .unknown then flow.prepare.method else flow.preview.installMethod
      backupStatus := flow.backup.status
      migrationRequired := flow.migrationRequired
      actions }

/-! ## Recording and settling -/

/-- `_publish_locked` -/
def publish (stage : Stage) (code : Code) : Flow := { flow with stage, code }

/-- `_progress_locked` -/
def progress (stage : Stage) (code : Code) : Flow :=
  { flow with index := flow.order.index stage + 1 }.publish stage code

/-- `_record_locked` -/
def record (pending activation : Option PendingOperation) : Flow :=
  { flow with pending, activation, journal := activation.toList ++ pending.toList }

/-- `_new_record_locked` -/
def newRecord (kind : Kind) (operationId : String) : PendingOperation :=
  ⟨kind.spec.stage, operationId, kind, flow.retention⟩

/-- `_retained_after_locked` -/
def retainedAfter (code : Code) : Option PendingOperation :=
  if code = .rollbackVerified then none else flow.activation

/-- The code that `_settle_locked` publishes: data put back under a selected activation has its own. -/
def settledCode (code : Code) : Code :=
  if code = .restoreVerified ∧ flow.activationHeld then .restoreVerifiedActivationSelected else code

/-- What `_settle_locked` records. -/
def settleRecord (code : Code) (operationId : String) : Flow :=
  match retainedKind code with
  | some keep =>
      if keep.isAnchor then flow.record none (some (flow.newRecord keep operationId))
      else flow.record (some (flow.newRecord keep operationId)) flow.activation
  | none => flow.record none (flow.retainedAfter code)

/-- `_settle_locked` -/
def settle (decision : Decision) (operationId : String) : Flow :=
  let code := flow.settledCode decision.2
  let recorded := flow.settleRecord code operationId
  if code ∈ progressCodes then recorded.progress decision.1 code else recorded.publish decision.1 code

/-- `_decide_locked`: what an outcome of the kind's own type decides. -/
def decideOutcome (classify : Classifier) (answer : Answer) : Option (Flow × Decision) :=
  match classify, answer with
  | .ownerStop, .ownerStop facts => some ({ flow with owner := facts }, classifyOwnerStop facts)
  | .backupCreate, .backup outcome =>
      let classified := classifyBackupCreate outcome flow.preview.migrationRequired
      some ({ flow with backup := classified.1 }, classified.2)
  | .prepareApply, .prepare outcome =>
      let classified := classifyPrepareApply outcome
      some ({ flow with prepare := classified.1, retention := retentionOf classified.1 }, classified.2)
  | .activationIssue, .activation outcome =>
      let decision := classifyActivationIssue outcome
      some (if decision.2 = .activateFailed then { flow with activationId := none } else flow, decision)
  | .activationConfirm, .activation outcome =>
      let decision := classifyActivationConfirm outcome
      let versions : MeasuredVersions :=
        { flow.versions with
          remote := measuredVersion false outcome.remoteVersion
          schema := measuredVersion false outcome.schemaVersion }
      some (if decision.2 = .activateCommitted then { flow with versions } else flow, decision)
  | .backupRestore, .restore outcome =>
      let decision := classifyBackupRestore outcome
      some (if decision.2 = .restoreVerified then { flow with restoredPreMigration := true } else flow, decision)
  | .activationRollback, .rollback outcome =>
      let decision := classifyActivationRollback outcome
      some (if decision.2 = .rollbackVerified then { flow with activationId := none } else flow, decision)
  | _, _ => none

/-- `_settle_cancelled_locked` -/
def settleCancelled : Ending × Flow :=
  match flow.order.cancelCode (flow.order.stages[flow.index]?.getD .verify) with
  | none => (.refused .cancelRefusedActivationCommitted, flow)
  | some code => (.returned, flow.publish .cancelled code)

/-! ## What a call asks -/

/-- `_issue_locked`, up to the call of the port. -/
def issue (kind : Kind) (operationId : String) (codeOnly : Bool) : Turn :=
  .asks (.issue kind operationId codeOnly) (flow.record (some (flow.newRecord kind operationId)) flow.activation)

/-- `_run_prepare_locked` -/
def runPrepare (operationId : String) : Turn :=
  if flow.order.prepareBeforeStop then flow.issue .prepareApply operationId true
  else if flow.backup.status ≠ .verified then
    .ends .returned (flow.publish .failed .backupNotVerifiedBeforeStart)
  else flow.issue .prepareApply operationId false

/-- `_run_probe_locked` -/
def runProbe (operationId : String) : Turn :=
  if flow.backup.status ≠ .verified then
    .ends .returned (flow.publish .failed .backupNotVerifiedBeforeStart)
  else .asks (.probe operationId) flow

/-- `_run_activate_locked` -/
def runActivate (operationId : String) : Turn :=
  { flow with activationId := some operationId }.issue .activationIssue operationId false

/-- `_run_locked`, given the operation id that is drawn; behind the last stage it raises. -/
def run (operationId : String) : Turn :=
  match flow.order.stages[flow.index]? with
  | some .preview => .asks .describe flow
  | some .stop => flow.issue .ownerStop operationId false
  | some .backup => flow.issue .backupCreate operationId false
  | some .prepare => flow.runPrepare operationId
  | some .probe => flow.runProbe operationId
  | some .activate => flow.runActivate operationId
  | some .verify => .asks (.verify operationId) flow
  | _ => .ends .raised flow

def endWith (ended : Ending × Flow) : Turn := .ends ended.1 ended.2

def refuse (code : RefusalCode) : Turn := .ends (.refused code) flow

/-- `_reconcile_locked`, up to the call of the port. -/
def askPending (pending : PendingOperation) : Turn := .asks (.observe pending.kind pending.operationId) flow

/-- `advance` -/
def advance (operationId : String) : Turn :=
  match flow.pending with
  | some pending => flow.askPending pending
  | none =>
      if flow.stage = .ready ∨ flow.stage = .cancelled then flow.refuse .advanceRefusedTerminal
      else if flow.stage = .failed then flow.refuse .advanceRefusedFailed
      else if flow.stage = .unknown then flow.refuse .advanceRefusedUnsettled
      else if flow.restartPending then flow.refuse .advanceRefusedRestartRequired
      else if flow.cancelRequested ∧ ¬flow.activationHeld then endWith flow.settleCancelled
      else flow.run operationId

/-- `retry` -/
def retry (operationId : String) : Turn :=
  if flow.pending.isSome ∨ flow.restartPending then flow.refuse .retryRefusedPendingCommit
  else if flow.stage ≠ .failed ∧ flow.stage ≠ .unknown then flow.refuse .retryRefusedNotFailed
  else if flow.code ∈ unrecoverableCodes then flow.refuse .retryRefusedUnrecoverable
  else if flow.code ∈ recoveryCodes then flow.refuse .retryRefusedUnrecoverable
  else if flow.cancelRequested ∧ ¬flow.activationHeld then endWith flow.settleCancelled
  else flow.run operationId

/-- `reconcile` -/
def reconcile : Turn :=
  match flow.pending with
  | none => flow.refuse .reconcileRefusedNoPending
  | some pending => flow.askPending pending

/-- `resume_after_restart` -/
def resumeAfterRestart (evidence : Option StartupEvidence) : Turn :=
  if flow.pending.isSome then flow.refuse .resumeRefusedPendingCommit
  else match flow.activation with
    | none => flow.refuse .resumeRefusedNoPendingActivation
    | some anchor =>
        if ¬flow.restartPending then flow.refuse .resumeRefusedNoPendingActivation
        else match classifyStartup evidence anchor.operationId with
          | some decision => .ends .returned (flow.publish decision.1 decision.2)
          | none => flow.issue .activationConfirm anchor.operationId false

/-- `cancel` -/
def cancel : Turn :=
  if flow.activationHeld then flow.refuse .cancelRefusedActivationCommitted
  else
    let requested := { flow with cancelRequested := true }
    if flow.pending.isSome then .ends .returned { requested with code := .cancelDeferredCommitUnknown }
    else if flow.stage = .ready ∨ flow.stage = .cancelled then .ends .returned requested
    else endWith requested.settleCancelled

/-- `restore` -/
def restore (operationId : String) : Turn :=
  if flow.pending.isSome then flow.refuse .restoreRefusedPendingCommit
  else if flow.backup.status ≠ .verified then flow.refuse .restoreRefusedBackupNotVerified
  else flow.issue .backupRestore operationId false

/-- `rollback` -/
def rollback : Turn :=
  if flow.pending.isSome then flow.refuse .rollbackRefusedPendingCommit
  else if flow.dataMigrated ≠ some false then flow.refuse .rollbackRefusedMigratedSsot
  else if flow.retention ≠ .verified then flow.refuse .rollbackRefusedNoPreviousApp
  else match flow.activationId with
    | none => flow.refuse .rollbackRefusedNoActivation
    | some activationId => flow.issue .activationRollback activationId false

/-! ## What an answer makes of the flow -/

/-- `_run_preview_locked`, from the answer on. -/
def previewAnswered (answer : Answer) : Ending × Flow :=
  match answer with
  | .otherError => (.raised, flow)
  | .lostResponse | .portRefusal => (.returned, flow.publish .failed .previewFailed)
  | .previewFacts facts =>
      let preview : PreviewFact :=
        { schemaVersionBefore := facts.schemaVersionBefore
          schemaVersionTarget := facts.schemaVersionTarget
          migrationRequired := flag facts.migrationRequired
          installCapability := capability facts.installCapability
          installMethod := method facts.installMethod }
      let versions : MeasuredVersions :=
        { desktop := measuredVersion false facts.desktopVersion
          remote := measuredVersion false facts.remoteVersion
          servedUi := measuredVersion true facts.servedUiVersion
          protocol := measuredVersion false facts.protocolVersion
          schema := measuredVersion false facts.schemaVersionBefore }
      (.returned, { flow with preview, versions }.progress .preview .previewReady)
  | _ => (.returned, flow.publish .unknown .previewUnknown)

/-- `_run_probe_locked`, from the answer on. -/
def probeAnswered (answer : Answer) : Ending × Flow :=
  match answer with
  | .otherError => (.raised, flow)
  | .lostResponse => (.returned, flow.publish .unknown .probeUnknown)
  | .portRefusal => (.returned, flow.publish .failed .probeFailed)
  | .probe outcome =>
      let versions : MeasuredVersions :=
        { flow.versions with
          servedUi := measuredVersion true outcome.servedUiVersion
          protocol := measuredVersion false outcome.protocolVersion }
      let decision := classifyProbe outcome
      let measured := { flow with versions }
      if decision.2 ∈ progressCodes then (.returned, measured.progress decision.1 decision.2)
      else (.returned, measured.publish decision.1 decision.2)
  | _ => (.returned, flow.publish .unknown .probeUnknown)

/-- `_run_verify_locked`, from the answer on. -/
def verifyAnswered (answer : Answer) : Ending × Flow :=
  match answer with
  | .otherError => (.raised, flow)
  | .lostResponse => (.returned, flow.publish .unknown .verifyUnknown)
  | .portRefusal => (.returned, flow.publish .failed .verifyFailed)
  | .verify outcome =>
      let versions : MeasuredVersions :=
        { desktop := measuredVersion false outcome.desktopVersion
          remote := measuredVersion false outcome.remoteVersion
          servedUi := measuredVersion true outcome.servedUiVersion
          protocol := measuredVersion false outcome.protocolVersion
          schema := measuredVersion false outcome.schemaVersion }
      let decision := classifyVerify outcome
      let measured := { flow with versions }
      let finished :=
        if decision.1 = .ready then { measured with index := measured.order.stages.length }.record none none
        else measured
      (.returned, finished.publish decision.1 decision.2)
  | _ => (.returned, flow.publish .unknown .verifyUnknown)

/-- What an answer to an issued mutation decides. -/
def issueDecision (kind : Kind) (answer : Answer) : Flow × Decision :=
  match answer with
  | .lostResponse => (flow, .unknown, kind.spec.openCode)
  | .portRefusal => (flow, .failed, kind.spec.refusedCode)
  | answer => (flow.decideOutcome kind.spec.classify answer).getD (flow, .unknown, kind.spec.openCode)

/-- `_issue_locked`, from the answer on. -/
def issueAnswered (kind : Kind) (operationId : String) (answer : Answer) : Ending × Flow :=
  match answer with
  | .otherError => (.raised, flow)
  | answer =>
      let decided := flow.issueDecision kind answer
      (.returned, decided.1.settle decided.2 operationId)

/-- The end of `_reconcile_locked`: a deferred cancellation follows a settled identity. -/
def reconciled : Ending × Flow :=
  if flow.cancelRequested ∧ flow.pending.isNone ∧ ¬flow.activationHeld then flow.settleCancelled
  else (.returned, flow)

/-- `_reconcile_locked`, from the answer on. -/
def observeAnswered (kind : Kind) (operationId : String) (answer : Answer) : Ending × Flow :=
  match answer with
  | .otherError => (.raised, flow)
  | .lostResponse | .portRefusal => (.returned, flow.publish .unknown kind.spec.openCode)
  | answer =>
      match flow.decideOutcome kind.spec.classify answer with
      | some (decided, decision) => (decided.settle decision operationId).reconciled
      | none => (.returned, flow.publish .unknown kind.spec.openCode)

/-- What the answer to a question makes of the flow that asked it. -/
def answered (question : Question) (answer : Answer) : Ending × Flow :=
  match question with
  | .describe => flow.previewAnswered answer
  | .probe _ => flow.probeAnswered answer
  | .verify _ => flow.verifyAnswered answer
  | .issue kind operationId _ => flow.issueAnswered kind operationId answer
  | .observe kind operationId => flow.observeAnswered kind operationId answer

/-! ## Construction -/

/-- `_adopt_entry_locked` -/
def adoptEntry (entry : PendingOperation) : Flow :=
  if entry.kind.spec.stage ≠ entry.stage then flow
  else
    let slotted := if entry.kind.isAnchor then { flow with activation := some entry }
      else { flow with pending := some entry }
    let named := if entry.kind.spec.port = .activation then
        { slotted with activationId := some entry.operationId }
      else slotted
    if entry.previousAppRetained ≠ .unknown then { named with retention := entry.previousAppRetained } else named

/-- `_resumed_index_locked` -/
def resumedIndex : ℕ :=
  let reached := if flow.activation.isSome then flow.order.activate + (if flow.restartPending then 0 else 1) else 0
  match flow.pending with
  | some pending => max reached (flow.order.index pending.kind.spec.stage)
  | none => reached

/-- The stage and the code with which a flow wakes up. -/
def resumedDecision : Decision :=
  match flow.pending with
  | some pending => (.unknown, pending.kind.spec.openCode)
  | none => (.activate, if flow.restartPending then .activatePendingRestart else .activateCommitted)

/-- `_adopt_recorded`, once the entries are adopted. -/
def resume : Flow :=
  if flow.pending.isNone ∧ flow.activation.isNone then flow
  else
    let placed := { flow with index := flow.resumedIndex }
    let published := placed.publish placed.resumedDecision.1 placed.resumedDecision.2
    if published.order.backup < published.index then { published with backup := ⟨.verified, none⟩ } else published

/-- A flow before it adopts what is recorded. -/
def blank (order : RunOrder) (journal : List PendingOperation) : Flow where
  order := order
  stage := .idle
  code := .idle
  index := 0
  cancelRequested := false
  activationId := none
  retention := .unknown
  restoredPreMigration := false
  preview := ⟨.null, .null, none, .unknown, .unknown⟩
  versions := ⟨none, none, none, none, none⟩
  owner := ⟨.str "unknown", .null, .null, .str "unknown", .str "unknown", .str "unknown"⟩
  backup := ⟨.notRun, none⟩
  prepare := ⟨.unknown, .unknown, .unknown, none, none⟩
  pending := none
  activation := none
  skill := ⟨[], false⟩
  journal := journal

/-- `__init__`: a flow built from what its journal holds. -/
def build (order : RunOrder) (journal : List PendingOperation) : Flow :=
  (journal.foldl adoptEntry (blank order journal)).resume

end Flow

end WorkStack.RemoteUpdate
