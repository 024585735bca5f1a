import WorkStack.Effect.Embedding
import WorkStack.Python.Equality
import WorkStack.Store.Commit

/-!
# Rebinding a manifest to another workspace

Documents that name one workspace under a manifest that names another are refused, and no retry
resolves it. A rebind is the way out: the operator confirms the coordinate of a candidate, the
candidate is archived, the displaced manifest is set aside, a receipt records the coordinate, and
only then the manifest moves. The same request with the same key is answered from the receipt.

The archive format is a parameter, and nothing is assumed about it.
-/

namespace WorkStack.Store

open Effect

structure RebindRules extends StoreRules where
  /-- `zipfile`: the archive of these members. -/
  zip : List (String × Bytes) → Bytes
  /-- The members of an archive. -/
  unzip : Bytes → Option (List (String × Bytes))

/-! ## The receipt -/

/-- What a receipt says of one document. -/
structure RebindFile where
  name : String
  size : ℤ
  sha256 : Digest
  deriving DecidableEq

def RebindFile.toJson (file : RebindFile) : Json :=
  .obj [("name", .str file.name), ("size", .int file.size), ("sha256", file.sha256.toJson)]

structure RebindReceipt where
  schemaVersion : ℤ
  operation : String
  idempotencyKey : String
  previousWorkspaceId : String
  candidateWorkspaceId : String
  manifestDigest : Digest
  candidateDigest : Digest
  resultManifestDigest : Digest
  authoritativeFiles : List RebindFile
  backupFile : String
  backupDigest : Digest
  quarantinedManifestFile : String
  quarantinedManifestDigest : Digest
  createdAt : String
  planningMutated : Bool

def RebindReceipt.toJson (receipt : RebindReceipt) : Json := .obj [
  ("schema_version", .int receipt.schemaVersion),
  ("operation", .str receipt.operation),
  ("idempotency_key", .str receipt.idempotencyKey),
  ("previous_workspace_id", .str receipt.previousWorkspaceId),
  ("candidate_workspace_id", .str receipt.candidateWorkspaceId),
  ("manifest_digest", receipt.manifestDigest.toJson),
  ("candidate_digest", receipt.candidateDigest.toJson),
  ("result_manifest_digest", receipt.resultManifestDigest.toJson),
  ("authoritative_files", .arr (receipt.authoritativeFiles.map RebindFile.toJson)),
  ("backup_file", .str receipt.backupFile),
  ("backup_digest", receipt.backupDigest.toJson),
  ("quarantined_manifest_file", .str receipt.quarantinedManifestFile),
  ("quarantined_manifest_digest", receipt.quarantinedManifestDigest.toJson),
  ("created_at", .str receipt.createdAt),
  ("planning_mutated", .bool receipt.planningMutated)]

def invalidReceipt : String := "sync rebind receipt is invalid"

/-- `_validated_rebind_file_records`: the records by document, each document once. -/
def validatedRebindFileRecords (files : List RebindFile) : Except String (DocName → Option RebindFile) :=
  if files.length ≠ DocName.defaults.length then .error invalidReceipt
  else files.foldlM (fun records file ↦
    match DocName.ofFileName file.name with
    | none => .error invalidReceipt
    | some name =>
        if (records name).isSome ∨ file.size < 0 then .error invalidReceipt
        else .ok (Function.update records name (some file))) fun _ ↦ none

/-- `_validated_rebind_artifact_name` -/
def validatedRebindArtifactName (value start suffix : String) : Except String Unit :=
  if start.toList <+: value.toList ∧ suffix.toList <:+ value.toList ∧ '/' ∉ value.toList ∧
      '\\' ∉ value.toList then .ok ()
  else .error invalidReceipt

def canonicalUuid (value label : String) : Except String Unit :=
  if isCanonicalUuid value then .ok () else .error (label ++ " must be a canonical UUID string")

def backupStart : String := "workstack-rebind-candidate-"

def quarantineStart : String := ".workstack-store-manifest.quarantine-"

def validateRebindReceipt (R : StoreRules) (receipt : RebindReceipt) : Except String Unit := do
  if receipt.schemaVersion ≠ 1 ∨ receipt.operation ≠ "workspace-rebind" ∨ receipt.planningMutated ∨
      ¬isAdoptionKey receipt.idempotencyKey then .error invalidReceipt
  else
    canonicalUuid receipt.previousWorkspaceId "sync_rebind_receipt.previous_workspace_id"
    canonicalUuid receipt.candidateWorkspaceId "sync_rebind_receipt.candidate_workspace_id"
    let _ ← validatedRebindFileRecords receipt.authoritativeFiles
    validatedRebindArtifactName receipt.backupFile backupStart ".zip"
    validatedRebindArtifactName receipt.quarantinedManifestFile quarantineStart ".json"
    validateRecoveryTimestamp R receipt.createdAt

/-! ## The data directory with its recovery artifacts -/

structure RebindDisk where
  store : Disk
  backups : String → Option Bytes
  quarantines : String → Option Manifest
  receipt : Option RebindReceipt

/-- The place of the source a document body is read from. -/
inductive BodySite where
  /-- The bodies `_workspace_rebind_candidate_locked` keeps. -/
  | capture
  /-- The comparison with these bodies right after. -/
  | recheck
  /-- The bodies after the manifest was replaced. -/
  | postReplace
  /-- The bodies a replay compares with the archive. -/
  | replay
  deriving DecidableEq

inductive RebindOp where
  | store (o : DiskOp)
  | readBody (site : BodySite) (name : DocName)
  /-- The backlog as `_commit_workspace_rebind_locked` reads it for the task semantics. -/
  | readTasks
  | readManifestBody
  | writeBackup (name : String) (body : Bytes)
  | writeQuarantine (name : String) (manifest : Manifest)
  | writeReceipt (receipt : RebindReceipt)
  | writeManifest (manifest : Manifest)
  | readReceipt
  | readBackup (name : String)
  | readQuarantine (name : String)

@[reducible] def RebindOp.Answer : RebindOp → Type
  | store o => o.Answer
  | readBody _ _ => Option Bytes
  | readTasks => Option Bytes
  | readManifestBody => Option Manifest
  | writeBackup _ _ => Unit
  | writeQuarantine _ _ => Unit
  | writeReceipt _ => Unit
  | writeManifest _ => Unit
  | readReceipt => Option RebindReceipt
  | readBackup _ => Option Bytes
  | readQuarantine _ => Option Manifest

abbrev rebindSignature : Signature := ⟨RebindOp, RebindOp.Answer⟩

def RebindDisk.perform (sha256 : Bytes → Digest) : (o : RebindOp) → RebindDisk → o.Answer × RebindDisk
  | .store o, disk => ((disk.store.perform sha256 o).1, { disk with store := (disk.store.perform sha256 o).2 })
  | .readBody _ name, disk => (disk.store.docs name, disk)
  | .readTasks, disk => (disk.store.docs .backlog, disk)
  | .readManifestBody, disk => (disk.store.manifest, disk)
  | .writeBackup name body, disk =>
      ((), { disk with backups := Function.update disk.backups name (some body) })
  | .writeQuarantine name manifest, disk =>
      ((), { disk with quarantines := Function.update disk.quarantines name (some manifest) })
  | .writeReceipt receipt, disk => ((), { disk with receipt := some receipt })
  | .writeManifest manifest, disk => ((), { disk with store := { disk.store with manifest := some manifest } })
  | .readReceipt, disk => (disk.receipt, disk)
  | .readBackup name, disk => (disk.backups name, disk)
  | .readQuarantine name, disk => (disk.quarantines name, disk)

abbrev rebindMachine (R : RebindRules) : Machine rebindSignature := ⟨RebindDisk, RebindDisk.perform R.sha256⟩

/-- An editor may change any document, and nothing else. -/
def RebindDisk.ExternalEdit (before after : RebindDisk) : Prop :=
  Disk.ExternalEdit before.store after.store ∧ after.backups = before.backups ∧
    after.quarantines = before.quarantines ∧ after.receipt = before.receipt

/-- The operations of the store are operations of a rebind. -/
def storeOps : Embedding diskSignature rebindSignature := ⟨.store, fun _ answer ↦ answer⟩

abbrev RebindCommand (α : Type) := Command rebindSignature Process StoreError α

def rebindStep (o : RebindOp) : RebindCommand o.Answer := Command.perform (S := rebindSignature) o

/-- A command of the store. -/
def inStore {α : Type} (c : StoreCommand α) : RebindCommand α := c.lift storeOps

/-! ## Document bodies -/

def readBody (site : BodySite) (docs : DocName → Option Bytes) (name : DocName) :
    RebindCommand (DocName → Option Bytes) := do
  match ← rebindStep (.readBody site name) with
  | none => Command.throw (.fileNotFound name.fileName)
  | some body => pure (Function.update docs name (some body))

def readBodies (site : BodySite) : RebindCommand (DocName → Option Bytes) :=
  Command.fold (readBody site) DocName.sortedDefaults fun _ ↦ none

/-- Whether a document no longer holds the body that was read; the first difference decides. -/
def anyChanged (bodies : DocName → Option Bytes) : List DocName → RebindCommand Bool
  | [] => pure false
  | name :: names => do
      match ← rebindStep (.readBody .recheck name) with
      | none => Command.throw (.fileNotFound name.fileName)
      | some body => if bodies name ≠ some body then pure true else anyChanged bodies names

def fileRecords (R : StoreRules) (bodies : DocName → Option Bytes) : List RebindFile :=
  DocName.sortedDefaults.filterMap fun name ↦ (bodies name).map fun body ↦
    ⟨name.fileName, body.length, R.sha256 body⟩

/-- The digest an operator confirms: of the workspace and of the bodies of the documents. -/
def rebindCandidateDigest (R : StoreRules) (workspaceId : String) (schemaVersion : ℤ)
    (bodies : DocName → Option Bytes) : Digest :=
  digestOf R (.obj [("workspace_id", .str workspaceId),
    ("store_schema_version", .int schemaVersion),
    ("files", .arr ((fileRecords R bodies).map RebindFile.toJson))])

/-- What a rebind is told of a candidate. -/
structure RebindPreview where
  manifestWorkspaceId : String
  candidateWorkspaceId : String
  manifestDigest : Digest
  candidateDigest : Digest
  changedFiles : List DocName

structure RebindCandidate where
  status : SyncStatus
  readiness : StoreReadiness
  bodies : DocName → Option Bytes
  preview : RebindPreview

section Commands

variable (R : RebindRules)

def identityChanged : String := "external candidate workspace identity changed"

def raiseRebindChange {α : Type} : RebindCommand α := inStore (raiseExternalChange R.toStoreRules)

def captureCandidate (status : SyncStatus) : RebindCommand RebindCandidate := do
  let readiness ← inStore (validateReadyState R.toStoreRules)
  let bodies ← readBodies .capture
  let changed ← anyChanged bodies DocName.sortedDefaults
  if changed then raiseRebindChange R
  else pure {
    status
    readiness
    bodies
    preview := {
      manifestWorkspaceId := status.workspaceId
      candidateWorkspaceId := readiness.workspaceUid
      manifestDigest := status.manifestDigest
      candidateDigest :=
        rebindCandidateDigest R.toStoreRules readiness.workspaceUid readiness.schemaVersion bodies
      changedFiles := status.changedFiles } }

/-- `_workspace_rebind_candidate_locked` -/
def workspaceRebindCandidate : RebindCommand RebindCandidate := do
  let status ← inStore (inspectSync R.toStoreRules)
  if status.status ≠ .externalChangeInvalid ∨ status.validationError ≠ some identityChanged then
    Command.throw (.externalChange status)
  else captureCandidate R status

/-! ## The archive -/

/-- The `recovery-manifest.json` of an archive. -/
def recoveryManifest (candidateWorkspaceId : String) (candidateDigest : Digest) : Json := .obj [
  ("schema_version", .int 1),
  ("operation", .str "workspace-rebind-candidate-backup"),
  ("candidate_workspace_id", .str candidateWorkspaceId),
  ("candidate_digest", candidateDigest.toJson)]

def memberOf (members : List (String × Bytes)) (name : DocName) : Option Bytes := members.lookup name.fileName

/-- `_candidate_backup_bytes`; what was archived is read back. -/
def candidateBackupBytes (bodies : DocName → Option Bytes) (preview : RebindPreview) : Except String Bytes :=
  let archive := R.zip (DocName.sortedDefaults.filterMap (fun name ↦
      (bodies name).map fun body ↦ (name.fileName, body)) ++
    [("recovery-manifest.json",
      (recoveryManifest preview.candidateWorkspaceId preview.candidateDigest).compactJson)])
  if (R.unzip archive).any fun members ↦ ∀ name, memberOf members name = bodies name then .ok archive
  else .error "workspace rebind backup verification failed"

def backupMembers : List String := "recovery-manifest.json" :: DocName.defaults.map DocName.fileName

def matchesRecord (record : Option RebindFile) (body : Option Bytes) : Bool :=
  match record, body with
  | some record, some body => (body.length : ℤ) = record.size ∧ R.sha256 body = record.sha256
  | _, _ => false

/-- `_verified_rebind_backup_bodies` -/
def verifiedRebindBackupBodies (receipt : RebindReceipt) (body : Bytes) :
    Except String (DocName → Option Bytes) := do
  let records ← validatedRebindFileRecords receipt.authoritativeFiles
  match R.unzip body with
  | none => .error "workspace rebind candidate backup is invalid"
  | some members =>
      if ¬(members.map Prod.fst).Nodup ∨ ¬(members.map Prod.fst).Perm backupMembers then
        .error "workspace rebind candidate backup members are invalid"
      else match (members.lookup "recovery-manifest.json").bind R.loads with
        | none => .error "workspace rebind candidate backup is invalid"
        | some manifest =>
            if ¬Json.same manifest (recoveryManifest receipt.candidateWorkspaceId receipt.candidateDigest) then
              .error "workspace rebind candidate backup manifest is invalid"
            else if ∀ name, matchesRecord R (records name) (memberOf members name) then
              .ok (memberOf members)
            else .error "workspace rebind candidate backup evidence mismatch"

def manifestBodyDigest (manifest : Manifest) : Digest := R.sha256 manifest.toJson.serializedJsonBytes

/-- `_verify_rebind_quarantined_manifest`, once its bytes are there. -/
def verifyQuarantinedManifest (receipt : RebindReceipt) (manifest : Manifest) : Except String Unit := do
  if manifestBodyDigest R manifest ≠ receipt.quarantinedManifestDigest then
    .error "workspace rebind quarantined manifest digest mismatch"
  else
    validateStoreManifest manifest
    if manifest.workspaceId ≠ receipt.previousWorkspaceId ∨
        WorkStack.Store.manifestDigest R.toStoreRules manifest ≠ receipt.manifestDigest then
      .error "workspace rebind quarantined manifest evidence mismatch"
    else .ok ()

def refuse {α : Type} (result : Except String α) : RebindCommand α :=
  Command.ofExcept (result.mapError .corrupt)

/-- `_verify_rebind_recovery_artifacts_locked` -/
def verifyRecoveryArtifacts (receipt : RebindReceipt) : RebindCommand (DocName → Option Bytes) := do
  match ← rebindStep (.readBackup receipt.backupFile) with
  | none => Command.throw (.corrupt "workspace rebind candidate backup is missing")
  | some body =>
      if R.sha256 body ≠ receipt.backupDigest then
        Command.throw (.corrupt "workspace rebind candidate backup digest mismatch")
      else
        let bodies ← refuse (verifiedRebindBackupBodies R receipt body)
        match ← rebindStep (.readQuarantine receipt.quarantinedManifestFile) with
        | none => Command.throw (.corrupt "workspace rebind quarantined manifest is missing")
        | some manifest =>
            refuse (verifyQuarantinedManifest R receipt manifest)
            pure bodies

/-! ## Replay -/

/-- What an operator confirms. -/
structure RebindCoordinate where
  manifestWorkspaceId : String
  candidateWorkspaceId : String
  manifestDigest : Digest
  candidateDigest : Digest
  deriving DecidableEq

def RebindPreview.coordinate (preview : RebindPreview) : RebindCoordinate where
  manifestWorkspaceId := preview.manifestWorkspaceId
  candidateWorkspaceId := preview.candidateWorkspaceId
  manifestDigest := preview.manifestDigest
  candidateDigest := preview.candidateDigest

def RebindReceipt.coordinate (receipt : RebindReceipt) : RebindCoordinate where
  manifestWorkspaceId := receipt.previousWorkspaceId
  candidateWorkspaceId := receipt.candidateWorkspaceId
  manifestDigest := receipt.manifestDigest
  candidateDigest := receipt.candidateDigest

structure RebindResult where
  workspaceId : String
  backupFile : String
  backupDigest : Digest
  receiptDigest : Digest
  quarantinedManifestFile : String
  quarantinedManifestDigest : Digest

/-- `_rebind_result_locked` -/
def rebindResult (receipt : RebindReceipt) : RebindCommand RebindResult := do
  match ← rebindStep .readReceipt with
  | none => Command.throw (.fileNotFound ".workstack-sync-rebind-receipt.json")
  | some stored => pure {
      workspaceId := receipt.candidateWorkspaceId
      backupFile := receipt.backupFile
      backupDigest := receipt.backupDigest
      receiptDigest := R.sha256 stored.toJson.serializedJsonBytes
      quarantinedManifestFile := receipt.quarantinedManifestFile
      quarantinedManifestDigest := receipt.quarantinedManifestDigest }

/-- `_read_rebind_receipt_locked` -/
def readRebindReceipt : RebindCommand (Option RebindReceipt) := do
  match ← rebindStep .readReceipt with
  | none => pure none
  | some receipt =>
      refuse (validateRebindReceipt R.toStoreRules receipt)
      pure (some receipt)

/-- The bodies of all documents; a missing one is an external change. -/
def presentBodies (site : BodySite) : RebindCommand (DocName → Option Bytes) :=
  (readBodies site).catching fun
    | .fileNotFound _ => raiseRebindChange R
    | error => Command.throw error

/-- The part of a replay after the archive was verified. -/
def replayAgainst (receipt : RebindReceipt) (archived : DocName → Option Bytes) :
    RebindCommand (Option RebindResult) := do
  match ← inStore readManifest with
  | none => pure none
  | some manifest =>
      if manifest.workspaceId ≠ receipt.candidateWorkspaceId ∨
          receipt.resultManifestDigest ≠ WorkStack.Store.manifestDigest R.toStoreRules manifest then
        pure none
      else
        let bodies ← presentBodies R .replay
        if bodies ≠ archived then raiseRebindChange R
        else
          let result ← rebindResult R receipt
          pure (some result)

/-- `_rebind_replay_locked` -/
def rebindReplay (coordinate : RebindCoordinate) (idempotencyKey : String) :
    RebindCommand (Option RebindResult) := do
  match ← readRebindReceipt R with
  | none => pure none
  | some receipt =>
      if receipt.idempotencyKey ≠ idempotencyKey then pure none
      else if receipt.coordinate ≠ coordinate then
        Command.throw (.adoptionConflict
          "Idempotency-Key was already used for a different workspace rebind")
      else
        let archived ← verifyRecoveryArtifacts R receipt
        replayAgainst R receipt archived

/-! ## Commit -/

/-- The clock, as the name of the artifacts and as the stamp of the receipt. -/
structure RebindClock where
  suffix : String
  createdAt : String

/-- `_read_json_locked` and `_task_semantics` of a backlog with this body. -/
def tasksOfBody : Option Bytes → Except StoreError Tasks
  | none => .error (.fileNotFound DocName.backlog.fileName)
  | some body =>
      match R.loads body with
      | none => .error (.corrupt ("invalid JSON preserved at " ++ DocName.backlog.fileName ++
          "; repair or quarantine it before startup"))
      | some value =>
          if value.isObject then (taskSemantics R.sha256 value).mapError .corrupt
          else .error (.corrupt (DocName.backlog.fileName ++ " must contain a JSON object"))

/-- `_task_semantics_locked` where the replacement manifest is built. -/
def replacementTasks : RebindCommand Tasks := do
  let body ← rebindStep .readTasks
  Command.ofExcept (tasksOfBody R body)

def replacementManifest (candidate : RebindCandidate) (tasks : Tasks) : Manifest where
  version := 1
  workspaceId := candidate.preview.candidateWorkspaceId
  storeSchemaVersion := candidate.readiness.schemaVersion
  generation := 0
  files := fun name ↦ (candidate.bodies name).map R.sha256
  tasks

def rebindReceiptOf (coordinate : RebindCoordinate) (idempotencyKey : String) (clock : RebindClock)
    (candidate : RebindCandidate) (replacement : Manifest) (backup : Bytes) (displaced : Manifest) :
    RebindReceipt where
  schemaVersion := 1
  operation := "workspace-rebind"
  idempotencyKey
  previousWorkspaceId := coordinate.manifestWorkspaceId
  candidateWorkspaceId := coordinate.candidateWorkspaceId
  manifestDigest := coordinate.manifestDigest
  candidateDigest := coordinate.candidateDigest
  resultManifestDigest := WorkStack.Store.manifestDigest R.toStoreRules replacement
  authoritativeFiles := fileRecords R.toStoreRules candidate.bodies
  backupFile := backupStart ++ clock.suffix ++ ".zip"
  backupDigest := R.sha256 backup
  quarantinedManifestFile := quarantineStart ++ clock.suffix ++ ".json"
  quarantinedManifestDigest := manifestBodyDigest R displaced
  createdAt := clock.createdAt
  planningMutated := false

/-- The part of a rebind after its manifest was replaced: the bodies are compared once more. -/
def settleReplacement (candidate : RebindCandidate) (receipt : RebindReceipt) (replacement : Manifest) :
    RebindCommand RebindResult := do
  let bodies ← presentBodies R .postReplace
  if bodies ≠ candidate.bodies then
    Command.remember fun memory ↦ { memory with syncFingerprint := none }
    raiseRebindChange R
  else
    Command.remember fun memory ↦ { memory with
      generation := 0
      readiness := some candidate.readiness
      syncFingerprint := none
      syncState := .inSync }
    inStore (emitEvent "store.workspace-rebound" replacement.workspaceId [])
    rebindResult R receipt

def publishReplacement (candidate : RebindCandidate) (receipt : RebindReceipt) (replacement : Manifest) :
    RebindCommand RebindResult := do
  rebindStep (.writeManifest replacement)
  settleReplacement R candidate receipt replacement

/-- The part of a rebind that archives the candidate, sets the manifest aside and captures once more. -/
def archiveCandidate (coordinate : RebindCoordinate) (candidate : RebindCandidate)
    (receipt : RebindReceipt) (replacement : Manifest) (backup : Bytes) (displaced : Manifest) :
    RebindCommand RebindResult := do
  rebindStep (.writeBackup receipt.backupFile backup)
  rebindStep (.writeQuarantine receipt.quarantinedManifestFile displaced)
  rebindStep (.writeReceipt receipt)
  let final ← workspaceRebindCandidate R
  if final.preview.candidateDigest ≠ coordinate.candidateDigest ∨ final.bodies ≠ candidate.bodies then
    raiseRebindChange R
  else publishReplacement R candidate receipt replacement

/-- The part of a rebind that starts once the candidate is the confirmed one. -/
def commitCandidate (coordinate : RebindCoordinate) (idempotencyKey : String) (clock : RebindClock)
    (candidate : RebindCandidate) : RebindCommand RebindResult := do
  match ← rebindStep .readManifestBody with
  | none => Command.throw (.fileNotFound ".workstack-store-manifest.json")
  | some displaced =>
      let previous ← inStore readManifest
      if ¬previous.any fun previous ↦
          WorkStack.Store.manifestDigest R.toStoreRules previous = coordinate.manifestDigest then
        raiseRebindChange R
      else
        let backup ← refuse (candidateBackupBytes R candidate.bodies candidate.preview)
        let tasks ← replacementTasks R
        let replacement := replacementManifest R candidate tasks
        archiveCandidate R coordinate candidate
          (rebindReceiptOf R coordinate idempotencyKey clock candidate replacement backup displaced)
          replacement backup displaced

/-- `_commit_workspace_rebind_locked` -/
def commitWorkspaceRebind (coordinate : RebindCoordinate) (idempotencyKey : String) (clock : RebindClock) :
    RebindCommand RebindResult := do
  let candidate ← workspaceRebindCandidate R
  if candidate.preview.coordinate ≠ coordinate then Command.throw (.externalChange candidate.status)
  else commitCandidate R coordinate idempotencyKey clock candidate

/-! ## The request -/

structure RebindRequest where
  confirmed : Bool
  coordinate : RebindCoordinate
  idempotencyKey : Option String
  clock : RebindClock

/-- `_validate_rebind_request`; the key that is admitted. -/
def validateRebindRequest (request : RebindRequest) : Except StoreError String := do
  if ¬request.confirmed then .error (.value "workspace rebind requires explicit confirmation")
  else
    (canonicalUuid request.coordinate.manifestWorkspaceId "expected_manifest_workspace_id").mapError .corrupt
    (canonicalUuid request.coordinate.candidateWorkspaceId
      "expected_candidate_workspace_id").mapError .corrupt
    match request.idempotencyKey with
    | none => .error (.value "idempotency_key is required")
    | some key => if isAdoptionKey key then .ok key else .error (.value "idempotency_key is invalid")

/-- The two ways a rebind is answered. -/
def replayOrCommit (coordinate : RebindCoordinate) (idempotencyKey : String) (clock : RebindClock) :
    RebindCommand RebindResult := do
  match ← rebindReplay R coordinate idempotencyKey with
  | some result => pure result
  | none => commitWorkspaceRebind R coordinate idempotencyKey clock

/-- `rebind_workspace_identity` -/
def rebindWorkspaceIdentity (request : RebindRequest) : RebindCommand RebindResult := do
  let idempotencyKey ← Command.ofExcept (validateRebindRequest request)
  replayOrCommit R request.coordinate idempotencyKey request.clock

end Commands

end WorkStack.Store
