import WorkStack.Store.Sync

/-!
# The commit, the recovery journal and adoption

A commit writes a journal that names every target value, replaces the documents one by one,
publishes a manifest and only then removes the journal. A recovery replays a journal that an
interrupted commit left behind, and every transaction starts with one. Adoption is the one
operation that turns a detected external change into the committed baseline.
-/

namespace WorkStack.Store

open Effect

/-- The mapping handed to a save: each document is named once. -/
structure WriteSet where
  entries : List (DocName × Json)
  nodup : (entries.map Prod.fst).Nodup

/-- The target values of a commit or a replay. -/
abbrev Writes := List (DocName × Json)

namespace Writes

def names (writes : Writes) : List DocName := writes.map Prod.fst

/-- The bytes every document is meant to hold after the writes. -/
def bodies (writes : Writes) (docs : DocName → Option Bytes) : DocName → Option Bytes :=
  writes.foldl (fun docs write ↦ Function.update docs write.1 (some write.2.serializedJsonBytes)) docs

/-- The digests of these bytes, over a baseline. -/
def hashes (sha256 : Bytes → Digest) (writes : Writes) (files : Files) : Files :=
  writes.foldl (fun files write ↦
    Function.update files write.1 (some (sha256 write.2.serializedJsonBytes))) files

end Writes

variable (R : StoreRules)

/-! ## Guarded replacement -/

/-- `replace_expectations`: what a document must hold when it is replaced. -/
abbrev Expectations := DocName → Option (Option Digest)

/-- The digest of a document that may be missing. -/
def currentDigest (site : ReadSite) (name : DocName) : StoreCommand (Option Digest) := do
  let present : Bool ← step (.isFile site name)
  if present then
    match ← step (.readBytes site name) with
    | none => Command.throw (.fileNotFound name.fileName)
    | some body => pure (some (R.sha256 body))
  else pure none

/-- `_atomic_write_locked` of a document. -/
def atomicWrite (expectations : Expectations) (name : DocName) (value : Json) : StoreCommand Unit := do
  let replaced : Bool ← step (.replaceDoc name (expectations name) value)
  if replaced then pure ()
  else Command.throw (.corrupt "local commit target changed before replacement; journal retained")

def replaceDocuments (expectations : Expectations) (writes : Writes) : StoreCommand Unit :=
  Command.fold (fun _ write ↦ atomicWrite expectations write.1 write.2) writes ()

/-! ## Recovery -/

/-- `_validate_recovery_timestamp` -/
def validateRecoveryTimestamp (value : String) : Except String Unit :=
  let stamp := if value.toList.getLast? = some 'Z' then
    String.ofList value.toList.dropLast ++ "+00:00" else value
  if value = "" then .error "recovery journal created_at is invalid"
  else match R.fromIsoFormat stamp with
    | none => .error "recovery journal created_at is invalid"
    | some false => .error "recovery journal created_at must include a timezone"
    | some true => .ok ()

/-- `_recovery_writes` -/
def recoveryWrites (journal : Journal) : Except String (List JournalWrite) := do
  if journal.version ≠ 1 then .error "unsupported recovery journal version"
  else if ¬(1 ≤ journal.operationId.length ∧ journal.operationId.length ≤ 200) then
    .error "recovery journal operation_id is invalid"
  else
    validateRecoveryTimestamp R journal.createdAt
    if journal.writes = [] then
      .error "recovery journal writes must be a non-empty array"
    else .ok journal.writes

/-- `_validate_recovery_write` -/
def validateRecoveryWrite (write : JournalWrite) (seen : List DocName) :
    Except String (DocName × Json) :=
  match DocName.ofFileName write.name with
  | none => .error "recovery journal target is unknown or repeated"
  | some name =>
      if name ∈ seen then .error "recovery journal target is unknown or repeated"
      else if ¬write.value.isObject then
        .error "recovery journal target value must be an object"
      else if write.sha256 ≠ (digestOf R write.value).text then
        .error "recovery journal value digest mismatch"
      else .ok (name, write.value)

def validateRecoveryWrites : List JournalWrite → List DocName → Except String Writes
  | [], _ => .ok []
  | write :: writes, seen => do
      let admitted ← validateRecoveryWrite R write seen
      let rest ← validateRecoveryWrites writes (admitted.1 :: seen)
      .ok (admitted :: rest)

/-- `_validate_journal` -/
def validateJournal (journal : Journal) : Except String Writes := do
  let writes ← recoveryWrites R journal
  validateRecoveryWrites R writes []

def requireRecoverable (manifest : Manifest) (write : DocName × Json) (current : Option Digest) :
    Except String Unit :=
  if current ≠ manifest.files write.1 ∧ current ≠ some (R.sha256 write.2.serializedJsonBytes) then
    .error "recovery target changed outside Work Stack; journal retained"
  else .ok ()

def assertRecoveryTargetSafe (manifest : Manifest) (_ : Unit) (write : DocName × Json) :
    StoreCommand Unit := do
  let current ← currentDigest R .recoverySafety write.1
  accept (requireRecoverable R manifest write current)

/-- `_assert_recovery_targets_safe_locked` -/
def assertRecoveryTargetsSafe (manifest : Option Manifest) (writes : Writes) : StoreCommand Unit :=
  match manifest with
  | none => pure ()
  | some manifest => Command.fold (assertRecoveryTargetSafe R manifest) writes ()

/-- `_replayable_baseline` -/
def replayableBaseline (manifest : Option Manifest) : Option Manifest :=
  manifest.filter fun manifest ↦ manifest.storeSchemaVersion = storeSchemaVersion

def collectExpectation (expectations : Expectations) (write : DocName × Json) :
    StoreCommand Expectations := do
  let current ← currentDigest R .replaceExpectation write.1
  pure (Function.update expectations write.1 (some current))

/-- The `replace_expectations` of a replay: the targets are read once more. -/
def collectExpectations (writes : Writes) : StoreCommand Expectations :=
  Command.fold (collectExpectation R) writes fun _ ↦ none

def forgetRecoveredFiles : StoreCommand Unit :=
  Command.remember fun memory ↦ { memory with recoveredFiles := [] }

/-- Publish the replayed documents over a baseline, or leave publication to initialization. -/
def finishRecovery (baseline : Option Manifest) (writes : Writes) : StoreCommand Unit := do
  let recoveredFiles := sortedNames writes.names
  match baseline with
  | some manifest =>
      let expectedHashes := writes.hashes R.sha256 manifest.files
      let tasks ← localBaselineTasks R manifest expectedHashes recoveredFiles
      writeLocalBaseline manifest expectedHashes tasks recoveredFiles
      step .unlinkJournal
      let _ ← inspectSync R
      forgetRecoveredFiles
  | none =>
      step .unlinkJournal
      Command.remember fun memory ↦ { memory with
        generation := memory.generation + 1
        recoveredFiles }

def replayJournal (journal : Journal) : StoreCommand Unit := do
  let writes ← accept (validateJournal R journal)
  let baseline ← readManifest
  assertRecoveryTargetsSafe R baseline writes
  let expectations ← collectExpectations R writes
  replaceDocuments expectations writes
  finishRecovery R (replayableBaseline baseline) writes

/-- `_recover_locked` -/
def recoverLocked : StoreCommand Unit := do
  let present : Bool ← step .journalExists
  if present then
    match ← step .readJournal with
    | none => Command.throw (.fileNotFound ".workstack-journal.json")
    | some journal => replayJournal R journal
  else pure ()

/-- `transaction` at depth zero. -/
def transaction {α : Type} (body : StoreCommand α) : StoreCommand α := do
  recoverLocked R
  body

/-! ## Commit -/

def hashPresent (hashes : Files) (name : DocName) : StoreCommand Files := do
  let current ← currentDigest R .commitBaseline name
  pure (Function.update hashes name current)

/-- The digests the documents had before a commit. -/
def originalHashes (baseline : Option Manifest) : StoreCommand Files :=
  match baseline with
  | some manifest => pure manifest.files
  | none => Command.fold (hashPresent R) DocName.defaults fun _ ↦ none

/-- The `replace_expectations` of a commit: its targets as the baseline names them. -/
def commitExpectations (original : Files) (writes : Writes) : Expectations := fun name ↦
  if name ∈ writes.names then some (original name) else none

/-- `_commit_race_groups`, the targets. -/
def raceTargets (actual expected : Files) (changedFiles : List DocName) : List DocName :=
  changedFiles.filter fun name ↦ actual name ≠ expected name

/-- `_commit_race_groups`, the unrelated documents. -/
def raceUnrelated (actual expected : Files) (changedFiles : List DocName) (hasBaseline : Bool) :
    List DocName :=
  DocName.defaults.filter fun name ↦
    hasBaseline ∧ name ∉ changedFiles ∧ actual name ≠ expected name

/-- `_commit_local_with_external_candidate_locked` -/
def commitLocalWithExternalCandidate (baseline : Manifest) (expectedHashes : Files)
    (changedFiles : List DocName) : StoreCommand Unit := do
  let tasks ← localBaselineTasks R baseline expectedHashes changedFiles
  writeLocalBaseline baseline expectedHashes tasks changedFiles
  step .unlinkJournal
  let _ ← inspectSync R
  pure ()

/-- `_resolve_late_external_change_locked` -/
def resolveLateExternalChange (baseline : Option Manifest) (expectedHashes : Files)
    (changedFiles : List DocName) : StoreCommand Unit := do
  let finalHashes ← authoritativeHashes R .authoritativeHash
  match baseline with
  | none => raiseExternalChange R
  | some manifest =>
      if ∀ name ∈ changedFiles, finalHashes name = expectedHashes name then
        commitLocalWithExternalCandidate R manifest expectedHashes changedFiles
      else raiseExternalChange R

/-- The last part of a commit, with its three successful branches. -/
def publishCommit (baseline : Option Manifest) (expectedHashes : Files)
    (changedFiles : List DocName) : StoreCommand Unit := do
  let actual ← authoritativeHashes R .authoritativeHash
  if raceTargets actual expectedHashes changedFiles ≠ [] then
    Command.throw (.corrupt "local commit target changed concurrently; recovery journal retained")
  else
    match baseline.filter fun _ ↦
      raceUnrelated actual expectedHashes changedFiles baseline.isSome ≠ [] with
    | some manifest => commitLocalWithExternalCandidate R manifest expectedHashes changedFiles
    | none =>
        (do
          writeCommittedManifest R changedFiles "store.committed" (some expectedHashes)
          step .unlinkJournal).catching fun
            | .externalChange _ => resolveLateExternalChange R baseline expectedHashes changedFiles
            | error => Command.throw error

def commitBody (journal : Journal) (writes : Writes) : StoreCommand Unit := do
  let baseline ← readManifest
  let original ← originalHashes R baseline
  step (.writeJournal journal)
  replaceDocuments (commitExpectations original writes) writes
  publishCommit R baseline (writes.hashes R.sha256 original) (sortedNames writes.names)

/-- `_commit_prepared_locked` -/
def commitPrepared (journal : Journal) (writes : Writes) : StoreCommand Unit := do
  assertWritable R
  let pending : Bool ← step .journalExists
  if pending then Command.throw (.corrupt "refusing to overwrite a pending recovery journal")
  else commitBody R journal writes

/-- The journal of a commit. -/
def preparedJournal (writes : Writes) (operationId createdAt : String) : Journal where
  version := 1
  operationId
  createdAt
  writes := writes.map fun write ↦
    ⟨write.1.fileName, write.2, (digestOf R write.2).text⟩

/-- What a save takes from its surroundings: the clock and a fresh UUID. -/
structure SaveContext where
  now : String
  uuid4 : String

def operationIdOf (operationId : Option String) (context : SaveContext) : String :=
  match operationId with
  | none => context.uuid4
  | some given => if given = "" then context.uuid4 else given

/-- `save_many` -/
def saveMany (writes : WriteSet) (operationId : Option String) (context : SaveContext) :
    StoreCommand Unit :=
  if writes.entries = [] then pure ()
  else if ∃ write ∈ writes.entries, ¬write.2.isObject then
    Command.throw (.value "store value must be a JSON object")
  else
    transaction R (commitPrepared R
      (preparedJournal R writes.entries (operationIdOf operationId context) context.now)
      writes.entries)

/-- What a client or the server asks of the store. -/
inductive StoreCall where
  | saveMany (writes : WriteSet) (operationId : Option String) (context : SaveContext)
  | recover

def StoreCall.command (R : StoreRules) : StoreCall → StoreCommand Unit
  | .saveMany writes operationId context => WorkStack.Store.saveMany R writes operationId context
  | .recover => recoverLocked R

/-! ## Adoption -/

/-- `_read_adoption_receipt_locked` -/
def readAdoptionReceipt : StoreCommand (Option AdoptionReceipt) := do
  match ← step .readReceipt with
  | none => pure none
  | some receipt =>
      if receipt.version ≠ 1 ∨ ¬receipt.idempotencyKey.all isAdoptionKey then
        Command.throw (.corrupt "sync adoption receipt is invalid")
      else if ¬isCanonicalUuid receipt.workspaceId then
        Command.throw (.corrupt "sync_adoption_receipt.workspace_id must be a canonical UUID string")
      else pure (some receipt)

/-- `_guard_adoption_key_locked` -/
def guardAdoptionKey (receipt : Option AdoptionReceipt) (idempotencyKey : Option String)
    (expectedGeneration : ℕ) (expectedManifestDigest : Digest) : Except StoreError Unit :=
  if receipt.any fun receipt ↦ idempotencyKey.isSome ∧ receipt.idempotencyKey = idempotencyKey ∧
      (receipt.expectedGeneration ≠ expectedGeneration ∨
        receipt.expectedManifestDigest ≠ expectedManifestDigest) then
    .error (.adoptionConflict "Idempotency-Key was already used for a different sync candidate")
  else .ok ()

def receiptMatches (receipt : AdoptionReceipt) (manifest : Manifest) (expectedGeneration : ℕ)
    (expectedManifestDigest : Digest) : Bool :=
  receipt.workspaceId = manifest.workspaceId ∧ receipt.expectedGeneration = expectedGeneration ∧
    receipt.expectedManifestDigest = expectedManifestDigest ∧
    receipt.resultGeneration = manifest.generation ∧
    receipt.resultManifestDigest = manifestDigest R manifest

/-- The candidate a manifest of the next generation was adopted from. -/
def reconstructedCandidate (manifest : Manifest) (expectedGeneration : ℕ) : Candidate where
  workspaceId := manifest.workspaceId
  storeSchemaVersion := manifest.storeSchemaVersion
  generation := expectedGeneration
  files := manifest.files
  tasks := manifest.tasks

/-- `_adoption_replay_locked` -/
def adoptionReplay (receipt : Option AdoptionReceipt) (status : SyncStatus)
    (expectedGeneration : ℕ) (expectedManifestDigest : Digest) : StoreCommand Bool := do
  if status.status ≠ .inSync then pure false
  else
    match ← readManifest with
    | none => pure false
    | some manifest =>
        pure (receipt.any (fun receipt ↦
            receiptMatches R receipt manifest expectedGeneration expectedManifestDigest) ||
          (manifest.generation = expectedGeneration + 1 ∧
            candidateDigest R (reconstructedCandidate manifest expectedGeneration) =
              expectedManifestDigest : Bool))

structure SyncReport where
  state : String
  workspaceId : String
  candidateWorkspaceId : String
  generation : ℕ
  manifestDigest : Digest
  changedFiles : List DocName
  reason : Option String
  rebindAvailable : Bool

/-- `sync_status` -/
def syncStatus : StoreCommand SyncReport := do
  let status ← inspectSync R
  pure {
    state := if status.status = .externalChangeInvalid then "invalid" else status.status.text
    workspaceId := status.workspaceId
    candidateWorkspaceId := status.candidateWorkspaceId
    generation := status.generation
    manifestDigest := status.candidateDigest.getD status.manifestDigest
    changedFiles := status.changedFiles
    reason := status.validationError.map fun _ ↦ "authoritative store candidate failed validation"
    rebindAvailable := status.status = .externalChangeInvalid ∧
      status.validationError = some "external candidate workspace identity changed" }

/-- The part of an adoption that advances the committed manifest. -/
def adoptReviewed (status : SyncStatus) (idempotencyKey : Option String) (expectedGeneration : ℕ)
    (expectedManifestDigest : Digest) : StoreCommand SyncReport := do
  let current ← inspectSync R
  if current.candidateDigest ≠ status.candidateDigest then
    Command.throw (.externalChange current)
  else
    writeCommittedManifest R status.changedFiles "store.external-change-adopted" none
    match ← readManifest with
    | none => Command.throw (.corrupt "committed sync manifest is missing")
    | some manifest =>
        step (.writeReceipt {
          version := 1
          idempotencyKey
          expectedGeneration
          expectedManifestDigest
          resultGeneration := manifest.generation
          resultManifestDigest := manifestDigest R manifest
          workspaceId := manifest.workspaceId })
        syncStatus R

def adoptLocked (expectedGeneration : ℕ) (expectedManifestDigest : Digest)
    (idempotencyKey : Option String) : StoreCommand SyncReport := do
  let status ← inspectSync R
  let receipt ← readAdoptionReceipt
  Command.ofExcept
    (guardAdoptionKey receipt idempotencyKey expectedGeneration expectedManifestDigest)
  let replayed ← adoptionReplay R receipt status expectedGeneration expectedManifestDigest
  if replayed then syncStatus R
  else if status.status ≠ .externalChangeDetected ∨ status.generation ≠ expectedGeneration ∨
      status.candidateDigest.getD status.manifestDigest ≠ expectedManifestDigest then
    Command.throw (.externalChange status)
  else adoptReviewed R status idempotencyKey expectedGeneration expectedManifestDigest

/-- `adopt_external_change` -/
def adoptExternalChange (expectedGeneration : ℕ) (expectedManifestDigest : Digest)
    (idempotencyKey : Option String) : StoreCommand SyncReport :=
  if ¬idempotencyKey.all isAdoptionKey then Command.throw (.value "idempotency_key is invalid")
  else
    transaction R (adoptLocked R expectedGeneration expectedManifestDigest idempotencyKey)

end WorkStack.Store
