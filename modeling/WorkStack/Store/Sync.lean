import WorkStack.Store.Disk

/-!
# External-change detection, the committed manifest and adoption

One question runs through these commands: is what is on disk still the generation that was
committed? The manifest answers it. Writing the manifest, comparing an external candidate against it
and adopting that candidate are the same reads in different orders, and every one of these reads is
a step of its own.
-/

namespace WorkStack.Store

open Effect

variable (R : StoreRules)

/-! ## Reading -/

def digestOf (value : Json) : Digest := R.sha256 value.compactJson

def manifestDigest (manifest : Manifest) : Digest := digestOf R manifest.toJson

def candidateDigest (candidate : Candidate) : Digest := digestOf R candidate.toJson

/-- `_read_json_locked` of a document. -/
def readJson (name : DocName) : StoreCommand Json := do
  match ← step (.readBytes .document name) with
  | none => Command.throw (.fileNotFound name.fileName)
  | some body =>
      match R.loads body with
      | none => Command.throw (.corrupt ("invalid JSON preserved at " ++ name.fileName ++
          "; repair or quarantine it before startup"))
      | some value =>
          if value.isObject then pure value
          else Command.throw (.corrupt (name.fileName ++ " must contain a JSON object"))

def hashDocument (site : ReadSite) (hashes : Files) (name : DocName) : StoreCommand Files := do
  match ← step (.readBytes site name) with
  | none => Command.throw (.corrupt ("required store is missing: " ++ name.fileName))
  | some body => pure (Function.update hashes name (some (R.sha256 body)))

/-- `_authoritative_hashes_locked` -/
def authoritativeHashes (site : ReadSite) : StoreCommand Files :=
  Command.fold (hashDocument R site) DocName.sortedDefaults fun _ ↦ none

/-- `_read_manifest_locked` -/
def readManifest : StoreCommand (Option Manifest) := do
  match ← step .readManifest with
  | none => pure none
  | some manifest =>
      accept (validateStoreManifest manifest)
      pure (some manifest)

/-- `_task_semantics_locked` -/
def taskSemanticsLocked : StoreCommand Tasks := do
  let backlog ← readJson R .backlog
  accept (taskSemantics R.sha256 backlog)

def loadDocument (values : DocName → Json) (name : DocName) : StoreCommand (DocName → Json) :=
  (do
    let value ← readJson R name
    pure (Function.update values name value)).catching fun
      | .fileNotFound path => Command.throw (.corrupt ("required store is missing: " ++ path))
      | error => Command.throw error

/-- `_load_required_store_values_locked` -/
def loadRequiredStoreValues : StoreCommand (DocName → Json) :=
  Command.fold (loadDocument R) DocName.defaults fun _ ↦ .null

def judgeDocumentValues (values : DocName → Json) : Except String StoreReadiness := do
  let admission ← R.validateDocumentValues values
  pure {
    schemaVersion := storeSchemaVersion
    workspaceUid := admission.workspaceUid
    taskCount := admission.taskCount
    migrationOrigin := admission.migrationOrigin }

/-- `_validate_ready_state_locked` -/
def validateReadyState : StoreCommand StoreReadiness := do
  let values ← loadRequiredStoreValues R
  accept (judgeDocumentValues R values)

/-! ## Events -/

/-- `_emit_event_locked`; the deque keeps the last 128 events. -/
def emitEvent (type workspaceId : String) (changedFiles : List DocName) : StoreCommand Unit :=
  Command.remember fun memory ↦
    let event : ChangeEvent := {
      id := memory.eventSequence + 1
      type
      workspaceId
      generation := memory.generation
      changedFiles }
    { memory with
      eventSequence := memory.eventSequence + 1
      events := (memory.events ++ [EventRecord.change event]).drop (memory.events.length + 1 - 128) }

/-! ## Inspection -/

/-- `_ensure_sync_manifest_locked` -/
def ensureSyncManifest : StoreCommand Manifest := do
  match ← readManifest with
  | some manifest => pure manifest
  | none =>
      let readiness ← validateReadyState R
      let memory ← Command.memory
      let files ← authoritativeHashes R .authoritativeHash
      let tasks ← taskSemanticsLocked R
      let manifest : Manifest := {
        version := 1
        workspaceId := readiness.workspaceUid
        storeSchemaVersion := readiness.schemaVersion
        generation := max memory.generation 0
        files
        tasks }
      step (.writeManifest .ensured manifest)
      Command.remember fun memory ↦ { memory with readiness := some readiness }
      pure manifest

/-- `_changed_manifest_files` -/
def changedManifestFiles (manifest : Manifest) (currentHashes : Files) : List DocName :=
  DocName.sortedDefaults.filter fun name ↦ currentHashes name ≠ manifest.files name

/-- `_validate_external_candidate_locked` -/
def validateExternalCandidate (manifest : Manifest) (currentHashes : Files)
    (candidateWorkspaceId : String) : StoreCommand Unit := do
  if candidateWorkspaceId ≠ manifest.workspaceId then
    Command.throw (.corrupt "external candidate workspace identity changed")
  else
    let candidateTasks ← taskSemanticsLocked R
    accept (validateCandidateTasks manifest.tasks candidateTasks)
    let hashes ← authoritativeHashes R .candidateRecheck
    if hashes ≠ currentHashes then
      Command.throw (.corrupt "external candidate changed during validation")
    else pure ()

def invalidCandidateDocument (manifest : Manifest) (changed : List DocName) (name : DocName) :
    StoreCommand (List DocName) := do
  let present : Bool ← step (.isFile .invalidCandidate name)
  if present then
    match ← step (.readBytes .invalidCandidate name) with
    | none => Command.throw (.fileNotFound name.fileName)
    | some body =>
        if manifest.files name ≠ some (R.sha256 body) then pure (changed ++ [name]) else pure changed
  else pure (changed ++ [name])

/-- `_invalid_candidate_changed_files_locked` -/
def invalidCandidateChangedFiles (manifest : Manifest) : StoreCommand (List DocName) := do
  let changed ← Command.fold (invalidCandidateDocument R manifest) DocName.defaults []
  pure (sortedNames changed)

/-- The four values `_inspect_candidate_locked` returns. -/
structure Inspection where
  candidateWorkspaceId : String
  currentHashes : Files
  changedFiles : List DocName
  validationError : Option String

/-- The `except StoreCorruptError` of an inspection, with the workspace id known by then. -/
def invalidCandidate (manifest : Manifest) (candidateWorkspaceId : String) :
    StoreError → StoreCommand Inspection
  | .corrupt message => do
      let changedFiles ← invalidCandidateChangedFiles R manifest
      pure ⟨candidateWorkspaceId, fun _ ↦ none, changedFiles, some message⟩
  | error => Command.throw error

def admitExternalCandidate (manifest : Manifest) (currentHashes : Files)
    (changedFiles : List DocName) (candidateWorkspaceId : String) : StoreCommand Inspection := do
  validateExternalCandidate R manifest currentHashes candidateWorkspaceId
  pure ⟨candidateWorkspaceId, currentHashes, changedFiles, none⟩

/-- The `try` block of an inspection; the workspace id of the candidate outlives a later refusal. -/
def tryCandidate (manifest : Manifest) : StoreCommand Inspection := do
  let currentHashes ← authoritativeHashes R .candidateHash
  let changedFiles := changedManifestFiles manifest currentHashes
  if changedFiles = [] then pure ⟨manifest.workspaceId, currentHashes, changedFiles, none⟩
  else
    let readiness ← validateReadyState R
    (admitExternalCandidate R manifest currentHashes changedFiles
      readiness.workspaceUid).catching (invalidCandidate R manifest readiness.workspaceUid)

/-- `_inspect_candidate_locked` -/
def inspectCandidate (manifest : Manifest) : StoreCommand Inspection :=
  (tryCandidate R manifest).catching (invalidCandidate R manifest manifest.workspaceId)

/-- `_sync_inspection_state` -/
def syncInspectionState (changedFiles : List DocName) (validationError : Option String) : SyncState :=
  if validationError.isSome then .externalChangeInvalid
  else if changedFiles = [] then .inSync
  else .externalChangeDetected

/-- `_sync_candidate_fingerprint` -/
def syncCandidateFingerprint (state : SyncState) (currentHashes : Files)
    (changedFiles : List DocName) : SyncState × Digest :=
  (state, digestOf R (.obj [("files", currentHashes.toJson),
    ("changed", .arr (changedFiles.map fun name ↦ .str name.fileName))]))

/-- `_candidate_manifest_digest_locked` -/
def candidateManifestDigest (manifest : Manifest) (inspection : Inspection) :
    StoreCommand (Option Digest) := do
  if inspection.validationError.isSome ∨ inspection.changedFiles = [] then pure none
  else
    let tasks ← taskSemanticsLocked R
    pure (some (candidateDigest R {
      workspaceId := inspection.candidateWorkspaceId
      storeSchemaVersion := manifest.storeSchemaVersion
      generation := manifest.generation
      files := inspection.currentHashes
      tasks }))

/-- The observation an inspection emits when it sees a candidate for the first time. -/
def noticeInspection (inspection : Inspection) (state : SyncState)
    (fingerprint : SyncState × Digest) : StoreCommand Unit := do
  let memory ← Command.memory
  if state ≠ .inSync ∧ memory.syncFingerprint ≠ some fingerprint then
    emitEvent ("store." ++ state.text) inspection.candidateWorkspaceId inspection.changedFiles
  else pure ()

/-- What an inspection leaves in the memory of the process. -/
def rememberInspection (inspection : Inspection) : StoreCommand Unit := do
  let state := syncInspectionState inspection.changedFiles inspection.validationError
  let fingerprint := syncCandidateFingerprint R state inspection.currentHashes inspection.changedFiles
  noticeInspection inspection state fingerprint
  Command.remember fun memory ↦ { memory with
    syncState := state
    syncFingerprint := if state = .inSync then none else some fingerprint }

/-- `_inspect_sync_locked` -/
def inspectSync : StoreCommand SyncStatus := do
  let manifest ← ensureSyncManifest R
  Command.remember fun memory ↦ { memory with
    generation := max memory.generation manifest.generation }
  let inspection ← inspectCandidate R manifest
  rememberInspection R inspection
  let digest ← candidateManifestDigest R manifest inspection
  let state := syncInspectionState inspection.changedFiles inspection.validationError
  pure {
    status := state
    writesAllowed := state = .inSync
    workspaceId := manifest.workspaceId
    candidateWorkspaceId := inspection.candidateWorkspaceId
    storeSchemaVersion := manifest.storeSchemaVersion
    generation := manifest.generation
    manifestDigest := manifestDigest R manifest
    files := manifest.files
    changedFiles := inspection.changedFiles
    validationError := inspection.validationError
    candidateDigest := digest }

/-- `_assert_writable_locked` -/
def assertWritable : StoreCommand Unit := do
  let memory ← Command.memory
  if memory.readiness.isNone then pure ()
  else
    let status ← inspectSync R
    if status.writesAllowed then pure () else Command.throw (.externalChange status)

/-! ## Publication -/

/-- The next generation of the process after a manifest with this generation. -/
def advanceGeneration (persisted : ℕ) : StoreCommand ℕ := do
  let memory ← Command.memory
  Command.remember fun memory ↦ { memory with generation := max memory.generation persisted + 1 }
  pure (max memory.generation persisted + 1)

def rememberInSync : StoreCommand Unit :=
  Command.remember fun memory ↦ { memory with syncState := .inSync, syncFingerprint := none }

/-- Raise the external change that an inspection reports. -/
def raiseExternalChange {α : Type} : StoreCommand α := do
  let status ← inspectSync R
  Command.throw (.externalChange status)

/-- `_write_committed_manifest_locked` -/
def writeCommittedManifest (changedFiles : List DocName) (eventType : String)
    (expectedHashes : Option Files) : StoreCommand Unit := do
  let hashesBefore ← authoritativeHashes R .authoritativeHash
  if expectedHashes.any fun expected ↦ hashesBefore ≠ expected then raiseExternalChange R
  else
    let tasksBefore ← taskSemanticsLocked R
    let readiness ← validateReadyState R
    let hashesAfter ← authoritativeHashes R .authoritativeHash
    let tasksAfter ← taskSemanticsLocked R
    if hashesBefore ≠ hashesAfter ∨ ¬tasksBefore.same tasksAfter then
      Command.throw (.corrupt "authoritative store changed while committing its manifest")
    else if expectedHashes.any fun expected ↦ hashesAfter ≠ expected then raiseExternalChange R
    else
      let previous ← readManifest
      let generation ← advanceGeneration (previous.elim 0 Manifest.generation)
      step (.writeManifest .committed {
        version := 1
        workspaceId := readiness.workspaceUid
        storeSchemaVersion := readiness.schemaVersion
        generation
        files := hashesAfter
        tasks := tasksAfter })
      Command.remember fun memory ↦ { memory with readiness := some readiness }
      rememberInSync
      emitEvent eventType readiness.workspaceUid changedFiles

/-- `_write_local_baseline_locked` -/
def writeLocalBaseline (previous : Manifest) (files : Files) (tasks : Tasks)
    (changedFiles : List DocName) : StoreCommand Unit := do
  let generation ← advanceGeneration previous.generation
  step (.writeManifest .localBaseline {
    version := 1
    workspaceId := previous.workspaceId
    storeSchemaVersion := previous.storeSchemaVersion
    generation
    files
    tasks })
  rememberInSync
  emitEvent "store.committed" previous.workspaceId changedFiles

def requireTargets (expectedHashes : Files) (changedFiles : List DocName) (hashes : Files) :
    Except String Unit :=
  if ∃ name ∈ changedFiles, hashes name ≠ expectedHashes name then
    .error "local commit target changed concurrently; recovery journal retained"
  else .ok ()

def baselineTasks (previous : Manifest) (changedFiles : List DocName) : StoreCommand Tasks :=
  if .backlog ∈ changedFiles then taskSemanticsLocked R else pure previous.tasks

/-- `_local_baseline_tasks_locked` -/
def localBaselineTasks (previous : Manifest) (expectedHashes : Files)
    (changedFiles : List DocName) : StoreCommand Tasks := do
  let before ← authoritativeHashes R .authoritativeHash
  accept (requireTargets expectedHashes changedFiles before)
  let tasks ← baselineTasks R previous changedFiles
  let after ← authoritativeHashes R .authoritativeHash
  accept (requireTargets expectedHashes changedFiles after)
  pure tasks

end WorkStack.Store
