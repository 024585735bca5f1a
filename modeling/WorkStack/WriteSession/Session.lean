import WorkStack.Effect.Command
import WorkStack.WriteSession.Layout

/-!
# The v4 write session

A session checks the authority against its manifest, writes the journal, stages the proposed bytes
beside their targets, replaces the targets one by one, publishes the manifest and removes the
journal. A recovery takes over at the phase and in the state that an interrupted session left.

The bytes of a stage file are written one by one, so a crash can leave any beginning of them. One
turn of the loop in `_apply_stages`, from the digest it compares to the replacement it guards, is a
single atomic step.
-/

namespace WorkStack.WriteSession

open Effect Python
open Store (Digest)

/-! ## The disk -/

structure Disk where
  files : Dict Location Bytes
  journal : Option Journal
  /-- The stage file of the journal; it holds nothing yet or a whole journal. -/
  journalStage : Option (Option Journal)
  manifest : Option Manifest

namespace Disk

def file (disk : Disk) (location : Location) : Option Bytes := disk.files.get location

/-- The files below the authority root. -/
def authority (disk : Disk) (name : FileName) : Option Bytes := disk.file ⟨.authority, name⟩

def digest (sha256 : Bytes → Digest) (disk : Disk) (location : Location) : Option Digest :=
  (disk.file location).map sha256

def write (disk : Disk) (location : Location) (body : Bytes) : Disk :=
  { disk with files := disk.files.set location body }

def remove (disk : Disk) (location : Location) : Disk :=
  { disk with files := disk.files.erase location }

end Disk

/-- What one turn of the loop in `_apply_stages` did. -/
inductive Applied where
  | already | mismatch | deleted | notStaged | stageInvalid | replaced | failed
  deriving DecidableEq

/-- One turn of the loop in `_apply_stages`, up to the replacement. -/
def Disk.applyTarget (sha256 : Bytes → Digest) (target : JournalTarget) (stage : Option Location)
    (disk : Disk) : Applied × Disk :=
  let current := disk.digest sha256 target.location
  if current = target.proposedDigest then (.already, disk)
  else if current ≠ target.expectedDigest then (.mismatch, disk)
  else match target.action with
    | .delete =>
        if (disk.file target.location).isSome then (.deleted, disk.remove target.location)
        else (.failed, disk)
    | .replace =>
        match stage with
        | none => (.notStaged, disk)
        | some stage =>
            if disk.digest sha256 stage ≠ target.proposedDigest then (.stageInvalid, disk)
            else match disk.file stage with
              | none => (.failed, disk)
              | some body => (.replaced, (disk.remove stage).write target.location body)

inductive DiskOp where
  /-- The files that `os.walk` finds below the authority root. -/
  | walk
  | readFile (location : Location)
  /-- `O_CREAT | O_EXCL` -/
  | createFile (location : Location)
  | appendByte (location : Location) (byte : UInt8)
  | unlinkFile (location : Location)
  | applyTarget (target : JournalTarget) (stage : Option Location)
  | readJournal
  | journalStageExists
  | unlinkJournalStage
  | createJournalStage
  | writeJournalStage (journal : Journal)
  | replaceJournal
  | unlinkJournal
  | readManifest
  | replaceManifest (manifest : Manifest)

@[reducible] def DiskOp.Answer : DiskOp → Type
  | walk => List FileName
  | readFile _ => Option Bytes
  | createFile _ => Bool
  | appendByte _ _ => Unit
  | unlinkFile _ => Bool
  | applyTarget _ _ => Applied
  | readJournal => Option Journal
  | journalStageExists => Bool
  | unlinkJournalStage => Unit
  | createJournalStage => Bool
  | writeJournalStage _ => Unit
  | replaceJournal => Bool
  | unlinkJournal => Bool
  | readManifest => Option Manifest
  | replaceManifest _ => Unit

abbrev diskSignature : Signature := ⟨DiskOp, DiskOp.Answer⟩

def Disk.perform (sha256 : Bytes → Digest) : (o : DiskOp) → Disk → o.Answer × Disk
  | .walk, disk =>
      ((disk.files.keys.filter fun location ↦ location.scope = .authority).map Location.name, disk)
  | .readFile location, disk => (disk.file location, disk)
  | .createFile location, disk =>
      if (disk.file location).isSome then (false, disk) else (true, disk.write location [])
  | .appendByte location byte, disk =>
      match disk.file location with
      | none => ((), disk)
      | some body => ((), disk.write location (body ++ [byte]))
  | .unlinkFile location, disk => ((disk.file location).isSome, disk.remove location)
  | .applyTarget target stage, disk => disk.applyTarget sha256 target stage
  | .readJournal, disk => (disk.journal, disk)
  | .journalStageExists, disk => (disk.journalStage.isSome, disk)
  | .unlinkJournalStage, disk => ((), { disk with journalStage := none })
  | .createJournalStage, disk =>
      if disk.journalStage.isSome then (false, disk)
      else (true, { disk with journalStage := some none })
  | .writeJournalStage journal, disk => ((), { disk with journalStage := some (some journal) })
  | .replaceJournal, disk =>
      match disk.journalStage with
      | none => (false, disk)
      | some journal => (true, { disk with journal, journalStage := none })
  | .unlinkJournal, disk => (disk.journal.isSome, { disk with journal := none })
  | .readManifest, disk => (disk.manifest, disk)
  | .replaceManifest manifest, disk => ((), { disk with manifest := some manifest })

abbrev machine (R : SessionRules) : Machine diskSignature := ⟨Disk, Disk.perform R.sha256⟩

abbrev SessionCommand (α : Type) := Command diskSignature Unit SessionError α

def step (o : DiskOp) : SessionCommand o.Answer := Command.perform (S := diskSignature) o

def admitted {α : Type} (result : Checked α) : SessionCommand α := Command.ofExcept result

def stop {α : Type} (code : String) (artifact : String := "") : SessionCommand α :=
  Command.throw (.refused code artifact)

variable (R : SessionRules)

/-! ## Reading the authority -/

def collectFile (files : FileName → Option Bytes) (name : FileName) :
    SessionCommand (FileName → Option Bytes) := do
  match ← step (.readFile ⟨.authority, name⟩) with
  | none => stop "AUTHORITY_VERIFICATION_FAILED"
  | some body => pure (Function.update files name (some body))

/-- `read_v4`: the files below the authority root, one by one, and what they say. -/
def readAuthority : SessionCommand (AuthorityRead × List (String × Digest)) := do
  let names ← step .walk
  let files ← Command.fold collectFile names fun _ ↦ none
  match R.readV4 files with
  | none => stop "AUTHORITY_VERIFICATION_FAILED"
  | some read => pure (read, rosterOf R read files)

/-- `_actual_manifest`; building the manifest reads the authority once more. -/
def actualManifest (generation : ℕ) : SessionCommand Manifest := do
  let result ← readAuthority R
  let current ← readAuthority R
  if R.fingerprint result.1 result.2 ≠ R.fingerprint current.1 current.2 then
    stop "AUTHORITY_VERIFICATION_FAILED"
  else match buildManifest generation current.1 current.2 with
    | none => stop "AUTHORITY_VERIFICATION_FAILED"
    | some manifest => pure manifest

/-- `read_runtime_manifest` -/
def readRuntimeManifest : SessionCommand (Option Manifest) := do
  match ← step .readManifest with
  | none => pure none
  | some manifest =>
      match R.manifestDefect manifest with
      | some code => stop code
      | none => pure (some manifest)

/-- `_verify_baseline` -/
def verifyBaseline : SessionCommand Manifest := do
  match ← readRuntimeManifest R with
  | none => stop "BASE_MANIFEST_MISSING"
  | some state => do
      let actual ← actualManifest R state.generation
      if R.manifestDigest actual ≠ R.manifestDigest state then stop "BASE_MANIFEST_CAS_MISMATCH"
      else pure state

def fileDigest (location : Location) : SessionCommand (Option Digest) := do
  let body ← step (.readFile location)
  pure (body.map R.sha256)

/-! ## Stage files -/

/-- The twenty hexadecimal digits in `_stage_path`. -/
def stageSuffix (operationId : String) (target : JournalTarget) : String :=
  let identity := operationId ++ "\x00" ++ target.action.text ++ "\x00" ++ target.scope.text ++ "\x00" ++
    target.artifact
  String.ofList ((R.sha256 (Json.utf8 identity.toList)).hex.toList.take 20)

/-- `_stage_path` -/
def stageLocation (operationId : String) (target : JournalTarget) : Location :=
  ⟨target.scope, .stage target.artifact (stageSuffix R operationId target)⟩

/-- `_ignored_stage_paths` -/
def ignoredStagePaths (journal : Journal) : List FileName :=
  (journal.targets.filter fun target ↦ target.scope = .authority).map fun target ↦
    (stageLocation R journal.operationId target).name

def physicalArtifact (ignored : List FileName) (artifacts : List String) (name : FileName) :
    Checked (List String) :=
  if name ∈ ignored then .ok artifacts
  else match name with
    | .stage path _ => refuse "AUTHORITY_TARGET_INVALID" path
    | .artifact path =>
        if isAuthorityArtifact path then .ok (path :: artifacts)
        else refuse "AUTHORITY_TARGET_INVALID" path

/-- `_physical_authority_artifacts` -/
def physicalAuthorityArtifacts (journal : Journal) : SessionCommand (List String) := do
  let names ← step .walk
  admitted (names.foldlM (physicalArtifact (ignoredStagePaths R journal)) [])

def verifyUnrelated (journal : Journal) (_ : Unit) (entry : String × Digest) : SessionCommand Unit := do
  if journal.targets.any fun target ↦ target.scope = .authority ∧ target.artifact = entry.1 then pure ()
  else
    let current ← fileDigest R ⟨.authority, .artifact entry.1⟩
    if current ≠ some entry.2 then stop "UNRELATED_ARTIFACT_CHANGED" entry.1 else pure ()

def verifyTarget (runtime : RuntimeAuthority) (_ : Unit) (target : JournalTarget) :
    SessionCommand Unit := do
  let location ← admitted (targetPath R runtime target)
  let current ← fileDigest R location
  if current ≠ target.expectedDigest ∧ current ≠ target.proposedDigest then
    stop "TARGET_STATE_AMBIGUOUS" target.artifact
  else pure ()

/-- `_verify_recovery_state` -/
def verifyRecoveryState (runtime : RuntimeAuthority) (journal : Journal) (reference : Manifest) :
    SessionCommand Unit := do
  let referenceArtifacts ← admitted (manifestArtifacts reference)
  let authorityTargets := journal.targets.filter fun target ↦ target.scope = .authority
  let actualArtifacts ← physicalAuthorityArtifacts R journal
  if ¬actualArtifacts ⊆ referenceArtifacts.keys ++ authorityTargets.map JournalTarget.artifact then
    stop "UNRELATED_ARTIFACT_ADDED"
  else do
    Command.fold (verifyUnrelated R journal) referenceArtifacts ()
    Command.fold (verifyTarget R runtime) journal.targets ()

/-- `_write_stage` -/
def writeStage (stage : Location) (body : Bytes) : SessionCommand Unit := do
  let expected := R.sha256 body
  let current ← fileDigest R stage
  match current with
  | some digest =>
      if digest ≠ expected then stop "STAGE_FILE_CONFLICT"
      else do
        let _ ← step (.unlinkFile stage)
        pure ()
  | none => pure ()
  let created : Bool ← step (.createFile stage)
  if created then
    Command.fold (fun _ byte ↦ step (.appendByte stage byte)) body ()
    let written ← fileDigest R stage
    if written ≠ some expected then stop "TARGET_STAGE_VERIFICATION_FAILED" else pure ()
  else stop "TARGET_STAGE_FAILED"

/-- The targets that have been staged, with their stage files. -/
abbrev Stages := List (JournalTarget × Location)

def stageTarget (runtime : RuntimeAuthority) (journal : Journal) (stages : Stages)
    (target : JournalTarget) : SessionCommand Stages := do
  let path ← admitted (targetPath R runtime target)
  let current ← fileDigest R path
  if current = target.proposedDigest then pure stages
  else if target.action = .delete then pure stages
  else match target.proposedBytes with
    | none => stop "TARGET_CONTENT_MISSING" target.artifact
    | some body => do
        let stage := stageLocation R journal.operationId target
        writeStage R stage body
        pure (stages ++ [(target, stage)])

/-- `_stage_targets` -/
def stageTargets (runtime : RuntimeAuthority) (journal : Journal) : SessionCommand Stages :=
  Command.fold (stageTarget R runtime journal) journal.targets []

/-- `_cleanup_stages` -/
def cleanupStages (stages : Stages) : SessionCommand Unit :=
  Command.fold (fun _ stage ↦ do
    let _ ← step (.unlinkFile stage.2)
    pure ()) stages ()

def applyTarget (runtime : RuntimeAuthority) (journal : Journal) (reference : Manifest)
    (stages : Stages) (_ : Unit) (target : JournalTarget) : SessionCommand Unit := do
  let _ ← admitted (targetPath R runtime target)
  match ← step (.applyTarget target (stages.lookup target)) with
  | .already => pure ()
  | .mismatch => stop "TARGET_CAS_MISMATCH" target.artifact
  | .deleted => verifyRecoveryState R runtime journal reference
  | .notStaged => Command.throw (.keyError target)
  | .stageInvalid => stop "TARGET_STAGE_VERIFICATION_FAILED" target.artifact
  | .replaced => verifyRecoveryState R runtime journal reference
  | .failed => stop "TARGET_REPLACE_FAILED" target.artifact

/-- `_apply_stages` -/
def applyStages (runtime : RuntimeAuthority) (journal : Journal) (reference : Manifest)
    (stages : Stages) : SessionCommand Unit :=
  Command.fold (applyTarget R runtime journal reference stages) journal.targets ()

/-- Stage and apply, and clean up the stages whether that succeeded or not. -/
def applyTargets (runtime : RuntimeAuthority) (journal : Journal) (reference : Manifest) :
    SessionCommand Unit := do
  let stages ← stageTargets R runtime journal
  (applyStages R runtime journal reference stages).catching fun error ↦ do
    cleanupStages stages
    Command.throw error
  cleanupStages stages

/-! ## The journal -/

/-- `_read_journal` -/
def readJournal : SessionCommand (Option Journal) := do
  match ← step .readJournal with
  | none => pure none
  | some journal => do
      let parsed ← admitted (parseWriteJournal R journal)
      pure (some parsed)

def journalFileDigest : SessionCommand (Option Digest) := do
  let journal ← step .readJournal
  pure (journal.map R.journalDigest)

/-- `_publish_journal` -/
def publishJournal (journal : Journal) (expectedDigest : Option Digest) : SessionCommand Unit := do
  let current ← journalFileDigest R
  if current ≠ expectedDigest then stop "JOURNAL_CAS_MISMATCH"
  else do
    let present : Bool ← step .journalStageExists
    if present then
      if expectedDigest = none then stop "JOURNAL_STAGE_EXISTS"
      else do
        let _ ← step .unlinkJournalStage
        pure ()
    else pure ()
    let created : Bool ← step .createJournalStage
    if ¬created then stop "JOURNAL_PUBLISH_FAILED"
    else do
      let _ ← step (.writeJournalStage journal)
      let current ← journalFileDigest R
      if current ≠ expectedDigest then do
        let _ ← step .unlinkJournalStage
        stop "JOURNAL_CAS_MISMATCH"
      else do
        let replaced : Bool ← step .replaceJournal
        if ¬replaced then stop "JOURNAL_PUBLISH_FAILED"
        else do
          let _ ← step .unlinkJournalStage
          match ← readJournal R with
          | none => stop "JOURNAL_PUBLISH_VERIFICATION_FAILED"
          | some persisted =>
              if R.journalDigest persisted ≠ R.journalDigest journal then
                stop "JOURNAL_PUBLISH_VERIFICATION_FAILED"
              else pure ()

/-- `publishJournal` once no stage of an earlier journal is left. -/
def publishCreated (journal : Journal) (expected : Option Digest) : SessionCommand Unit := do
  let created : Bool ← step .createJournalStage
  if ¬created then stop "JOURNAL_PUBLISH_FAILED"
  else do
    let _ ← step (.writeJournalStage journal)
    let current ← journalFileDigest R
    if current ≠ expected then do
      let _ ← step .unlinkJournalStage
      stop "JOURNAL_CAS_MISMATCH"
    else do
      let replaced : Bool ← step .replaceJournal
      if ¬replaced then stop "JOURNAL_PUBLISH_FAILED"
      else do
        let _ ← step .unlinkJournalStage
        match ← readJournal R with
        | none => stop "JOURNAL_PUBLISH_VERIFICATION_FAILED"
        | some persisted =>
            if R.journalDigest persisted ≠ R.journalDigest journal then
              stop "JOURNAL_PUBLISH_VERIFICATION_FAILED"
            else pure ()

/-- `_advance_journal` -/
def advanceJournal (journal : Journal) (phase : Phase) : SessionCommand Journal := do
  let advanced ← admitted (advanceJournalPhase R journal phase)
  publishJournal R advanced (some (R.journalDigest journal))
  pure advanced

/-- `_remove_journal` -/
def removeJournal (journal : Journal) : SessionCommand Unit := do
  let current ← journalFileDigest R
  if current ≠ some (R.journalDigest journal) then stop "JOURNAL_CAS_MISMATCH"
  else do
    let removed : Bool ← step .unlinkJournal
    if removed then pure () else stop "JOURNAL_REMOVE_FAILED"

/-! ## Publication -/

/-- `_current_digest` of the runtime manifest. -/
def currentManifestDigest : SessionCommand (Option Digest) := do
  let state ← readRuntimeManifest R
  pure (state.map R.manifestDigest)

/-- `publish_runtime_manifest` -/
def publishManifest (manifest : Manifest) (expectedDigest : Digest) : SessionCommand Manifest := do
  match R.manifestDefect manifest with
  | some code => stop code
  | none => do
      let current ← currentManifestDigest R
      if current ≠ some expectedDigest then stop "MANIFEST_CAS_MISMATCH"
      else do
        let again ← currentManifestDigest R
        if again ≠ some expectedDigest then stop "MANIFEST_CAS_MISMATCH"
        else do
          let _ ← step (.replaceManifest manifest)
          match ← readRuntimeManifest R with
          | none => stop "MANIFEST_PUBLISH_VERIFICATION_FAILED"
          | some verified =>
              if R.manifestDigest verified ≠ R.manifestDigest manifest then
                stop "MANIFEST_PUBLISH_VERIFICATION_FAILED"
              else pure verified

/-- The manifest that a completed generation has published. -/
def publishedState (journal : Journal) (manifest : Manifest) (currentManifestDigest : Digest) :
    SessionCommand Manifest := do
  if currentManifestDigest = journal.baseManifestDigest then
    publishManifest R manifest currentManifestDigest
  else if currentManifestDigest = R.manifestDigest manifest then do
    match ← readRuntimeManifest R with
    | none => stop "MANIFEST_MISSING_AFTER_PUBLICATION"
    | some state => pure state
  else stop "MANIFEST_STATE_AMBIGUOUS"

/-- Advance the journal to a phase that it has not reached. -/
def reachPhase (journal : Journal) (phase : Phase) : SessionCommand Journal :=
  if journal.phase.index < phase.index then advanceJournal R journal phase else pure journal

/-- `_complete_generation` -/
def completeGeneration (journal : Journal) (manifest : Manifest) (currentManifestDigest : Digest) :
    SessionCommand (Journal × Manifest) := do
  let state ← publishedState R journal manifest currentManifestDigest
  let journal ← reachPhase R journal .manifestPublished
  let journal ← reachPhase R journal .generationPublished
  removeJournal R journal
  pure (journal, state)

structure WriteSessionResult where
  operationId : String
  generation : ℕ
  manifest : Manifest
  recovered : Bool

/-- Apply the targets over the base manifest and complete the generation. -/
def finishTargets (runtime : RuntimeAuthority) (journal : Journal) (reference : Manifest)
    (proposedGeneration : ℕ) (proposedDigest : Digest) : SessionCommand (Journal × Manifest) := do
  applyTargets R runtime journal reference
  let actual ← actualManifest R proposedGeneration
  if R.manifestDigest actual ≠ proposedDigest then stop "PROPOSED_MANIFEST_MISMATCH"
  else completeGeneration R journal actual (R.manifestDigest reference)

/-! ## The session -/

/-- What the caller of a write session proposes. -/
structure Plan where
  targets : List JournalTarget
  proposedManifest : Manifest
  operationId : String
  createdAt : String

/-- The journal of a plan over a base. -/
def Plan.journal (plan : Plan) (runtime : RuntimeAuthority) (base : Manifest) : Journal where
  workspaceUid := runtime.workspaceUid
  operationId := plan.operationId
  createdAt := plan.createdAt
  phase := .prepared
  baseGeneration := base.generation
  proposedGeneration := base.generation + 1
  baseManifestDigest := R.manifestDigest base
  proposedManifestDigest := R.manifestDigest plan.proposedManifest
  targets := sortedTargets plan.targets

/-- `execute_write_session` -/
def executeWriteSession (runtime : RuntimeAuthority) (plan : Plan) :
    SessionCommand WriteSessionResult := do
  let ordered := sortedTargets plan.targets
  match ← readJournal R with
  | some _ => stop "PENDING_JOURNAL_EXISTS"
  | none => do
      let base ← verifyBaseline R
      admitted (validateTargetRoster R runtime ordered)
      admitted (validateManifestTransition runtime base plan.proposedManifest ordered)
      let journal ← admitted (buildWriteJournal R (plan.journal R runtime base))
      publishJournal R journal none
      let journal ← advanceJournal R journal .applying
      verifyRecoveryState R runtime journal base
      let (_, state) ← finishTargets R runtime journal base (base.generation + 1)
        (R.manifestDigest plan.proposedManifest)
      pure ⟨plan.operationId, state.generation, state, false⟩

/-- `_recover_locked` -/
def recoverLocked (runtime : RuntimeAuthority) (journal : Journal) :
    SessionCommand WriteSessionResult := do
  if journal.workspaceUid ≠ runtime.workspaceUid then stop "JOURNAL_WORKSPACE_MISMATCH"
  else match ← readRuntimeManifest R with
    | none => stop "BASE_MANIFEST_MISSING"
    | some state =>
        let current := R.manifestDigest state
        if current ≠ journal.baseManifestDigest ∧ current ≠ journal.proposedManifestDigest then
          stop "MANIFEST_STATE_AMBIGUOUS"
        else if current = journal.proposedManifestDigest then do
          let actual ← actualManifest R journal.proposedGeneration
          if R.manifestDigest actual ≠ journal.proposedManifestDigest then
            stop "PROPOSED_MANIFEST_MISMATCH"
          else do
            let (journal, published) ← completeGeneration R journal actual journal.proposedManifestDigest
            pure ⟨journal.operationId, published.generation, published, true⟩
        else if journal.phase = .manifestPublished ∨ journal.phase = .generationPublished then
          stop "JOURNAL_PHASE_MANIFEST_MISMATCH"
        else do
          verifyRecoveryState R runtime journal state
          let journal ← (if journal.phase = .prepared then advanceJournal R journal .applying
            else pure journal)
          let (journal, published) ← finishTargets R runtime journal state journal.proposedGeneration
            journal.proposedManifestDigest
          pure ⟨journal.operationId, published.generation, published, true⟩

/-- `recover_write_session` -/
def recoverWriteSession (runtime : RuntimeAuthority) : SessionCommand (Option WriteSessionResult) := do
  match ← readJournal R with
  | none => pure none
  | some journal => do
      admitted (validateTargetRoster R runtime journal.targets)
      let result ← recoverLocked R runtime journal
      pure (some result)

end WorkStack.WriteSession
