import WorkStack.Store.Layout
import WorkStack.Python.Dict
import WorkStack.Python.Text

/-!
# Targets, manifests and journals of a v4 write session

A v4 authority is a directory of small files with one runtime manifest beside it. A write session
names every file it will replace or delete, with the digest it expects there and the digest it
proposes, and writes the whole plan to a journal before it touches a file.

The digests, the v4 reader, the canonical JSON of manifests and journals, the contract of the
idempotency ledger and the timestamp parser are parameters, and nothing is assumed about them.
-/

namespace WorkStack.WriteSession

open Python
open Store (Digest isLowerHex)

/-! ## Files -/

inductive Scope where
  | authority | runtime
  deriving DecidableEq, Repr

def Scope.text : Scope → String
  | authority => "authority"
  | runtime => "runtime"

inductive Action where
  | replace | delete
  deriving DecidableEq, Repr

def Action.text : Action → String
  | replace => "replace"
  | delete => "delete"

/-- A file below a root: an artifact by its relative path, or the hidden file
`.{name}.workstack-stage-{suffix}` beside the artifact of that name. -/
inductive FileName where
  | artifact (path : String)
  | stage (path : String) (suffix : String)
  deriving DecidableEq, Repr

/-- A file below the authority root or the runtime root. -/
structure Location where
  scope : Scope
  name : FileName
  deriving DecidableEq, Repr

/-- `records/{kind}/{bucket}/{uid}.json`, where the bucket starts the uid. -/
def isRecordArtifact (artifact : String) : Bool :=
  match split '/' artifact with
  | ["records", kind, bucket, file] =>
      ["captures", "notes", "objectives", "replies", "tasks"].contains kind &&
        bucket.length == 2 && bucket.toList.all isLowerHex &&
        (match split '.' file with
        | [uid, "json"] => isUuidText uid && bucket.toList == uid.toList.take 2
        | _ => false)
  | _ => false
where
  /-- Lower case hexadecimal digits in groups of 8, 4, 4, 4 and 12. -/
  isUuidText (value : String) : Bool :=
    value.length == 36 && value.toList.zipIdx.all fun (c, index) ↦
      if index = 8 ∨ index = 13 ∨ index = 18 ∨ index = 23 then c == '-' else isLowerHex c

/-- `streams/{kind}/{year}-{month}.ndjson` -/
def isStreamArtifact (artifact : String) : Bool :=
  match split '/' artifact with
  | ["streams", kind, file] =>
      ["activity", "planning-status", "worklog"].contains kind &&
        (match split '.' file with
        | [segment, "ndjson"] =>
            (match split '-' segment with
            | [year, month] => year.length == 4 && year.toList.all Char.isDigit &&
                ["01", "02", "03", "04", "05", "06", "07", "08", "09", "10", "11", "12"].contains month
            | _ => false)
        | _ => false)
  | _ => false

def isAuthorityArtifact (artifact : String) : Bool :=
  artifact == "store.json" || artifact == "workspace.json" || isRecordArtifact artifact ||
    isStreamArtifact artifact

/-! ## Targets -/

structure JournalTarget where
  action : Action
  scope : Scope
  artifact : String
  expectedDigest : Option Digest
  proposedDigest : Option Digest
  proposedBytes : Option Bytes
  deriving DecidableEq

/-- Where a target is on disk. -/
def JournalTarget.location (target : JournalTarget) : Location := ⟨target.scope, .artifact target.artifact⟩

/-- The order of `_target_id`. -/
def JournalTarget.before (left right : JournalTarget) : Prop :=
  left.scope.text < right.scope.text ∨
    left.scope = right.scope ∧ left.artifact.toList ≤ right.artifact.toList

instance : DecidableRel JournalTarget.before := fun _ _ ↦ inferInstanceAs (Decidable (_ ∨ _))

def sortedTargets (targets : List JournalTarget) : List JournalTarget :=
  targets.insertionSort JournalTarget.before

/-! ## Manifests -/

/-- What the v4 reader makes of the files of an authority. -/
structure AuthorityRead where
  workspaceUid : String
  /-- The artifacts it read, in the order of the manifest. -/
  artifacts : List String
  /-- Everything else that `build_v4_manifest` derives from the decoded records and streams. -/
  core : String
  deriving DecidableEq

/-- `V4Manifest`, decoded. -/
structure Manifest where
  generation : ℕ
  workspaceUid : String
  roster : List (String × Digest)
  core : String
  deriving DecidableEq

/-! ## Journals -/

inductive Phase where
  | prepared | applying | manifestPublished | generationPublished
  deriving DecidableEq, Repr

/-- The index in `JOURNAL_PHASES`. -/
def Phase.index : Phase → ℕ
  | prepared => 0
  | applying => 1
  | manifestPublished => 2
  | generationPublished => 3

/-- `WriteJournalV2`, decoded. -/
structure Journal where
  workspaceUid : String
  operationId : String
  createdAt : String
  phase : Phase
  baseGeneration : ℕ
  proposedGeneration : ℕ
  baseManifestDigest : Digest
  proposedManifestDigest : Digest
  targets : List JournalTarget
  deriving DecidableEq

def maxJournalBytes : ℕ := 64 * 1024 * 1024

def maxTargetBytes : ℕ := 32 * 1024 * 1024

def maxTargets : ℕ := 4096

def maxCanonicalInteger : ℕ := 9007199254740991

structure SessionRules where
  sha256 : Bytes → Digest
  /-- `read_v4` of the files below an authority root; nothing when it refuses. -/
  readV4 : (FileName → Option Bytes) → Option AuthorityRead
  /-- The digest of what the reader found, with the digest of every artifact. -/
  fingerprint : AuthorityRead → List (String × Digest) → Digest
  manifestDigest : Manifest → Digest
  /-- The refusal of `_decode_manifest`. -/
  manifestDefect : Manifest → Option String
  journalDigest : Journal → Digest
  journalSize : Journal → ℕ
  /-- `datetime.fromisoformat`: whether a parsed stamp has a timezone. -/
  fromIsoFormat : String → Option Bool
  /-- The refusal of a proposed idempotency ledger for a workspace. -/
  ledgerDefect : String → Bytes → Option String

/-- `RuntimeAuthority`: the roots are given, what is left is the workspace. -/
structure RuntimeAuthority where
  workspaceUid : String

/-- `V4WriteSessionError`, or the `KeyError` of a target that was never staged. -/
inductive SessionError where
  | refused (code : String) (artifact : String)
  | keyError (target : JournalTarget)
  deriving DecidableEq

abbrev Checked (α : Type) := Except SessionError α

def refuse {α : Type} (code : String) (artifact : String := "") : Checked α :=
  .error (.refused code artifact)

variable (R : SessionRules)

/-! ## Checks of a plan -/

def idempotencyArtifact : String := "idempotency-ledger.v1.json"

/-- `_validate_runtime_target` -/
def validateRuntimeTarget (runtime : RuntimeAuthority) (target : JournalTarget) : Checked Unit :=
  if target.artifact ≠ idempotencyArtifact then refuse "RUNTIME_TARGET_INVALID" target.artifact
  else if target.action = .delete then .ok ()
  else match target.proposedBytes with
    | none => refuse "RUNTIME_TARGET_CONTRACT_INVALID" target.artifact
    | some body =>
        match R.ledgerDefect runtime.workspaceUid body with
        | some code => refuse code target.artifact
        | none => .ok ()

/-- `_target_path` -/
def targetPath (runtime : RuntimeAuthority) (target : JournalTarget) : Checked Location :=
  match target.scope with
  | .authority =>
      if isAuthorityArtifact target.artifact then .ok target.location
      else refuse "AUTHORITY_TARGET_INVALID" target.artifact
  | .runtime => do
      validateRuntimeTarget R runtime target
      .ok target.location

/-- `_validate_target_roster` -/
def validateTargetRoster (runtime : RuntimeAuthority) (targets : List JournalTarget) :
    Checked Unit := do
  if targets = [] ∨ targets ≠ sortedTargets targets ∨
      ¬(targets.map JournalTarget.location).Nodup then refuse "TARGET_ROSTER_INVALID"
  else targets.forM fun target ↦ do
    let _ ← targetPath R runtime target
    .ok ()

/-- `_manifest_artifacts` -/
def manifestArtifacts (manifest : Manifest) : Checked (Dict String Digest) :=
  if (manifest.roster.map Prod.fst).Nodup then .ok manifest.roster
  else refuse "MANIFEST_ROSTER_INVALID"

/-- `_validate_manifest_transition` -/
def validateManifestTransition (runtime : RuntimeAuthority) (base proposed : Manifest)
    (targets : List JournalTarget) : Checked Unit := do
  if base.workspaceUid ≠ runtime.workspaceUid then refuse "BASE_WORKSPACE_MISMATCH"
  else if proposed.workspaceUid ≠ runtime.workspaceUid then refuse "PROPOSED_WORKSPACE_MISMATCH"
  else if proposed.generation ≠ base.generation + 1 then refuse "GENERATION_TRANSITION_INVALID"
  else
    let baseArtifacts ← manifestArtifacts base
    let proposedArtifacts ← manifestArtifacts proposed
    let authorityTargets := targets.filter fun target ↦ target.scope = .authority
    let changed := (baseArtifacts.keys ++ proposedArtifacts.keys).filter fun artifact ↦
      baseArtifacts.get artifact ≠ proposedArtifacts.get artifact
    if ¬(changed ⊆ authorityTargets.map JournalTarget.artifact ∧
        authorityTargets.map JournalTarget.artifact ⊆ changed) then
      refuse "MANIFEST_TARGET_ROSTER_MISMATCH"
    else authorityTargets.forM fun target ↦
      if baseArtifacts.get target.artifact ≠ target.expectedDigest then
        refuse "TARGET_BASE_DIGEST_MISMATCH" target.artifact
      else if proposedArtifacts.get target.artifact ≠ target.proposedDigest then
        refuse "TARGET_PROPOSED_DIGEST_MISMATCH" target.artifact
      else .ok ()

/-! ## Checks of a journal -/

/-- `_validate_artifact` -/
def isArtifact (value : String) : Bool :=
  value ≠ "" && value.length ≤ 512 && !value.toList.contains '\\' && value.toList.head? ≠ some '/' &&
    (split '/' value).all fun part ↦ part ≠ "." && part ≠ ".."

/-- `_target_from_dict` -/
def validateTarget (target : JournalTarget) : Checked Unit :=
  if ¬isArtifact target.artifact then refuse "ARTIFACT_INVALID"
  else match target.action with
    | .delete =>
        if target.expectedDigest = none ∨ target.proposedDigest ≠ none ∨ target.proposedBytes ≠ none then
          refuse "DELETE_TARGET_INVALID"
        else .ok ()
    | .replace =>
        match target.proposedDigest, target.proposedBytes with
        | some proposed, some body =>
            if maxTargetBytes < body.length then refuse "TARGET_BYTE_COUNT_INVALID"
            else if R.sha256 body ≠ proposed then refuse "TARGET_CONTENT_MISMATCH"
            else .ok ()
        | _, _ => refuse "PROPOSED_DIGEST_INVALID"

/-- `[A-Za-z0-9._:-]{8,200}` -/
def isOperationId (value : String) : Bool :=
  8 ≤ value.length && value.length ≤ 200 && value.toList.all fun c ↦
    c.isAlphanum || c == '.' || c == '_' || c == ':' || c == '-'

/-- `_timestamp`: every `Z` stands for the UTC offset. -/
def validateTimestamp (value : String) : Checked Unit :=
  match R.fromIsoFormat (String.ofList (value.toList.flatMap fun c ↦
      if c = 'Z' then "+00:00".toList else [c])) with
  | some true => .ok ()
  | _ => refuse "CREATED_AT_INVALID"

/-- `_validated_value` -/
def validateJournal (journal : Journal) : Checked Unit := do
  if ¬isRecordArtifact.isUuidText journal.workspaceUid then refuse "WORKSPACE_UID_INVALID"
  else if ¬isOperationId journal.operationId then refuse "OPERATION_ID_INVALID"
  else
    validateTimestamp R journal.createdAt
    if maxCanonicalInteger < journal.baseGeneration then refuse "BASE_GENERATION_INVALID"
    else if maxCanonicalInteger < journal.proposedGeneration then refuse "PROPOSED_GENERATION_INVALID"
    else if journal.proposedGeneration ≠ journal.baseGeneration + 1 then
      refuse "GENERATION_TRANSITION_INVALID"
    else if journal.targets = [] ∨ maxTargets < journal.targets.length then
      refuse "TARGET_ROSTER_INVALID"
    else
      journal.targets.forM (validateTarget R)
      if journal.targets ≠ sortedTargets journal.targets ∨
          ¬(journal.targets.map JournalTarget.location).Nodup then refuse "TARGET_ROSTER_INVALID"
      else .ok ()

/-- `build_write_journal` of targets that are sorted already. -/
def buildWriteJournal (journal : Journal) : Checked Journal := do
  validateJournal R journal
  if maxJournalBytes < R.journalSize journal then refuse "JOURNAL_BYTE_LIMIT_EXCEEDED"
  else .ok journal

/-- `parse_write_journal` -/
def parseWriteJournal (journal : Journal) : Checked Journal := do
  if maxJournalBytes < R.journalSize journal then refuse "JOURNAL_BYTE_LIMIT_EXCEEDED"
  else
    validateJournal R journal
    .ok journal

/-- `advance_journal_phase` -/
def advanceJournalPhase (journal : Journal) (phase : Phase) : Checked Journal := do
  if phase.index < journal.phase.index then refuse "PHASE_REGRESSION"
  else
    validateJournal R { journal with phase }
    .ok { journal with phase }

/-! ## Manifests of an authority -/

/-- `build_v4_manifest` of what was read, at a generation. -/
def buildManifest (generation : ℕ) (read : AuthorityRead) (roster : List (String × Digest)) :
    Option Manifest :=
  if maxCanonicalInteger < generation then none
  else some ⟨generation, read.workspaceUid, roster, read.core⟩

/-- The digests of the artifacts that were read. -/
def rosterOf (read : AuthorityRead) (files : FileName → Option Bytes) : List (String × Digest) :=
  read.artifacts.filterMap fun artifact ↦
    (files (.artifact artifact)).map fun body ↦ (artifact, R.sha256 body)

/-- The manifest that these files have at a generation. -/
def manifestOf (generation : ℕ) (files : FileName → Option Bytes) : Option Manifest := do
  let read ← R.readV4 files
  buildManifest generation read (rosterOf R read files)

end WorkStack.WriteSession
