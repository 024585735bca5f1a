import Mathlib
import WorkStack.Effect.Outcome
import WorkStack.Json

/-!
# The document roster and the committed manifest

The store keeps eleven documents. A manifest is the baseline every later judgement is made against:
which roster a generation carried, the digests of the bytes it committed, and the Task revisions
those bytes meant. The admission rules decide from a value alone and open nothing.
-/

open WorkStack.Effect.Outcome

namespace WorkStack.Store

/-! ## The roster -/

inductive DocName where
  | workspace | backlog | storeMeta | okr | worklog | notes | captures | replies | activity
  | reports | knowledge
  deriving DecidableEq, Repr

namespace DocName

def fileName : DocName → String
  | workspace => "workspace.json"
  | backlog => "backlog.json"
  | storeMeta => "store-meta.json"
  | okr => "okr.json"
  | worklog => "worklog.json"
  | notes => "notes.json"
  | captures => "captures.json"
  | replies => "replies.json"
  | activity => "activity.json"
  | reports => "reports.json"
  | knowledge => "knowledge.json"

/-- The names in the order of `DEFAULTS`. -/
def defaults : List DocName :=
  [workspace, backlog, storeMeta, okr, worklog, notes, captures, replies, activity, reports,
    knowledge]

/-- `sorted(DEFAULTS)`: the order of the file names. -/
def sortedDefaults : List DocName :=
  [activity, backlog, captures, knowledge, notes, okr, replies, reports, storeMeta, worklog,
    workspace]

def ofFileName (text : String) : Option DocName := defaults.find? fun name ↦ name.fileName = text

@[simp] theorem mem_defaults (name : DocName) : name ∈ defaults := by
  cases name <;> decide

instance : Fintype DocName := ⟨⟨defaults, by decide⟩, mem_defaults⟩

@[simp] theorem mem_sortedDefaults (name : DocName) : name ∈ sortedDefaults := by
  cases name <;> decide

@[simp] theorem ofFileName_fileName (name : DocName) : ofFileName name.fileName = some name := by
  cases name <;> decide

end DocName

/-- `sorted(name for name in names)` for a duplicate-free collection of documents. -/
def sortedNames (names : List DocName) : List DocName :=
  DocName.sortedDefaults.filter fun name ↦ name ∈ names

@[simp] theorem mem_sortedNames {names : List DocName} {name : DocName} :
    name ∈ sortedNames names ↔ name ∈ names := by
  simp [sortedNames]

def storeSchemaVersion : ℤ := 6

/-- `_default_for`: what an untouched document holds, for a workspace with this id. -/
def defaultFor (workspaceId : String) : DocName → Json
  | .workspace => .obj [("version", .int 2), ("id", .str workspaceId), ("name", .str "Work Stack")]
  | .backlog => .obj [("version", .int 3), ("tasks", .arr [])]
  | .storeMeta => .obj [("version", .int 2), ("store_schema_version", .int storeSchemaVersion),
      ("migrations", .obj [
        ("identity", freshMigration "workstack.store.v2"),
        ("planning_status", freshMigration "workstack.planning-status.v1"),
        ("reports", freshMigration "workstack.reports.v5"),
        ("knowledge", freshMigration "workstack.knowledge.v6")])]
  | .okr => .obj [("version", .int 1), ("objectives", .arr [])]
  | .worklog => .obj [("version", .int 1), ("days", .obj [])]
  | .notes => .obj [("version", .int 1), ("notes", .arr [])]
  | .captures => .obj [("version", .int 1), ("captures", .arr [])]
  | .replies => .obj [("version", .int 1), ("replies", .arr [])]
  | .activity => .obj [("version", .int 2), ("activity", .arr []), ("idempotency", .arr []),
      ("planning_status", .arr [])]
  | .reports => .obj [("version", .int 1), ("reports", .arr []), ("idempotency", .arr [])]
  | .knowledge => .obj [("version", .int 1), ("policy_revision", .int 0), ("connections", .arr []),
      ("requests", .arr [])]
where
  freshMigration (id : String) : Json :=
    .obj [("id", .str id), ("origin", .str "fresh"), ("source_sha256", .null)]

def fieldNames : Json → List String
  | .obj fields => fields.map Prod.fst
  | _ => []

/-- `auxiliary_store_defect`: how a document departs from the shape of its default payload. -/
def auxiliaryStoreDefect (name : String) (value expected : Json) : Option String :=
  if ¬((fieldNames value).all (· ∈ fieldNames expected) ∧
      (fieldNames expected).all (· ∈ fieldNames value)) ∨
      (value.get? "version").bind Json.int? ≠ (expected.get? "version").bind Json.int? then
    some (name ++ " schema is invalid")
  else (fieldNames expected).findSome? fun key ↦
    match expected.get? key, value.get? key with
    | some (.arr _), some (.arr _) => none
    | some (.arr _), _ => some (name ++ "." ++ key ++ " must be an array")
    | some (.obj _), some (.obj _) => none
    | some (.obj _), _ => some (name ++ "." ++ key ++ " must be an object")
    | _, _ => none

/-- The documents each supported collection version carries. -/
def versionRoster (version : ℤ) : Option (List DocName) :=
  let v1 : List DocName :=
    [.workspace, .backlog, .okr, .worklog, .notes, .captures, .replies, .activity]
  if version = 1 then some v1
  else if version = 2 ∨ version = 3 then some (.storeMeta :: v1)
  else if version = 5 then some (.reports :: .storeMeta :: v1)
  else if version = 6 then some (.knowledge :: .reports :: .storeMeta :: v1)
  else none

/-! ## Digests and identifiers -/

def isLowerHex (c : Char) : Bool := ('0' ≤ c && c ≤ '9') || ('a' ≤ c && c ≤ 'f')

/-- A digest text `sha256:` with 64 lower case hexadecimal digits. -/
structure Digest where
  hex : String
  wellFormed : hex.length = 64 ∧ hex.toList.all isLowerHex
  deriving DecidableEq

namespace Digest

def text (digest : Digest) : String := "sha256:" ++ digest.hex

def toJson (digest : Digest) : Json := .str digest.text

end Digest

def maxRevision : ℕ := 9007199254740991

/-- `_canonical_uuid`: the lower case canonical text of an RFC 4122 UUID. -/
def isCanonicalUuid (value : String) : Bool :=
  let text := value.toList
  text.length == 36 &&
    (text.zipIdx.all fun (c, index) ↦
      if index = 8 ∨ index = 13 ∨ index = 18 ∨ index = 23 then c == '-' else isLowerHex c) &&
    (match text[19]? with
      | some c => c == '8' || c == '9' || c == 'a' || c == 'b'
      | none => false)

/-- `T-[0-9]{4,}` -/
def isTaskId (value : String) : Bool :=
  match value.toList with
  | 'T' :: '-' :: digits => 4 ≤ digits.length && digits.all Char.isDigit
  | _ => false

/-- `[A-Za-z0-9._:-]{8,128}` -/
def isAdoptionKey (value : String) : Bool :=
  8 ≤ value.length && value.length ≤ 128 && value.toList.all fun c ↦
    c.isAlphanum || c == '.' || c == '_' || c == ':' || c == '-'

/-! ## The manifest -/

/-- What a manifest remembers of one Task. -/
structure TaskBaseline where
  revision : ℕ
  digest : Digest
  deriving DecidableEq

namespace TaskBaseline

def toJson (task : TaskBaseline) : Json :=
  .obj [("revision", .int task.revision), ("digest", task.digest.toJson)]

end TaskBaseline

/-- A mapping from Task ids, in insertion order. -/
abbrev Tasks := List (String × TaskBaseline)

namespace Tasks

/-- `tasks[task_id] = baseline` -/
def insert (tasks : Tasks) (taskId : String) (baseline : TaskBaseline) : Tasks :=
  if tasks.any fun entry ↦ entry.1 = taskId then
    tasks.map fun entry ↦ if entry.1 = taskId then (taskId, baseline) else entry
  else tasks ++ [(taskId, baseline)]

/-- Equality of dictionaries, which ignores the order of insertion. -/
def same (left right : Tasks) : Bool :=
  left.length = right.length && left.all fun entry ↦ right.lookup entry.1 = some entry.2

def toJson (tasks : Tasks) : Json := .obj (tasks.map fun entry ↦ (entry.1, entry.2.toJson))

end Tasks

/-- The digests of the documents that are there. -/
abbrev Files := DocName → Option Digest

namespace Files

def toJson (files : Files) : Json :=
  .obj (DocName.sortedDefaults.filterMap fun name ↦
    (files name).map fun digest ↦ (name.fileName, digest.toJson))

end Files

structure Manifest where
  version : ℤ
  workspaceId : String
  storeSchemaVersion : ℤ
  generation : ℕ
  files : Files
  tasks : Tasks

namespace Manifest

def toJson (manifest : Manifest) : Json :=
  .obj [("version", .int manifest.version), ("workspace_id", .str manifest.workspaceId),
    ("store_schema_version", .int manifest.storeSchemaVersion),
    ("generation", .int manifest.generation), ("files", manifest.files.toJson),
    ("tasks", manifest.tasks.toJson)]

end Manifest

/-- The part of a manifest a candidate digest is taken over. -/
structure Candidate where
  workspaceId : String
  storeSchemaVersion : ℤ
  generation : ℕ
  files : Files
  tasks : Tasks

namespace Candidate

def toJson (candidate : Candidate) : Json :=
  .obj [("workspace_id", .str candidate.workspaceId),
    ("store_schema_version", .int candidate.storeSchemaVersion),
    ("generation", .int candidate.generation), ("files", candidate.files.toJson),
    ("tasks", candidate.tasks.toJson)]

end Candidate

/-! ## Refusals -/

inductive SyncState where
  | inSync | externalChangeDetected | externalChangeInvalid
  deriving DecidableEq, Repr

namespace SyncState

def text : SyncState → String
  | inSync => "in-sync"
  | externalChangeDetected => "external-change-detected"
  | externalChangeInvalid => "external-change-invalid"

end SyncState

/-- The report of one synchronization inspection. -/
structure SyncStatus where
  status : SyncState
  writesAllowed : Bool
  workspaceId : String
  candidateWorkspaceId : String
  storeSchemaVersion : ℤ
  generation : ℕ
  manifestDigest : Digest
  files : Files
  changedFiles : List DocName
  validationError : Option String
  candidateDigest : Option Digest

inductive StoreError where
  | corrupt (message : String)
  | fileNotFound (path : String)
  | externalChange (status : SyncStatus)
  | adoptionConflict (message : String)
  | value (message : String)

/-! ## Admission of a manifest -/

def validateStoreManifestHeader (manifest : Manifest) : Except String (List DocName) :=
  if manifest.version ≠ 1 then .error "store manifest schema is invalid"
  else match versionRoster manifest.storeSchemaVersion with
    | none => .error "store manifest schema version is invalid"
    | some roster =>
        if isCanonicalUuid manifest.workspaceId then .ok roster
        else .error "store_manifest.workspace_id must be a canonical UUID string"

def validateStoreManifestFiles (files : Files) (roster : List DocName) : Except String Unit :=
  if ∀ name, (files name).isSome ↔ name ∈ roster then .ok ()
  else .error "store manifest file roster is invalid"

def validateStoreManifestTasks (tasks : Tasks) : Except String Unit :=
  if tasks.all fun entry ↦ isTaskId entry.1 && entry.2.revision ≤ maxRevision then .ok ()
  else .error "store manifest task baseline is invalid"

def validateStoreManifest (manifest : Manifest) : Except String Unit := do
  let roster ← validateStoreManifestHeader manifest
  validateStoreManifestFiles manifest.files roster
  validateStoreManifestTasks manifest.tasks

theorem eq_storeSchemaVersion_of_knowledge_mem {version : ℤ} {roster : List DocName}
    (h : versionRoster version = some roster) (hmem : .knowledge ∈ roster) :
    version = storeSchemaVersion := by
  unfold versionRoster at h
  split_ifs at h with h1 h2 h5 h6
  · cases h
    simp at hmem
  · cases h
    simp at hmem
  · cases h
    simp at hmem
  · exact h6

theorem validateStoreManifestHeader_roster {manifest : Manifest} {roster : List DocName}
    (h : validateStoreManifestHeader manifest = .ok roster) :
    versionRoster manifest.storeSchemaVersion = some roster := by
  unfold validateStoreManifestHeader at h
  cases hroster : versionRoster manifest.storeSchemaVersion with
  | none =>
      rw [hroster] at h
      split_ifs at h
  | some known =>
      rw [hroster] at h
      split_ifs at h
      cases h
      rfl

/-- A manifest that names every document is one of the current version. -/
theorem storeSchemaVersion_of_full {manifest : Manifest}
    (hvalid : validateStoreManifest manifest = .ok ()) (hfull : ∀ name, (manifest.files name).isSome) :
    manifest.storeSchemaVersion = storeSchemaVersion := by
  obtain ⟨roster, hheader, hrest⟩ := bind_eq_ok.mp hvalid
  obtain ⟨⟨⟩, hfiles, -⟩ := bind_eq_ok.mp hrest
  have hmem : .knowledge ∈ roster := (guard_eq_ok.mp hfiles .knowledge).mp (hfull .knowledge)
  exact eq_storeSchemaVersion_of_knowledge_mem (validateStoreManifestHeader_roster hheader) hmem

/-! ## The task baseline of a backlog -/

def storedRevision (value : Option Json) (label : String) : Except String ℕ :=
  match value with
  | some (.int revision) =>
      if 0 ≤ revision ∧ revision ≤ maxRevision then .ok revision.toNat
      else .error (label ++ " must be an integer between 0 and 9007199254740991")
  | _ => .error (label ++ " must be an integer between 0 and 9007199254740991")

def taskSemanticsEntry (sha256 : Bytes → Digest) (task : Json) :
    Except String (String × TaskBaseline) :=
  match task.get? "id" with
  | some (.str taskId) => do
      let revision ← storedRevision (task.get? "revision") (taskId ++ ".revision")
      .ok (taskId, ⟨revision, sha256 task.compactJson⟩)
  | _ => .error "backlog task semantic baseline is invalid"

/-- `_task_semantics`: the revision and digest of every Task of a backlog. -/
def taskSemantics (sha256 : Bytes → Digest) (backlog : Json) : Except String Tasks :=
  match backlog.get? "tasks" with
  | some (.arr tasks) => tasks.foldlM (fun result task ↦ do
      let (taskId, baseline) ← taskSemanticsEntry sha256 task
      pure (result.insert taskId baseline)) []
  | _ => .error "backlog.tasks must be an array"

/-- `_validate_candidate_tasks`: a candidate keeps every Task and only moves revisions forward. -/
def validateCandidateTasks (baselineTasks candidateTasks : Tasks) : Except String Unit :=
  if baselineTasks.any fun entry ↦ (candidateTasks.lookup entry.1).isNone then
    .error "external candidate removes existing Tasks"
  else candidateTasks.forM fun entry ↦
    match baselineTasks.lookup entry.1 with
    | none =>
        if entry.2.revision ≠ 0 then
          .error "external candidate new Task revision is invalid"
        else .ok ()
    | some baseline =>
        if entry.2.digest ≠ baseline.digest ∧ entry.2.revision ≤ baseline.revision then
          .error "external candidate Task revision did not advance"
        else .ok ()

end WorkStack.Store
