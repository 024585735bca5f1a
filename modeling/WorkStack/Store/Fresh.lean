import WorkStack.Python.Sha256
import WorkStack.Store.Writes

/-!
# A fresh store

The documents and the manifest of an untouched store, for any workspace id, and one concrete choice
of the parameters: SHA-256, a decoder of the values in play and the admission of auxiliary shapes.
-/

namespace WorkStack.Store

def freshDocs (workspaceId : String) : Docs := fun name ↦
  some (defaultFor workspaceId name).serializedJsonBytes

def freshManifest (R : StoreRules) (workspaceId : String) : Manifest where
  version := 1
  workspaceId
  storeSchemaVersion := storeSchemaVersion
  generation := 1
  files := hashesOf R (freshDocs workspaceId)
  tasks := []

def freshDisk (R : StoreRules) (workspaceId : String) : Disk where
  docs := freshDocs workspaceId
  journal := none
  manifest := some (freshManifest R workspaceId)
  receipt := none

theorem validateStoreManifest_of_full {manifest : Manifest} (hversion : manifest.version = 1)
    (hschema : manifest.storeSchemaVersion = storeSchemaVersion)
    (hid : isCanonicalUuid manifest.workspaceId) (hfiles : ∀ name, (manifest.files name).isSome)
    (htasks : validateStoreManifestTasks manifest.tasks = .ok ()) :
    validateStoreManifest manifest = .ok () := by
  have hroster : versionRoster manifest.storeSchemaVersion = some
      [.knowledge, .reports, .storeMeta, .workspace, .backlog, .okr, .worklog, .notes, .captures,
        .replies, .activity] := by
    rw [hschema]
    rfl
  have hheader : validateStoreManifestHeader manifest = .ok
      [.knowledge, .reports, .storeMeta, .workspace, .backlog, .okr, .worklog, .notes, .captures,
        .replies, .activity] := by
    simp [validateStoreManifestHeader, hversion, hroster, hid]
  have hall : validateStoreManifestFiles manifest.files
      [.knowledge, .reports, .storeMeta, .workspace, .backlog, .okr, .worklog, .notes, .captures,
        .replies, .activity] = .ok () := by
    rw [validateStoreManifestFiles, if_pos]
    intro name
    simp only [hfiles name, true_iff]
    cases name <;> decide
  rw [validateStoreManifest, hheader]
  exact (congrArg (· >>= fun _ ↦ validateStoreManifestTasks manifest.tasks) hall).trans htasks

theorem freshDocs_complete (workspaceId : String) : Complete (freshDocs workspaceId) :=
  fun name ↦ ⟨(defaultFor workspaceId name).serializedJsonBytes, rfl⟩

theorem freshManifest_valid (R : StoreRules) {workspaceId : String}
    (hid : isCanonicalUuid workspaceId) : validateStoreManifest (freshManifest R workspaceId) = .ok () :=
  validateStoreManifest_of_full rfl rfl hid (fun _ ↦ rfl) rfl

theorem tasksOf_freshDocs {R : StoreRules} {workspaceId : String}
    (hloads : R.loads (defaultFor workspaceId .backlog).serializedJsonBytes =
      some (defaultFor workspaceId .backlog)) : tasksOf R (freshDocs workspaceId) = .ok [] := by
  simp only [tasksOf, jsonOf, freshDocs, hloads]
  rfl

/-- An untouched store is in sync. -/
theorem freshDisk_inSync {R : StoreRules} {workspaceId : String} (hid : isCanonicalUuid workspaceId)
    (hloads : R.loads (defaultFor workspaceId .backlog).serializedJsonBytes =
      some (defaultFor workspaceId .backlog)) : InSync R (freshDisk R workspaceId) := by
  refine ⟨rfl, freshManifest R workspaceId, rfl, freshManifest_valid R hid,
    freshDocs_complete workspaceId, rfl, [], ?_, rfl⟩
  exact tasksOf_freshDocs hloads

/-! ## Concrete parameters -/

def auxiliaryNames : List DocName := [.okr, .worklog, .notes, .captures, .replies]

/-- The admission of documents by the shapes of their default payloads. -/
def admitShapes (values : DocName → Json) : Except String Admission :=
  match auxiliaryNames.findSome? fun name ↦
      auxiliaryStoreDefect name.fileName (values name) (defaultFor "" name) with
  | some defect => .error defect
  | none =>
      match (values .workspace).get? "id", (values .backlog).get? "tasks" with
      | some (.str workspaceUid), some (.arr tasks) => .ok ⟨workspaceUid, tasks.length, "fresh"⟩
      | _, _ => .error "workspace identity schema is invalid"

/-- SHA-256, a decoder that knows these values, and the admission of shapes. -/
def referenceRules (known : List Json) : StoreRules where
  sha256 := Python.Sha256.digest
  loads body := known.find? fun value ↦ value.serializedJsonBytes = body
  fromIsoFormat stamp := some (stamp.toList.drop 19 = "+00:00".toList)
  validateDocumentValues := admitShapes

theorem referenceRules_loads_head (value : Json) (known : List Json) :
    (referenceRules (value :: known)).loads value.serializedJsonBytes = some value := by
  simp [referenceRules]

def sampleWorkspaceId : String := "6f1c2b7e-9a54-4d3e-8f10-2b7c5a9d4e61"

theorem sampleWorkspaceId_canonical : isCanonicalUuid sampleWorkspaceId := by decide

/-- The sample store decodes its own default payloads and the further values given. -/
def sampleRules (further : List Json) : StoreRules :=
  referenceRules (defaultFor sampleWorkspaceId .backlog ::
    (DocName.defaults.map (defaultFor sampleWorkspaceId) ++ further))

def sampleDisk (further : List Json) : Disk := freshDisk (sampleRules further) sampleWorkspaceId

theorem sampleDisk_inSync (further : List Json) :
    InSync (sampleRules further) (sampleDisk further) :=
  freshDisk_inSync sampleWorkspaceId_canonical (referenceRules_loads_head _ _)

/-- A save of the sample store that leaves its backlog alone can be replayed. -/
theorem sampleDisk_replayable (further : List Json) {writes : Writes} (operationId createdAt : String)
    (hnodup : writes.names.Nodup)
    (hobjects : ∀ write ∈ writes, write.2.isObject) (hne : writes ≠ [])
    (hbacklog : .backlog ∉ writes.names)
    (hid : 1 ≤ operationId.length ∧ operationId.length ≤ 200)
    (htime : validateRecoveryTimestamp (sampleRules further) createdAt = .ok ()) {disk : Disk}
    (hmanifest : disk.manifest = (sampleDisk further).manifest) :
    Replayable (sampleRules further) (preparedJournal (sampleRules further) writes operationId createdAt)
      writes (writes.bodies (sampleDisk further).docs) disk where
  admitted := validateJournal_prepared_ok hnodup hobjects hne hid htime
  baseline manifest h := by
    rw [hmanifest] at h
    cases h
    exact freshManifest_valid _ sampleWorkspaceId_canonical
  tasks := by
    refine ⟨[], ?_, rfl⟩
    exact (tasksOf_congr (Writes.bodies_of_not_mem hbacklog)).trans
      (tasksOf_freshDocs (referenceRules_loads_head _ _))

end WorkStack.Store
