import Mathlib
import WorkStack.Checkpoints.Projection
import WorkStack.Python.Calendar

/-!
# The facts a task resumes from

The facts of a task are what its latest active checkpoint recorded. They are read from an audit, of which
every field that the selection reads has to be unambiguous, while the entries themselves may be anything. An
entry that cannot be presented stays the latest one, and what a summary leaves out is counted.
-/

open WorkStack.Python WorkStack.Python.Decoding

namespace WorkStack.Checkpoints

/-- The codes of `CheckpointFactsError` that a projection may end in. -/
inductive FactsCode where
  | invalidRequest
  | invalidAudit
  deriving DecidableEq, Repr

/-! ## The request -/

/-- `[0-9a-f]{8}-[0-9a-f]{4}-[1-5][0-9a-f]{3}-[89ab][0-9a-f]{3}-[0-9a-f]{12}` -/
def isWorkspaceUid (value : String) : Bool :=
  fitsShape isLowerHex "dddddddd-dddd-dddd-dddd-dddddddddddd".toList value.toList &&
    (value.toList.drop 14).head?.any (· ∈ "12345".toList) && (value.toList.drop 19).head?.any (· ∈ "89ab".toList)

/-- `validate_checkpoint_request` -/
def validateCheckpointRequest (workspaceUid taskId : String) : Except FactsCode Unit := do
  check (isWorkspaceUid workspaceUid) .invalidRequest
  check (isTaskId taskId) .invalidRequest

/-! ## The summary of an entry -/

/-- `_JS_BLANK` -/
def isJsBlank (c : Char) : Bool :=
  let code := c.toNat
  [0x09, 0x0a, 0x0b, 0x0c, 0x0d, 0x20, 0xa0, 0x1680, 0x2028, 0x2029, 0x202f, 0x205f, 0x3000, 0xfeff].contains code ||
    (0x2000 ≤ code && code < 0x200b)

/-- `_blank` -/
def isBlank (value : String) : Bool := stripText isJsBlank value == ""

/-- `_text_value` -/
def textValue : Json → Option String
  | .str value => if isBlank value then none else some value
  | _ => none

/-- `_text_list` -/
def textList (value : Json) : List String :=
  match textValue value with
  | some single => [single]
  | none =>
      match value with
      | .arr items => items.filterMap textValue
      | _ => []

/-- `_carries_nothing` -/
def carriesNothing : Json → Bool
  | .null => true
  | .str value => isBlank value
  | _ => false

/-- `_fact_field_extras` -/
def factFieldExtras : Json → ℕ
  | .null => 0
  | .str _ => 0
  | .arr items => items.countP fun item ↦ (textValue item).isNone
  | _ => 1

def knownEntryFields : List String := ["task_id", "task", "done", "next", "blockers"]

/-- What one field adds to `_extras_count`. -/
def fieldExtras (field : String × Json) : ℕ :=
  if !knownEntryFields.contains field.1 then 1
  else if ["task_id", "task"].contains field.1 then
    if !carriesNothing field.2 && (textValue field.2).isNone then 1 else 0
  else factFieldExtras field.2

/-- `_extras_count` -/
def extrasCount (source : Fields) : ℕ := (source.map fieldExtras).sum

/-- `_Summary` -/
structure Summary where
  readable : Bool
  taskId : Option String := none
  taskTitle : Option String := none
  done : List String := []
  next : List String := []
  blockers : List String := []
  extras : ℕ := 0
  deriving DecidableEq, Repr

/-- Whether any known field has survived. -/
def Summary.isRecovered (summary : Summary) : Bool :=
  summary.taskId.isSome || summary.taskTitle.isSome || !summary.done.isEmpty || !summary.next.isEmpty ||
    !summary.blockers.isEmpty

/-- `_summarize_entry` -/
def summarizeEntry : Json → Summary
  | .arr items => { readable := false, extras := items.length }
  | .obj fields =>
      let summary : Summary :=
        { readable := true
          taskId := textValue (item fields "task_id")
          taskTitle := textValue (item fields "task")
          done := textList (item fields "done")
          next := textList (item fields "next")
          blockers := textList (item fields "blockers")
          extras := extrasCount fields }
      if summary.isRecovered then summary else { readable := false, extras := summary.extras }
  | _ => { readable := false }

/-! ## The rows of an audit -/

/-- A row of an audit, as far as the selection reads it. -/
structure AuditRow where
  locator : Locator
  checkpointId : Option String
  entry : Json
  origin : Option String
  state : CheckpointState
  revision : ℤ

/-- `_locator` -/
def readRowLocator (value : Json) : Option Locator := do
  let fields ← fieldsOf locatorKeys value
  let uid ← pattern isWorkspaceUid (item fields "workspace_uid")
  let taskId ← optionalPattern true isTaskId (item fields "task_id")
  let date ← calendarDate (item fields "date")
  let ordinal ← intIn 0 maxInteger (item fields "ordinal")
  let entryDigest ← optionalPattern true isEntryDigest (item fields "entry_digest")
  return ⟨uid, taskId, date, ordinal, entryDigest⟩

/-- `_origin` -/
def rowOrigin : Json → Option (Option String)
  | .null => some none
  | .obj recorded =>
      match item recorded "origin" with
      | .null => some none
      | .str origin => some (some origin)
      | _ => none
  | _ => none

/-- `_audit_entry` -/
def readAuditRow : Json → Option AuditRow
  | .obj fields => do
      let state ← readState (item fields "state")
      let locator ← readRowLocator (item fields "locator")
      let checkpointId ← optionalPattern true isCheckpointId (item fields "checkpoint_id")
      let origin ← rowOrigin (item fields "recorded")
      let revision ← intIn 0 maxInteger (item fields "revision")
      return ⟨locator, checkpointId, item fields "entry", origin, state, revision⟩
  | _ => none

/-- `_audit_entries` -/
def auditRows (workspaceUid : String) : Json → Option (List AuditRow)
  | .obj fields =>
      match isText workspaceUid (item fields "workspace_uid"), item fields "entries" with
      | true, .arr entries => readAll readAuditRow entries
      | _, _ => none
  | _ => none

/-! ## The selection -/

inductive Binding where
  | locator | entryPayload
  deriving DecidableEq, Repr

def Binding.name : Binding → String
  | .locator => "locator"
  | .entryPayload => "entry-payload"

/-- `_binding` -/
def binding (row : AuditRow) (taskId : String) : Option Binding :=
  match row.locator.taskId with
  | some locatorTask => if locatorTask = taskId then some .locator else none
  | none => if (summarizeEntry row.entry).taskId = some taskId then some .entryPayload else none

/-- `_is_later` -/
def isLater (candidate incumbent : AuditRow) : Bool :=
  if candidate.locator.date ≠ incumbent.locator.date then decide (incumbent.locator.date < candidate.locator.date)
  else decide (incumbent.locator.ordinal < candidate.locator.ordinal)

/-- `_Records` -/
structure Records where
  latest : Option (AuditRow × Binding) := none
  active : ℕ := 0
  superseded : ℕ := 0

/-- A selected row, or the row that is later than it. -/
def laterOf : Option (AuditRow × Binding) → AuditRow × Binding → AuditRow × Binding
  | none, candidate => candidate
  | some incumbent, candidate => if isLater candidate.1 incumbent.1 then candidate else incumbent

/-- One row of `_collect`. -/
def Records.add (workspaceUid taskId : String) (records : Records) (row : AuditRow) : Records :=
  if row.locator.workspaceUid ≠ workspaceUid then records
  else
    match binding row taskId, row.state with
    | none, _ => records
    | some _, .superseded => { records with superseded := records.superseded + 1 }
    | some bound, .active =>
        { records with active := records.active + 1, latest := some (laterOf records.latest (row, bound)) }

/-- `_collect` -/
def collect (workspaceUid taskId : String) (rows : List AuditRow) : Records :=
  rows.foldl (Records.add workspaceUid taskId) {}

/-! ## The facts -/

inductive FactsStatus where
  | empty | unreadable | incomplete | ready
  deriving DecidableEq, Repr

def FactsStatus.name : FactsStatus → String
  | .empty => "empty"
  | .unreadable => "unreadable"
  | .incomplete => "partial"
  | .ready => "ready"

structure Provenance where
  checkpointId : Option String
  entryDigest : Option String
  date : String
  ordinal : ℤ
  revision : ℤ
  origin : Option String
  binding : Binding
  recordedTaskId : Option String
  recordedTaskTitle : Option String
  deriving DecidableEq, Repr

/-- `_provenance` -/
def provenanceOf (row : AuditRow) (bound : Binding) (summary : Summary) : Provenance where
  checkpointId := row.checkpointId
  entryDigest := row.locator.entryDigest
  date := row.locator.date
  ordinal := row.locator.ordinal
  revision := row.revision
  origin := row.origin
  binding := bound
  recordedTaskId := summary.taskId
  recordedTaskTitle := summary.taskTitle

/-- `_version` -/
def version (status : FactsStatus) (workspaceUid taskId : String) (provenance : Option Provenance) : String :=
  let bound := s!"v1:{status.name}:{workspaceUid}:{taskId}"
  match provenance with
  | none => bound
  | some provenance =>
      let identity := provenance.checkpointId.getD s!"legacy@{provenance.date}#{provenance.ordinal}"
      let digest := provenance.entryDigest.getD "no-digest"
      s!"{bound}:{identity}:{digest}:r{provenance.revision}"

/-- `_reasons` -/
def reasons (summary : Summary) (bound : Binding) (taskId : String) : List String :=
  let disputed := bound = .locator ∧ summary.taskId.isSome ∧ summary.taskId ≠ some taskId
  (if 0 < summary.extras then ["unpresented_values"] else []) ++
    (if disputed then ["recorded_task_mismatch"] else []) ++
      (if summary.readable then [] else ["no_readable_summary"])

/-- The resume snapshot of a task. -/
structure Facts where
  contract : String := "workstack.checkpoint-facts.v1"
  status : FactsStatus
  workspaceUid : String
  taskId : String
  provenance : Option Provenance
  done : List String
  next : List String
  blockers : List String
  reasons : List String
  activeRecordCount : ℕ
  supersededRecordCount : ℕ
  version : String
  deriving DecidableEq, Repr

/-- `_facts` -/
def factsOf (status : FactsStatus) (workspaceUid taskId : String) (records : Records)
    (provenance : Option Provenance) (summary : Summary) (reasons : List String) : Facts where
  status := status
  workspaceUid := workspaceUid
  taskId := taskId
  provenance := provenance
  done := summary.done
  next := summary.next
  blockers := summary.blockers
  reasons := reasons
  activeRecordCount := records.active
  supersededRecordCount := records.superseded
  version := version status workspaceUid taskId provenance

/-- `_select` -/
def select (workspaceUid taskId : String) (records : Records) : Facts :=
  match records.latest with
  | none => factsOf .empty workspaceUid taskId records none { readable := true } []
  | some (row, bound) =>
      let summary := summarizeEntry row.entry
      let provenance := provenanceOf row bound summary
      let reasons := reasons summary bound taskId
      if !summary.readable then
        factsOf .unreadable workspaceUid taskId records (some provenance) { readable := true } reasons
      else
        let status := if "unpresented_values" ∈ reasons ∨ "recorded_task_mismatch" ∈ reasons then .incomplete else .ready
        factsOf status workspaceUid taskId records (some provenance) summary reasons

/-- `project_checkpoint_facts` -/
def projectCheckpointFacts (audit : Json) (workspaceUid taskId : String) : Except FactsCode Facts := do
  validateCheckpointRequest workspaceUid taskId
  let rows ← (auditRows workspaceUid audit).elim (.error .invalidAudit) .ok
  return select workspaceUid taskId (collect workspaceUid taskId rows)

/-! ## The audit of stored documents -/

def Recorded.json (recorded : Recorded) : Json := .obj [
  ("type", .str recordedType),
  ("workspace_uid", .str recorded.workspaceUid),
  ("task_id", .str recorded.taskId),
  ("checkpoint_id", .str recorded.checkpointId),
  ("date", .str recorded.date),
  ("ordinal", .int recorded.ordinal),
  ("entry_digest", .str recorded.entryDigest),
  ("origin", optionalText recorded.origin)]

def Reason.json (reason : Reason) : Json := .obj [("code", .str reason.code), ("explanation", .str reason.explanation)]

def TransitionEvent.json (event : TransitionEvent) : Json := .obj [
  ("type", .str (transitionType event.state)),
  ("workspace_uid", .str event.workspaceUid),
  ("task_id", .str event.taskId),
  ("checkpoint_id", .str event.checkpointId),
  ("date", .str event.date),
  ("ordinal", .int event.ordinal),
  ("entry_digest", .str event.entryDigest),
  ("state", .str event.state.name),
  ("revision", .int event.revision),
  ("reason", event.reason.json),
  ("origin", optionalText event.origin)]

def Locator.json (locator : Locator) : Json :=
  locatorJson (.str locator.workspaceUid) (optionalText locator.taskId) (.str locator.date) (.int locator.ordinal)
    (optionalText locator.entryDigest)

/-- An entry of the audit as a document. -/
def AuditEntry.json (entry : AuditEntry PhysicalRow) : Json := .obj [
  ("locator", entry.locator.json),
  ("checkpoint_id", optionalText entry.checkpointId),
  ("entry", entry.entry.entry),
  ("recorded", (entry.recorded.map Recorded.json).getD .null),
  ("state", .str entry.state.name),
  ("revision", .int entry.revision),
  ("transitions", .arr (entry.transitions.map TransitionEvent.json))]

/-- The audit that `build_audit_view` returns, as a document. -/
def auditJson (workspaceUid : String) (entries : List (AuditEntry PhysicalRow)) : Json := .obj [
  ("workspace_uid", .str workspaceUid),
  ("entries", .arr (entries.map AuditEntry.json))]

end WorkStack.Checkpoints
