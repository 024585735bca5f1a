import WorkStack.Python.Equality
import WorkStack.Service.Domain

/-!
# Planning status

The status of a Task is the status of its last fact in an append-only log. A projection replays the
whole log: every fact names a Task of the backlog, continues the chain of its Task and stands at its
own place, and at the end every Task names the head of its chain.
-/

namespace WorkStack.Service

open Effect.Outcome Python

def taskStatuses : List String := ["open", "started", "done", "dropped"]

def factType : String := "task.planning_status"

def factFields : List String :=
  ["id", "type", "task_id", "task_uid", "previous_fact_id", "prior_revision", "new_revision",
    "prior_status", "status", "created_at", "actor", "provenance"]

/-- `ALLOWED_PROVENANCE` -/
def allowedProvenance : List (String × List String) := [
  ("workstack.migration", ["store.v1", "store.v2"]),
  ("workstack.seed", ["demo.fixture"]),
  ("local.user", ["cli", "api.v1", "api.legacy"]),
  ("workstack.capture", ["api.v1.capture"])]

/-- `PlanningStatusValidationError` -/
def planningError {α : Type} (message : String) : Checked α := .error (.planning message)

/-! ## Writing facts -/

/-- `next_fact_id` -/
def nextFactId (facts : List Json) : String :=
  String.ofList ("PS-".toList ++ zeroPadded 6 (facts.length + 1))

/-- The chain a new fact continues: nothing for a bootstrap. -/
structure Predecessor where
  factId : Json
  revision : Json
  status : Json

/-- The fields of a fact, in the order both writers give them. -/
def planningFact (id : String) (task : Record) (previous : Predecessor) (newRevision status : Json)
    (createdAt actor provenance : String) : Checked Record := do
  let taskId ← field task "id"
  let taskUid ← field task "uid"
  pure [("id", .str id), ("type", .str factType), ("task_id", taskId), ("task_uid", taskUid),
    ("previous_fact_id", previous.factId), ("prior_revision", previous.revision),
    ("new_revision", newRevision), ("prior_status", previous.status), ("status", status),
    ("created_at", .str createdAt), ("actor", .str actor), ("provenance", .str provenance)]

/-- Append a fact and let its Task name it as the head. -/
def appendFact (activity task : Record) (facts : List Json) (fact : Record) : Checked (Record × Record) := do
  let id ← field fact "id"
  pure (activity.set "planning_status" (.arr (facts ++ [.obj fact])), task.set "status_fact_id" id)

/-- `append_bootstrap`: the activity and the Task after it. -/
def appendBootstrap (activity task : Record) (createdAt actor provenance : String) :
    Checked (Record × Record) := do
  let facts ← listAt activity "planning_status"
  let revision ← field task "revision"
  let status ← field task "status"
  let fact ← planningFact (nextFactId facts) task ⟨.null, .null, .null⟩ revision status createdAt actor
    provenance
  appendFact activity task facts fact

/-- `append_transition`: the activity and the Task after it. -/
def appendTransition (activity task : Record) (priorStatus status : String)
    (priorRevision newRevision : ℤ) (createdAt actor provenance : String) : Checked (Record × Record) := do
  let facts ← listAt activity "planning_status"
  let head ← field task "status_fact_id"
  let fact ← planningFact (nextFactId facts) task ⟨head, .int priorRevision, .str priorStatus⟩
    (.int newRevision) (.str status) createdAt actor provenance
  appendFact activity task facts fact

/-! ## Projecting -/

section Projection

variable (I : Interpreter)

/-- `_task_index`: the Tasks by their ids. -/
def taskIndex (backlog : Record) : Checked (Dict String Record) :=
  match backlog.get "tasks" with
  | some (.arr tasks) => indexTasks [] tasks
  | _ => planningError "planning status store shape is invalid"
where
  indexTasks (indexed : Dict String Record) : List Json → Checked (Dict String Record)
    | [] => .ok indexed
    | .obj task :: rest =>
        match Dict.get task "id" with
        | some (.str id) => indexTasks (indexed.set id task) rest
        | _ => planningError "planning status task reference is invalid"
    | _ :: _ => planningError "planning status task reference is invalid"

/-- `^PS-([0-9]{6,})$`, matched in full. -/
def factNumber (id : String) : Option ℕ :=
  match id.toList with
  | 'P' :: 'S' :: '-' :: digits => if 6 ≤ digits.length then number asciiDigit digits else none
  | _ => none

/-- `_validate_fact_envelope` -/
def validateFactEnvelope (candidate : Json) (index : ℕ) : Checked (Record × String) :=
  match candidate with
  | .obj fact =>
      if hasExactly fact factFields then
        match Dict.get fact "id" with
        | some (.str id) =>
            if factNumber id = some index then
              if Json.same (.str factType) (valueAt fact "type") then .ok (fact, id)
              else planningError "planning status fact type is invalid"
            else planningError "planning status fact order is invalid"
        | _ => planningError "planning status fact order is invalid"
      else planningError "planning status fact schema is invalid"
  | _ => planningError "planning status fact schema is invalid"

/-- `_fact_task_and_status` -/
def factTaskAndStatus (fact : Record) (tasks : Dict String Record) : Checked (String × Record × String) :=
  match fact.get "task_id" with
  | some (.str taskId) =>
      match tasks.get taskId with
      | some task =>
          if Json.same (valueAt fact "task_uid") (valueAt task "uid") then
            match fact.get "status" with
            | some (.str status) =>
                if status ∈ taskStatuses then .ok (taskId, task, status)
                else planningError "planning status value is invalid"
            | _ => planningError "planning status value is invalid"
          else planningError "planning status task identity is invalid"
      | none => planningError "planning status task identity is invalid"
  | _ => planningError "planning status task identity is invalid"

/-- Whether the text is `YYYY-MM-DDTHH:MM:SSZ` with ASCII digits. -/
def isUtcSecond (text : String) : Bool := fitsShape Char.isDigit "dddd-dd-ddTdd:dd:ddZ".toList text.toList

/-- `_timestamp` -/
def validateFactTimestamp (value : Json) : Checked Unit :=
  match value with
  | .str text =>
      if isUtcSecond text ∧ (I.parseUtc text).isSome then .ok ()
      else planningError "planning status created_at is invalid"
  | _ => planningError "planning status created_at is invalid"

/-- `_validate_fact_provenance` -/
def validateFactProvenance (fact : Record) : Checked Unit := do
  validateFactTimestamp I (valueAt fact "created_at")
  match valueAt fact "actor", valueAt fact "provenance" with
  | .str actor, .str provenance =>
      if provenance ∈ (allowedProvenance.lookup actor).getD [] then .ok ()
      else planningError "planning status provenance is invalid"
  | _, _ => planningError "planning status provenance is invalid"

/-- `_revision` -/
def factRevision (value : Json) (label : String) : Checked ℤ :=
  match value with
  | .int n => if 0 ≤ n ∧ n ≤ maxRevision then .ok n else planningError (label ++ " is invalid")
  | _ => planningError (label ++ " is invalid")

/-- A fact as the head of its chain. -/
structure Head where
  id : String
  newRevision : ℤ
  status : String
  deriving DecidableEq

/-- `_validate_bootstrap` -/
def validateBootstrap (fact task : Record) (status : String) : Checked ℤ :=
  match valueAt fact "previous_fact_id", valueAt fact "prior_revision", valueAt fact "prior_status" with
  | .null, .null, .null => do
      let newRevision ← factRevision (valueAt fact "new_revision") "bootstrap new_revision"
      if Json.same (.str status) (valueAt task "status") then pure newRevision
      else planningError "planning status baseline does not match source"
  | _, _, _ => planningError "planning status bootstrap is invalid"

/-- `_validate_transition` -/
def validateTransition (fact : Record) (previous : Head) (status : String) : Checked ℤ :=
  if Json.same (.str previous.id) (valueAt fact "previous_fact_id") then do
    let priorRevision ← factRevision (valueAt fact "prior_revision") "prior_revision"
    let newRevision ← factRevision (valueAt fact "new_revision") "new_revision"
    if newRevision ≠ priorRevision + 1 ∨ priorRevision < previous.newRevision ∨
        ¬Json.same (.str previous.status) (valueAt fact "prior_status") ∨ status = previous.status then
      planningError "planning status transition is invalid"
    else pure newRevision
  else planningError "planning status predecessor is invalid"

/-- `_validate_fact_chain` -/
def validateFactChain (fact : Record) (previous : Option Head) (task : Record) (status : String) :
    Checked ℤ := do
  let newRevision ← match previous with
    | none => validateBootstrap fact task status
    | some previous => validateTransition fact previous status
  match ((task.get "revision").getD (.int (-1))).int? with
  | some revision =>
      if revision < newRevision then planningError "planning status fact exceeds task revision"
      else pure newRevision
  | none => fault "TypeError"

/-- One step of the replay: the Task a fact belongs to, and its new head. -/
def validateFact (tasks : Dict String Record) (heads : Dict String Head) (index : ℕ) (candidate : Json) :
    Checked (String × Head) := do
  let (fact, id) ← validateFactEnvelope candidate index
  let (taskId, task, status) ← factTaskAndStatus fact tasks
  validateFactProvenance I fact
  let newRevision ← validateFactChain fact (heads.get taskId) task status
  pure (taskId, ⟨id, newRevision, status⟩)

def replayFacts (tasks : Dict String Record) : ℕ → Dict String Head → List Json → Checked (Dict String Head)
  | _, heads, [] => .ok heads
  | index, heads, candidate :: rest => do
      let (taskId, head) ← validateFact I tasks heads index candidate
      replayFacts tasks (index + 1) (heads.set taskId head) rest

/-- `_project_heads` -/
def projectHeads (heads : Dict String Head) : Dict String Record → Checked (Dict String String)
  | [] => .ok []
  | (taskId, task) :: rest =>
      match heads.get taskId with
      | some head => do
          if Json.same (.str head.id) (valueAt task "status_fact_id") then
            let projection ← projectHeads heads rest
            pure ((taskId, head.status) :: projection)
          else planningError "planning status head is missing or stale"
      | none => planningError "planning status head is missing or stale"

/-- `validate_and_project` -/
def validateAndProject (backlog activity : Record) : Checked (Dict String String) :=
  match activity.get "planning_status" with
  | some (.arr facts) => do
      let tasks ← taskIndex backlog
      let heads ← replayFacts I tasks 1 [] facts
      projectHeads heads tasks
  | _ => planningError "planning status store shape is invalid"

/-- `get_task` -/
def getTask (backlog activity : Record) (taskId : String) : Checked Record := do
  let tasks ← listAt backlog "tasks"
  let (_, task) ← find I tasks taskId "task"
  let projection ← validateAndProject I backlog activity
  match ← field task "id" with
  | .str id =>
      match projection.get id with
      | some status => pure (task.set "status" (.str status))
      | none => fault "KeyError"
  | _ => fault "KeyError"

end Projection

/-! ## A workspace with one Task -/

/-- A second of one morning. -/
def sampleMoment (second : ℕ) (h : second < 60 := by decide) : Moment where
  year := 2026
  month := 9
  day := 1
  hour := 10
  minute := 0
  second := second
  isDate := by decide
  isTime := by omega

def sampleTask : Record := [("id", .str "T-0001"), ("uid", .str "6f1c2b7e-9a54-4d3e-8f10-2b7c5a9d4e61"),
  ("title", .str "Write"), ("status", .str "open"), ("revision", .int 0), ("status_fact_id", .str "PS-000001")]

def sampleFact : Record := [("id", .str "PS-000001"), ("type", .str factType), ("task_id", .str "T-0001"),
  ("task_uid", .str "6f1c2b7e-9a54-4d3e-8f10-2b7c5a9d4e61"), ("previous_fact_id", .null),
  ("prior_revision", .null), ("new_revision", .int 0), ("prior_status", .null), ("status", .str "open"),
  ("created_at", .str "2026-09-01T09:00:00Z"), ("actor", .str "local.user"), ("provenance", .str "cli")]

/-- A workspace with one Task and no work session. -/
def sampleDocuments : Documents where
  workspace := [("version", .int 2), ("id", .str "6f1c2b7e-9a54-4d3e-8f10-2b7c5a9d4e60"), ("name", .str "Work")]
  backlog := [("version", .int 3), ("tasks", .arr [.obj sampleTask])]
  activity := [("version", .int 2), ("activity", .arr []), ("idempotency", .arr []),
    ("planning_status", .arr [.obj sampleFact])]
  okr := [("version", .int 1), ("objectives", .arr [])]
  worklog := [("version", .int 1), ("days", .obj [])]
  notes := [("version", .int 1), ("notes", .arr [])]
  captures := [("version", .int 1), ("captures", .arr [])]
  replies := [("version", .int 1), ("replies", .arr [])]

def sampleClock (m : Moment) : Clock := ⟨fun _ ↦ m, fun _ ↦ "2026-09-01"⟩

example : (validateAndProject asciiInterpreter sampleDocuments.backlog sampleDocuments.activity).toOption =
    some [("T-0001", "open")] := by decide +kernel

end WorkStack.Service
