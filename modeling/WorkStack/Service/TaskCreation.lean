import WorkStack.Service.DisplayIds
import WorkStack.Service.Idempotency
import WorkStack.Service.TaskRules

/-!
# Creating Tasks

A new Task is validated, given the next display id and appended to the backlog together with the
planning fact that opens it. The command line and the browser reach the same rules from their own
request shapes.
-/

namespace WorkStack.Service

open Effect.Outcome Python

/-- The result of a command, and the documents it saved, if it saved any. -/
structure Performed where
  result : Json
  saved : Option Documents

section Creation

variable (P : Platform)

/-- The fields a Task is created from. -/
structure NewTask where
  title : String
  detail : String := ""
  priority : String := "P2"
  due : Option String := none
  tags : List String := []
  objectiveIds : List String := []
  parentId : Option String := none
  dependencies : List String := []
  scheduled : Option String := none
  estimateMinutes : Option ℤ := none

/-- `value or None` -/
def textOrNone : Option String → Json
  | none => .null
  | some text => if text = "" then .null else .str text

/-- A date that is given must be read by `date.fromisoformat`. -/
def requireDate : Option String → Checked Unit
  | none => .ok ()
  | some text =>
      if text = "" ∨ P.readsDate text then .ok () else valueError "Invalid isoformat string"

/-- `_validate_new_task_schedule` -/
def validateNewTaskSchedule (task : NewTask) : Checked Unit := do
  if task.priority ∈ priorities then pure ()
  else valueError "priority must be one of P0, P1, P2, P3"
  requireDate P task.due
  requireDate P task.scheduled
  match task.estimateMinutes with
  | none => pure ()
  | some minutes =>
      if 1 ≤ minutes ∧ minutes ≤ 1440 then pure ()
      else valueError "estimate_minutes must be null or an integer from 1 to 1440"

/-- The ids of the Tasks there are, `{item["id"] for item in tasks}`. -/
def knownIds : List Json → Checked (List Json)
  | [] => .ok []
  | candidate :: rest => do
      let record ← asRecord candidate
      let id ← field record "id"
      if hashable id then do
        let ids ← knownIds rest
        pure (id :: ids)
      else fault "TypeError"

/-- `", ".join(texts)` -/
def commaJoined (texts : List String) : String := ", ".intercalate texts

/-- `_normalize_new_task_relationships` -/
def normalizeNewTaskRelationships (tasks : List Json) (parentId : Option String)
    (dependencies : List String) : Checked (Option String × List String) := do
  let known ← knownIds tasks
  let parent := match parentId with
    | none => none
    | some parent => if parent = "" then none else some (P.upper (P.strip parent))
  let dependencies := upperSet P.toInterpreter dependencies
  let referenced := sortedSet ((parent.toList.filter (· ≠ "")) ++ dependencies)
  let unknown := referenced.filter fun id ↦ ¬known.any (Json.same (.str id))
  if unknown ≠ [] then valueError ("unknown task ids: " ++ commaJoined unknown)
  else pure (parent, dependencies)

/-- `_task_uid` -/
def taskUid (workspaceId : Json) (taskId : String) : Checked String :=
  match workspaceId with
  | .str text =>
      match P.uuid text with
      | some parsed => .ok (P.uuid5 parsed taskId)
      | none => valueError "badly formed hexadecimal UUID string"
  | _ => fault "AttributeError"

def estimateJson : Option ℤ → Json
  | none => .null
  | some minutes => .int minutes

/-- `_new_task_record` -/
def newTaskRecord (clock : Clock) (taskId : String) (workspaceId : Json) (task : NewTask)
    (parent : Option String) (dependencies : List String) : Checked Record := do
  let uid ← taskUid P workspaceId taskId
  let title ← requiredText P.toInterpreter task.title "title"
  pure [("id", .str taskId), ("uid", .str uid), ("title", .str title),
    ("detail", .str (P.strip task.detail)), ("status", .str "open"), ("priority", .str task.priority),
    ("due", textOrNone task.due), ("scheduled", textOrNone task.scheduled),
    ("estimate_minutes", estimateJson task.estimateMinutes),
    ("tags", textsJson (strippedSet P.toInterpreter task.tags)),
    ("objective_ids", textsJson (upperSet P.toInterpreter task.objectiveIds)),
    ("parent_id", parentJson parent), ("dependencies", textsJson dependencies), ("subtasks", .arr []),
    ("notes", .arr []), ("created", .str (clock.today 0)), ("updated_at", .str (clock.today 1)),
    ("revision", .int 0)]

/-- What `list_objectives` asks of an Objective: a revision in range and texts to sort it by. -/
def listedObjectiveId (candidate : Json) : Checked Json := do
  let objective ← asRecord candidate
  match (objective.get "revision").getD (.int 0) with
  | .int value =>
      if 0 ≤ value ∧ value ≤ maxRevision then
        match (objective.get "quarter").getD (.str ""), (objective.get "id").getD (.str "") with
        | .str _, .str _ => field objective "id"
        | _, _ => fault "TypeError"
      else corrupt "persisted objective revision is invalid"
  | _ => corrupt "persisted objective revision is invalid"

/-- `_append_task`: the Task, and the workspace document that gave it its id. -/
def appendTask (documents : Documents) (clock : Clock) (tasks : List Json) (task : NewTask) :
    Checked (Record × Record) := do
  validateNewTaskSchedule P task
  let (parent, dependencies) ← normalizeNewTaskRelationships P tasks task.parentId task.dependencies
  let (taskId, workspace) ← nextTaskDisplay documents.workspace tasks
  let workspaceId ← field documents.workspace "id"
  let record ← newTaskRecord P clock taskId workspaceId task parent dependencies
  let objectives ← listAt documents.okr "objectives"
  let known ← objectives.mapM listedObjectiveId
  let unknown := (upperSet P.toInterpreter task.objectiveIds).filter fun id ↦
    ¬known.any (Json.same (.str id))
  if unknown ≠ [] then valueError ("unknown objective ids: " ++ commaJoined unknown)
  else pure (record, workspace)

/-- `_project_task` with a planning status that is already known. -/
def projectTask (task : Record) (planningStatus : String) (contextCount : ℕ := 0) : Checked Record := do
  match valueAt task "uid" with
  | .str uid =>
      if P.isCanonicalUuid uid then do
        let revision ← revision task
        let projected := (((task.set "uid" (.str uid)).set "revision" (.int revision)).set "status"
          (.str planningStatus)).erase "status_fact_id"
        let projected := projected.set "scheduled" (valueAt projected "scheduled")
        let projected := projected.set "estimate_minutes" (valueAt projected "estimate_minutes")
        pure (projected.set "context_count" (.int contextCount))
      else corrupt "persisted task UUID is invalid"
  | _ => corrupt "persisted task UUID is invalid"

/-- The Tasks of a backlog, `backlog["tasks"]`. -/
def tasksOf (backlog : Record) : Checked (List Json) := do
  let tasks ← field backlog "tasks"
  asList tasks

/-- The documents with a new Task, its opening fact and its display id. -/
def withNewTask (documents : Documents) (tasks : List Json) (task activity workspace : Record) :
    Documents :=
  { documents with
    backlog := documents.backlog.set "tasks" (.arr (tasks ++ [.obj task])), activity, workspace }

/-- `add_task`, which leaves the schedule and the estimate open. -/
def addTask (documents : Documents) (clock : Clock) (task : NewTask) : Checked Performed := do
  let tasks ← tasksOf documents.backlog
  let (record, workspace) ← appendTask P documents clock tasks
    { task with scheduled := none, estimateMinutes := none }
  let (activity, record) ← appendBootstrap documents.activity record (clock.now 0).utcNow "local.user" "cli"
  pure ⟨.obj record, some (withNewTask documents tasks record activity workspace)⟩

/-! ## The browser's request -/

/-- A refusal that names the field of the request. -/
def fieldError {α : Type} (message name : String) : Checked α := domainError message [("field", .str name)]

/-- `_task_create_date` -/
def taskCreateDate (body : Record) (name : String) : Checked (Option String) :=
  match valueAt body name with
  | .null => .ok none
  | .str text =>
      if isIsoDate text then .ok (some text) else fieldError (name ++ " must be null or YYYY-MM-DD") name
  | _ => fieldError (name ++ " must be null or YYYY-MM-DD") name

/-- `_task_create_estimate` -/
def taskCreateEstimate (body : Record) : Checked (Option ℤ) :=
  match valueAt body "estimate_minutes" with
  | .null => .ok none
  | .int minutes =>
      if 1 ≤ minutes ∧ minutes ≤ 1440 then .ok (some minutes)
      else fieldError "estimate_minutes must be null or an integer from 1 to 1440" "estimate_minutes"
  | _ => fieldError "estimate_minutes must be null or an integer from 1 to 1440" "estimate_minutes"

/-- The texts of `_task_create_string_list`, before they are normalized. -/
def taskCreateTexts (body : Record) (name : String) : Checked (List String) :=
  match (body.get name).getD (.arr []) with
  | .arr items =>
      textsOf (.domain "invalid_request" (name ++ " must be an array of strings") [("field", .str name)]) items
  | _ => fieldError (name ++ " must be an array of strings") name

/-- `_task_create_text_fields` -/
def taskCreateTextFields (body : Record) : Checked (String × String × String) := do
  match valueAt body "title" with
  | .str title =>
      if P.strip title = "" then fieldError "title must be a non-empty string" "title"
      else
        match (body.get "detail").getD (.str "") with
        | .str detail =>
            match (body.get "priority").getD (.str "P2") with
            | .str priority =>
                if priority ∈ priorities then pure (P.strip title, P.strip detail, priority)
                else fieldError "priority must be one of P0, P1, P2, P3" "priority"
            | _ => fieldError "priority must be one of P0, P1, P2, P3" "priority"
        | _ => fieldError "detail must be a string" "detail"
  | _ => fieldError "title must be a non-empty string" "title"

/-- `_validate_task_create_v1` -/
def validateTaskCreate (body : Json) : Checked NewTask :=
  match body with
  | .obj body => do
      let unknown := unknownFields body taskCreateFields
      if unknown ≠ [] then
        domainError "task create has unknown fields" [("fields", textsJson unknown)]
      else do
        let (title, detail, priority) ← taskCreateTextFields P body
        let due ← taskCreateDate body "due"
        let scheduled ← taskCreateDate body "scheduled"
        let estimateMinutes ← taskCreateEstimate body
        let tags ← taskCreateTexts body "tags"
        let objectiveIds ← taskCreateTexts body "objective_ids"
        pure { title, detail, priority, due, scheduled, estimateMinutes,
               tags := strippedSet P.toInterpreter tags,
               objectiveIds := upperSet P.toInterpreter objectiveIds }
  | _ => domainError "request body must be a JSON object"

/-- The canonical payload, which the request digest is taken over. -/
def NewTask.toJson (task : NewTask) : Json :=
  .obj [("title", .str task.title), ("detail", .str task.detail), ("priority", .str task.priority),
    ("due", optionJson task.due), ("scheduled", optionJson task.scheduled),
    ("estimate_minutes", estimateJson task.estimateMinutes), ("tags", textsJson task.tags),
    ("objective_ids", textsJson task.objectiveIds)]
where
  optionJson : Option String → Json
    | none => .null
    | some text => .str text

/-- A response that was not replayed. -/
def freshResponse (data : Record) : Record :=
  [("data", .obj data), ("meta", .obj [("replayed", .bool false)])]

/-- `create_task_v1` -/
def createTask (documents : Documents) (clock : Clock) (body : Json) (key : String)
    (path : String := "/api/v1/tasks") : Checked Served := do
  validateIdempotencyKey key
  let canonical ← validateTaskCreate P body
  let intent : Intent := ⟨key, "POST", path, P.canonicalDigest canonical.toJson⟩
  keyed P.toInterpreter documents intent do
    let tasks ← tasksOf documents.backlog
    let (record, workspace) ← appendTask P documents clock tasks canonical
    let (activity, record) ← appendBootstrap documents.activity record (clock.now 0).utcNow "local.user"
      "api.v1"
    let data ← projectTask P record "open"
    let activity ← recordIdempotency activity intent 201 (clock.now 1).utcNow (.frozen (freshResponse data))
    pure ⟨⟨201, freshResponse data⟩, some (withNewTask documents tasks record activity workspace)⟩

end Creation

end WorkStack.Service
