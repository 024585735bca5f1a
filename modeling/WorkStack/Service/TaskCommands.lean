import WorkStack.Service.Notices
import WorkStack.Service.TaskCreation

/-!
# Commands on Tasks

A command finds its Task, guards its revision, changes the Task and its planning facts and saves the
documents once. A status is changed by appending a fact to the planning log and a notice to the events;
the stored field of the Task stays what it was.
-/

namespace WorkStack.Service

open Effect.Outcome Python

section Commands

variable (P : Platform)

/-- `_workspace_uid` of a store that is ready. -/
def workspaceUid (documents : Documents) : Checked String :=
  match documents.workspace.get "id" with
  | some (.str uid) => .ok uid
  | _ => domainError "the workspace is not ready"

/-- The id of a Task, which keys the projection. -/
def taskIdOf (task : Record) : Checked String := do
  match ← field task "id" with
  | .str id => pure id
  | _ => fault "TypeError"

/-- `validate_and_project(backlog, activity)[task["id"]]` -/
def projectedStatus (backlog activity : Record) (id : String) : Checked String := do
  let projection ← validateAndProject P.toInterpreter backlog activity
  match projection.get id with
  | some status => pure status
  | none => fault "KeyError"

/-- The documents with a Task in place of the one with this index. -/
def withTask (documents : Documents) (tasks : List Json) (index : ℕ) (task activity : Record) : Documents :=
  { documents with
    backlog := documents.backlog.set "tasks" (.arr (tasks.set index (.obj task))), activity }

/-- `task["updated_at"] = day`, `task["revision"] = revision` -/
def touched (task : Record) (day : String) (revision : ℤ) : Record :=
  (task.set "updated_at" (.str day)).set "revision" (.int revision)

/-- The notice key of a change without a key of its own, `_status_notice_key`. -/
def statusNoticeKey (task : Record) (revision : ℤ) : Checked String := do
  let uid ← field task "uid"
  pure (unkeyedStatusKey (P.str uid) revision)

/-- Append the fact and the notice of a change of a status: the activity and the Task after it. -/
def changeStatus (documents : Documents) (activity task : Record) (provenance : String)
    (change : StatusChange) (factAt noticeAt : String) : Checked (Record × Record) := do
  let (activity, task) ← appendTransition activity task change.before change.after change.beforeRevision
    change.afterRevision factAt "local.user" provenance
  let uid ← workspaceUid documents
  let activity ← recordStatusNotice P activity task uid change noticeAt
  pure (activity, task)

/-- The status a patch asks for, where it is another one. -/
def requestedChange (requested : Option Json) (current : String) : Option String :=
  match requested with
  | some (.str status) => if status = current then none else some status
  | _ => none

/-- The part of `patch_task` that appends a planning fact, if the status is to change. -/
def patchStatus (documents : Documents) (clock : Clock) (task : Record) (requested : Option String)
    (current : String) (revision next : ℤ) (origin : Option String) : Checked (Record × Record) :=
  match requested with
  | none => .ok (documents.activity, task)
  | some status => do
      let key ← statusNoticeKey P task revision
      changeStatus P documents documents.activity task "api.v1"
        ⟨current, status, revision, next, key, noticeSourceForOrigin origin⟩ (clock.now 0).utcNow
        (clock.now 1).utcNow

/-- What a value says about the thing an event is about. -/
def subjectId (value : Json) : Option Json := if truthy value then some value else none

/-- `patch_task` -/
def patchTask (documents : Documents) (clock : Clock) (taskId : String) (patch : Json)
    (origin : Option String) : Checked Performed :=
  match patch with
  | .obj patch => do
      let unknown := unknownFields patch taskPatchFields
      if unknown ≠ [] then domainError "unknown task fields" [("fields", textsJson unknown)]
      else do
        let expected ← patchRevision patch
        let tasks ← listAt documents.backlog "tasks"
        let (index, task) ← find P.toInterpreter tasks taskId "task"
        let current ← revision task
        if expected ≠ current then .error (staleRevision current (.int expected))
        else do
          let indexed ← recordsById [] tasks
          let objectiveRecords ← listAt documents.okr "objectives"
          let objectives ← objectiveRecordsById objectiveRecords
          let id ← taskIdOf task
          let (changes, requested) ← patchChangeSet P.toInterpreter patch id indexed objectives
          let changes ← applyTaskOutcomeWriteInvariant P.toInterpreter objectives changes task
          let status ← projectedStatus P documents.backlog documents.activity id
          let changed := patchChangedFields changes requested status
          if changed = [] then do
            let projected ← projectTask P task status
            pure ⟨.obj projected, none⟩
          else do
            let next ← nextRevision task
            let wanted := requestedChange requested status
            let (activity, updated) ← patchStatus P documents clock (Dict.update changes task) wanted
              status current next origin
            let updated := touched updated (clock.today 0) next
            let activity ← recordEvent P.toInterpreter activity "task.updated"
              { taskId := subjectId (valueAt updated "id") } [("fields", textsJson changed)]
              (clock.now 2).utcNow
            let projected ← projectTask P updated (wanted.getD status)
            pure ⟨.obj projected, some (withTask documents tasks index updated activity)⟩
  | _ => domainError "task patch must be an object"
where
  patchRevision (patch : Record) : Checked ℤ :=
    match valueAt patch "revision" with
    | .int expected =>
        if 0 ≤ expected then .ok expected
        else domainError "revision is required and must be a non-negative integer"
    | _ => domainError "revision is required and must be a non-negative integer"

/-- The revision a status change expects; none is the current one. -/
def expectedRevision (current : ℤ) : Json → Checked ℤ
  | .null => .ok current
  | .int expected =>
      if 0 ≤ expected then .ok expected
      else domainError "revision is required and must be a non-negative integer"
  | _ => domainError "revision is required and must be a non-negative integer"

/-- `set_task_status` -/
def setTaskStatus (documents : Documents) (clock : Clock) (taskId status : String) (expected : Json)
    (provenance : String := "cli") : Checked Performed :=
  if status ∉ taskStatuses then valueError "invalid task status"
  else if provenance ∉ ["cli", "api.legacy"] then valueError "invalid planning status provenance"
  else do
    let tasks ← tasksOf documents.backlog
    let (index, task) ← find P.toInterpreter tasks taskId "task"
    let current ← revision task
    let expected ← expectedRevision current expected
    if expected ≠ current then .error (staleRevision current (.int expected))
    else do
      let id ← taskIdOf task
      let before ← projectedStatus P documents.backlog documents.activity id
      if status = before then do
        let projected ← projectTask P task before
        pure ⟨.obj projected, none⟩
      else do
        let next ← nextRevision task
        let key ← statusNoticeKey P task current
        let (activity, updated) ← changeStatus P documents documents.activity task provenance
          ⟨before, status, current, next, key, if provenance = "cli" then "cli" else "gui"⟩
          (clock.now 0).utcNow (clock.now 1).utcNow
        let updated := touched updated (clock.today 0) next
        let projected ← projectTask P updated status
        pure ⟨.obj projected, some (withTask documents tasks index updated activity)⟩

/-- `_raw_request_digest` -/
def rawRequestDigest (body : Json) (supplied : Option Store.Digest) : Checked Store.Digest :=
  match supplied with
  | some digest =>
      if digest = P.canonicalDigest body then .ok digest
      else domainError "the request digest does not match the request body"
  | none => .ok (P.canonicalDigest body)

/-- What `_validate_keyed_intent_request` admits: the status and the revision of the body. -/
def keyedIntentRequest (key : String) (body : Json) : Checked (String × ℤ) := do
  validateIdempotencyKey key
  match body with
  | .obj fields =>
      if hasExactly fields ["status", "revision"] then
        match valueAt fields "status" with
        | .str status =>
            if status ∈ taskStatuses then
              match valueAt fields "revision" with
              | .int expected =>
                  if 0 ≤ expected then pure (status, expected)
                  else fieldError "revision is required and must be a non-negative integer" "revision"
              | _ => fieldError "revision is required and must be a non-negative integer" "revision"
            else fieldError "invalid task status" "status"
        | _ => fieldError "invalid task status" "status"
      else domainError "a keyed task status intent requires exactly status and revision"
  | _ => domainError "a keyed task status intent requires exactly status and revision"

/-- `set_task_status_v1` -/
def setTaskStatusKeyed (documents : Documents) (clock : Clock) (taskId : String) (body : Json)
    (key path : String) (requestDigest : Option Store.Digest) : Checked Served := do
  let (status, expected) ← keyedIntentRequest key body
  let digest ← rawRequestDigest P body requestDigest
  let intent : Intent := ⟨key, "PATCH", path, digest⟩
  keyed P.toInterpreter documents intent do
    let tasks ← tasksOf documents.backlog
    let (index, task) ← find P.toInterpreter tasks taskId "task"
    let current ← revision task
    if expected ≠ current then .error (staleRevision current (.int expected))
    else do
      let id ← taskIdOf task
      let before ← projectedStatus P documents.backlog documents.activity id
      if status = before then do
        let projected ← projectTask P task before
        let activity ← recordIdempotency documents.activity intent 200 (clock.now 0).utcNow
          (.frozen (freshResponse projected))
        pure ⟨⟨200, freshResponse projected⟩, some { documents with activity }⟩
      else do
        let next ← nextRevision task
        let (activity, updated) ← changeStatus P documents documents.activity task "cli"
          ⟨before, status, current, next, key, "gui"⟩ (clock.now 0).utcNow (clock.now 1).utcNow
        let updated := touched updated (clock.today 0) next
        let projected ← projectTask P updated status
        let activity ← recordIdempotency activity intent 200 (clock.now 2).utcNow
          (.frozen (freshResponse projected))
        pure ⟨⟨200, freshResponse projected⟩, some (withTask documents tasks index updated activity)⟩

/-! ## Undoing a change of a status -/

/-- `_undo_revision` -/
def undoRevision (body : Json) : Checked ℤ :=
  match body with
  | .obj fields =>
      if hasExactly fields ["revision"] then
        match valueAt fields "revision" with
        | .int revision =>
            if 0 ≤ revision then .ok revision
            else receiptError "invalid_request" "revision is required and must be a non-negative integer"
              [("field", .str "revision")]
        | _ => receiptError "invalid_request" "revision is required and must be a non-negative integer"
              [("field", .str "revision")]
      else receiptError "invalid_request" "undo requires exactly revision"
  | _ => receiptError "invalid_request" "undo requires exactly revision"

/-- `_canonical_notice_id` -/
def canonicalNoticeId (noticeId : String) : Checked String :=
  if P.isRfc4122Uuid noticeId then .ok noticeId
  else receiptError "invalid_request" "mutation notice id is invalid"

/-- `_required_notice` -/
def requiredNotice (documents : Documents) (noticeId : String) : Checked Record := do
  match ← findNotice P documents.activity (.str noticeId) with
  | some notice => do
      let uid ← workspaceUid documents
      if Json.same (.str uid) (valueAt notice "workspace_uid") then pure notice
      else receiptError "not_found" "mutation notice not found"
  | none => receiptError "not_found" "mutation notice not found"

/-- `_task_for_notice` -/
def taskForNotice (entityUid : Json) : ℕ → List Json → Checked (ℕ × Record)
  | _, [] => receiptError "not_found" "task not found"
  | index, .obj task :: rest =>
      if Json.same (valueAt task "uid") entityUid then .ok (index, task)
      else taskForNotice entityUid (index + 1) rest
  | index, _ :: rest => taskForNotice entityUid (index + 1) rest

/-- `_compensation_for` -/
def compensationFor (documents : Documents) (notice task : Record) (current : ℤ) : Checked Record := do
  let uid ← workspaceUid documents
  let entityUid ← field task "uid"
  match buildCompensation P (.obj notice) (.str uid) entityUid (.int current) with
  | .ok compensation => pure compensation
  | .error code =>
      if code = "revision_mismatch" then
        receiptError "revision_conflict" "task revision is stale"
          [("expected", valueAt notice "after_revision"), ("received", .int current)]
      else receiptError "invalid_request" "mutation notice is not undoable"

/-- `_next_revision` of the notices -/
def nextNoticeRevision (task : Record) : Checked ℤ := do
  let current ← revision task
  if maxRevision ≤ current then receiptError "revision_exhausted" else pure (current + 1)

/-- `_apply_compensation`: the activity and the Task after it, and the status. -/
def applyCompensation (documents : Documents) (clock : Clock) (task compensation : Record) (current : ℤ) :
    Checked (Record × Record × String) := do
  let id ← taskIdOf task
  let before ← projectedStatus P documents.backlog documents.activity id
  let requested := P.str (valueAt compensation "requested_status")
  if requested = before then receiptError "invalid_request" "mutation notice is not undoable"
  else do
    let next ← nextNoticeRevision task
    let (activity, updated) ← changeStatus P documents documents.activity task "api.v1"
      ⟨before, requested, current, next, P.str (valueAt compensation "idempotency_key"), "gui"⟩
      (clock.now 0).utcNow (clock.now 1).utcNow
    pure (activity, touched updated (clock.today 0) next, requested)

/-- `undo_mutation_notice` -/
def undoMutationNotice (documents : Documents) (clock : Clock) (noticeId : String) (body : Json)
    (key path : String) (requestDigest : Option Store.Digest) : Checked Served := do
  validateIdempotencyKey key
  let expected ← undoRevision body
  let canonicalId ← canonicalNoticeId P noticeId
  let digest ← rawRequestDigest P body requestDigest
  let intent : Intent := ⟨key, "POST", path, digest⟩
  keyed P.toInterpreter documents intent do
    let notice ← requiredNotice P documents canonicalId
    let tasks ← listOrEmpty (valueAt documents.backlog "tasks")
    let (index, task) ← taskForNotice (valueAt notice "entity_uid") 0 tasks
    let current ← revision task
    if expected ≠ current then
      receiptError "revision_conflict" "task revision is stale"
        [("expected", .int current), ("received", .int expected)]
    else do
      let compensation ← compensationFor P documents notice task current
      let (activity, updated, status) ← applyCompensation P documents clock task compensation current
      let projected ← projectTask P updated status
      let response : Record := [("data", .obj projected),
        ("meta", .obj [("replayed", .bool false), ("undone_notice_id", .str canonicalId)])]
      let activity ← recordIdempotency activity intent 200 (clock.now 2).utcNow (.frozen response)
      pure ⟨⟨200, response⟩, some (withTask documents tasks index updated activity)⟩

end Commands

end WorkStack.Service
