import WorkStack.Python.Equality
import WorkStack.Python.Platform
import WorkStack.Service.PlanningStatus

/-!
# The plan of a deletion

Deleting a Task for good begins with a plan: an inventory of the operations that every document owes,
taken from a snapshot and written nowhere. A reference the planner does not know how to clean, or a
container it does not recognize, refuses the whole deletion.
-/

namespace WorkStack.Deletion

open Effect.Outcome Python Service

/-- `TaskDeletionPlanError`, under the name the transaction gives it. -/
def planRefusal (code : String) : ServiceError :=
  .domain (if code = "revision_mismatch" then "revision_conflict" else code)
    (if code = "revision_mismatch" then "revision_conflict" else code) []

def planError {α : Type} (code : String) : Checked α := .error (planRefusal code)

def malformed {α : Type} : Checked α := planError "malformed_reference_container"

/-! ## Operations -/

inductive Operation where
  | removeTaskRecord (displayId uid : String)
  | removeTaskOwnedNote (index : ℕ) (taskDisplayId : String)
  | rewriteTaskField (field remove subjectDisplayId : String)
  | rewriteNoteLinks (noteId remove : String)
  | removeReply (replyId : String)
  | removeWorklogEntry (index : ℕ) (workDate : String)
  | removeWorkSession (sessionId workDate : String)
  | unlinkCaptureField (captureId field remove : String)
  | unlinkCaptureAction (actionId captureId : String)
  | removeActivityEvent (eventId : String)
  | removePlanningEvent (factId : String)
  | contentFreeIdempotency (key : String)
  deriving DecidableEq

namespace Operation

def toJson : Operation → Json
  | removeTaskRecord displayId uid =>
      .obj [("display_id", .str displayId), ("op", .str "remove_task_record"), ("uid", .str uid)]
  | removeTaskOwnedNote index taskDisplayId =>
      .obj [("index", .int index), ("op", .str "remove_task_owned_note"), ("source", .str "task.notes"),
        ("task_display_id", .str taskDisplayId)]
  | rewriteTaskField name remove subject =>
      .obj [("field", .str name), ("op", .str "rewrite_task_field"), ("remove", .str remove),
        ("subject_display_id", .str subject)]
  | rewriteNoteLinks noteId remove =>
      .obj [("note_id", .str noteId), ("op", .str "rewrite_note_links"), ("remove", .str remove)]
  | removeReply replyId => .obj [("op", .str "remove_reply"), ("reply_id", .str replyId)]
  | removeWorklogEntry index workDate =>
      .obj [("index", .int index), ("op", .str "remove_worklog_entry"), ("work_date", .str workDate)]
  | removeWorkSession sessionId workDate =>
      .obj [("op", .str "remove_work_session"), ("session_id", .str sessionId), ("work_date", .str workDate)]
  | unlinkCaptureField captureId name remove =>
      .obj [("capture_id", .str captureId), ("field", .str name), ("op", .str "unlink_capture_field"),
        ("remove", .str remove)]
  | unlinkCaptureAction actionId captureId =>
      .obj [("action_id", .str actionId), ("capture_id", .str captureId), ("op", .str "unlink_capture_action")]
  | removeActivityEvent eventId => .obj [("event_id", .str eventId), ("op", .str "remove_activity_event")]
  | removePlanningEvent factId => .obj [("fact_id", .str factId), ("op", .str "remove_planning_event")]
  | contentFreeIdempotency key => .obj [("key", .str key), ("op", .str "content_free_idempotency")]

end Operation

/-- `sort_ops`, by the canonical text of the operations. -/
def sortOps (operations : List Operation) : List Operation :=
  operations.insertionSort fun first second ↦ Json.compactText first.toJson ≤ Json.compactText second.toJson

/-- `TaskDeletionPlan` of the third layout. -/
structure Plan where
  targetDisplayId : String
  targetUid : String
  expectedRevision : ℤ
  displayIdHighWater : ℕ
  operations : List Operation

/-! ## Coercions -/

/-- `as_mapping` -/
def asMapping : Json → Checked Record
  | .obj fields => .ok fields
  | _ => malformed

/-- `as_sequence` -/
def asSequence : Json → Checked (List Json)
  | .arr items => .ok items
  | _ => malformed

/-- `as_sequence(record.get(name, []))` -/
def sequenceAt (record : Record) (name : String) : Checked (List Json) :=
  asSequence ((record.get name).getD (.arr []))

/-- The texts of a list all of whose entries are texts. -/
def idTexts : List Json → Checked (List String)
  | [] => .ok []
  | .str text :: rest => do
      let texts ← idTexts rest
      pure (text :: texts)
  | _ :: _ => malformed

/-- `require_id_list` -/
def requireIdList (value : Json) : Checked (List String) := do
  let items ← asSequence value
  idTexts items

/-- `string_field` -/
def stringField (record : Record) (name : String) : Checked String :=
  match record.get name with
  | some (.str text) => if text = "" then malformed else .ok text
  | _ => malformed

/-- The operations that the records of a list owe. -/
def collect (owed : Json → Checked (List Operation)) : List Json → Checked (List Operation)
  | [] => .ok []
  | item :: rest => do
      let first ← owed item
      let others ← collect owed rest
      pure (first ++ others)

/-! ## Display ids and references -/

/-- `ALLOWED_TASK_REF_KEYS` -/
def allowedTaskRefKeys : List String :=
  ["id", "uid", "display_id", "parent_id", "parent_uid", "dependencies", "dependency_uids", "references",
    "reference_uids", "task_id", "task_uid", "task_display_id", "linked_task_ids", "linked_task_uids",
    "converted_task_ids", "converted_task_uids", "task_hints", "links", "record_uid", "event_uid",
    "capture_uid", "reply_uid", "note_uid", "workspace_uid", "previous_event_uid"]

/-- `KNOWN_NON_REFERENCE_BODY_KEYS` -/
def bodyKeys : List String :=
  ["title", "detail", "text", "body", "summary", "context", "task", "task_title", "done", "next", "blockers",
    "name", "objective", "display_title"]

section References

variable (I : Interpreter)

/-- `^T-\d{4,}$` with letters of either case, matched in full. -/
def isDisplayId (text : String) : Bool :=
  match I.matchStart ['T', '-'] text.toList with
  | some digits => decide (4 ≤ digits.length) && digits.all fun c ↦ (I.digit c).isSome
  | none => false

/-- `is_task_display_id` -/
def isTaskDisplayId : Json → Bool
  | .str text => isDisplayId I text
  | _ => false

/-- `display_matches`; `normalize_display` is the normal form of a text. -/
def displayMatches (wanted : String) : Json → Bool
  | .str text => decide (I.normal text = wanted)
  | _ => false

/-- `any_display` -/
def anyDisplay (values : List String) (wanted : String) : Bool :=
  values.any fun value ↦ decide (I.normal value = wanted)

/-- `_holds_display_ids` -/
def holdsDisplayIds : Json → Bool
  | .arr items => items.any (isTaskDisplayId I)
  | value => isTaskDisplayId I value

/-- `_is_prose_value` -/
def isProseValue : Json → Bool
  | .null => true
  | .str _ => true
  | .arr items => items.all fun
      | .str _ => true
      | _ => false
  | _ => false

/-- `_string_is_exact_token` -/
def isExactToken (tokens : List String) (text : String) : Bool :=
  decide (text ∈ tokens) || (isDisplayId I text && decide (I.normal text ∈ tokens))

/-- `_direct_holds_token` -/
def directHoldsToken (tokens : List String) : Json → Bool
  | .str text => isExactToken I tokens text
  | .arr items => items.any fun
      | .str text => isExactToken I tokens text
      | _ => false
  | _ => false

mutual

/-- `contains_exact_token` -/
def containsExactToken (tokens : List String) : Json → Bool
  | .str text => isExactToken I tokens text
  | .arr items => anyContainsToken tokens items
  | .obj fields => anyFieldContainsToken tokens fields
  | _ => false

def anyContainsToken (tokens : List String) : List Json → Bool
  | [] => false
  | item :: rest => containsExactToken tokens item || anyContainsToken tokens rest

def anyFieldContainsToken (tokens : List String) : List (String × Json) → Bool
  | [] => false
  | entry :: rest => fieldContainsToken tokens entry || anyFieldContainsToken tokens rest

def fieldContainsToken (tokens : List String) : String × Json → Bool
  | (name, value) => isExactToken I tokens name || containsExactToken tokens value

end

end References

/-! ## Scanning for references nobody cleans -/

section Scanning

variable (holds : Json → Bool)

mutual

/-- Whether a value holds something under a name that is no known reference. -/
def holdsUnknown : Json → Bool
  | .arr items => anyHoldsUnknown items
  | .obj fields => anyFieldHoldsUnknown fields
  | _ => false

def anyHoldsUnknown : List Json → Bool
  | [] => false
  | item :: rest => holdsUnknown item || anyHoldsUnknown rest

def anyFieldHoldsUnknown : List (String × Json) → Bool
  | [] => false
  | entry :: rest => fieldHoldsUnknown entry || anyFieldHoldsUnknown rest

def fieldHoldsUnknown : String × Json → Bool
  | (name, value) =>
      if name ∈ bodyKeys ∧ isProseValue value then false
      else (decide (name ∉ allowedTaskRefKeys ∧ name ∉ bodyKeys) && holds value) || holdsUnknown value

end

end Scanning

/-- The values of the documents a deletion plans over, `store-meta.json` among them. -/
def snapshotValues (documents : Documents) (storeMeta : Record) : List Json :=
  [.obj documents.workspace, .obj documents.backlog, .obj storeMeta, .obj documents.okr, .obj documents.worklog,
    .obj documents.notes, .obj documents.captures, .obj documents.replies, .obj documents.activity]

/-- `scan_unknown_task_refs` and `scan_unknown_target_identity`, by what they look for. -/
def scanUnknown (holds : Json → Bool) (documents : Documents) (storeMeta : Record) : Checked Unit :=
  if anyHoldsUnknown holds (snapshotValues documents storeMeta) then planError "unknown_unsafe_reference"
  else .ok ()

/-! ## Collecting -/

section Collecting

variable (I : Interpreter)

/-- `require_display_id` -/
def requireDisplayId (value : Json) : Checked String :=
  match value with
  | .str text => if isDisplayId I text then .ok (I.normal text) else malformed
  | _ => malformed

/-- `index_tasks`: the Task with the wanted id, and all ids. -/
def indexTasks (wanted : String) :
    List String → List String → Option Record → List Json → Checked (Option Record × List String)
  | ids, _, target, [] => .ok (target, ids.reverse)
  | ids, uids, target, candidate :: rest => do
      let record ← asMapping candidate
      let display ← requireDisplayId I (valueAt record "id")
      let uid ← stringField record "uid"
      if display ∈ ids ∨ uid ∈ uids then planError "duplicate_identity"
      else indexTasks wanted (display :: ids) (uid :: uids) (if display = wanted then some record else target) rest

/-- `require_target_revision`: the target and its uid. -/
def requireTargetRevision (target : Option Record) (expected : ℤ) : Checked (Record × String) :=
  match target with
  | none => planError "not_found"
  | some target =>
      match target.get "revision" with
      | some (.int revision) =>
          if revision = expected then do
            let uid ← stringField target "uid"
            pure (target, uid)
          else planError "revision_mismatch"
      | _ => planError "revision_mismatch"

/-- `high_water` of ids in their normal form. -/
def highWater (ids : List String) : ℕ := (ids.filterMap fun id ↦ plainNumber (I.normal id)).foldl max 0
where
  plainNumber (id : String) : Option ℕ :=
    match id.toList with
    | 'T' :: '-' :: digits => number I.digit digits
    | _ => none

/-- `owned_note_ops` -/
def ownedNoteOps (target : Record) (wanted : String) : Checked (List Operation) := do
  let notes ← sequenceAt target "notes"
  pure ((List.range notes.length).map fun index ↦ .removeTaskOwnedNote index wanted)

/-- The operation for a list field of a record, if the list names the Task. -/
def listFieldOps (record : Record) (wanted name : String) (operation : Operation) :
    Checked (List Operation) :=
  match record.get name with
  | none => .ok []
  | some value => do
      let values ← requireIdList value
      pure (if anyDisplay I values wanted then [operation] else [])

/-- The part of `task_reference_ops` for the parent. -/
def parentOps (record : Record) (display wanted : String) : Checked (List Operation) :=
  match valueAt record "parent_id" with
  | .null => .ok []
  | .str parent =>
      if I.normal parent = wanted then .ok [.rewriteTaskField "parent_id" wanted display] else .ok []
  | _ => malformed

/-- `_inbound_list_ops` -/
def inboundListOps (record : Record) (display wanted : String) : Checked (List Operation) := do
  let dependencies ← listFieldOps I record wanted "dependencies" (.rewriteTaskField "dependencies" wanted display)
  let references ← listFieldOps I record wanted "references" (.rewriteTaskField "references" wanted display)
  pure (dependencies ++ references)

/-- `task_reference_ops` of one Task. The lists of the target are only looked through. -/
def taskReferenceOps (wanted : String) (candidate : Json) : Checked (List Operation) := do
  let record ← asMapping candidate
  let id ← field record "id"
  let display := I.normal (I.str id)
  if display = wanted then do
    let _ ← inboundListOps I record display wanted
    pure []
  else do
    let parent ← parentOps I record display wanted
    let lists ← inboundListOps I record display wanted
    pure (parent ++ lists)

/-- `note_link_ops` of one note -/
def noteLinkOps (wanted : String) (candidate : Json) : Checked (List Operation) := do
  let record ← asMapping candidate
  let noteId ← stringField record "id"
  listFieldOps I record wanted "links" (.rewriteNoteLinks noteId wanted)

/-- The operation that a record about the Task owes, `operation` of its id. -/
def ownedRecordOps (wanted : String) (operation : String → Operation) (candidate : Json) :
    Checked (List Operation) := do
  let record ← asMapping candidate
  if displayMatches I wanted (valueAt record "task_id") then do
    let id ← stringField record "id"
    pure [operation id]
  else pure []

/-- `reply_ops` of one reply; its id is read in any case. -/
def replyOps (wanted : String) (candidate : Json) : Checked (List Operation) := do
  let record ← asMapping candidate
  let replyId ← stringField record "id"
  pure (if displayMatches I wanted (valueAt record "task_id") then [.removeReply replyId] else [])

/-- The indices of the entries that are about the Task. -/
def entryIndices (wanted : String) : ℕ → List Json → Checked (List ℕ)
  | _, [] => .ok []
  | index, candidate :: rest => do
      let record ← asMapping candidate
      let indices ← entryIndices wanted (index + 1) rest
      pure (if displayMatches I wanted (valueAt record "task_id") then index :: indices else indices)

/-- `_worklog_day_ops` -/
def worklogDayOps (wanted : String) (workDate : String) (day : Json) : Checked (List Operation) := do
  let day ← asMapping day
  let entries ← sequenceAt day "entries"
  let indices ← entryIndices I wanted 0 entries
  let sessions ← sequenceAt day "sessions"
  let removed ← collect (ownedRecordOps I wanted fun id ↦ .removeWorkSession id workDate) sessions
  pure (indices.map (fun index ↦ .removeWorklogEntry index workDate) ++ removed)

/-- The days of a worklog, in the order of their dates. -/
def worklogDays (worklog : Record) : Checked Record :=
  match (worklog.get "days").getD (.obj []) with
  | .null => .ok []
  | .obj days => .ok (Json.sortFields days)
  | _ => malformed

/-- `worklog_ops` -/
def worklogOps (wanted : String) (worklog : Record) : Checked (List Operation) := do
  let days ← worklogDays worklog
  daysOps days
where
  daysOps : Record → Checked (List Operation)
    | [] => .ok []
    | (workDate, day) :: rest => do
        let first ← worklogDayOps I wanted workDate day
        let others ← daysOps rest
        pure (first ++ others)

/-- `_capture_field_ops` -/
def captureFieldOps (record : Record) (captureId wanted : String) : Checked (List Operation) := do
  let linked ← listFieldOps I record wanted "linked_task_ids"
    (.unlinkCaptureField captureId "linked_task_ids" wanted)
  let converted ← listFieldOps I record wanted "converted_task_ids"
    (.unlinkCaptureField captureId "converted_task_ids" wanted)
  let hinted ← listFieldOps I record wanted "task_hints" (.unlinkCaptureField captureId "task_hints" wanted)
  pure (linked ++ converted ++ hinted)

/-- `_capture_action_ops` -/
def captureActionOps (record : Record) (captureId wanted : String) : Checked (List Operation) :=
  match valueAt record "normalized" with
  | .obj normalized => do
      let actions ← sequenceAt normalized "action_items"
      collect (ownedRecordOps I wanted fun id ↦ .unlinkCaptureAction id captureId) actions
  | _ => .ok []

/-- `capture_ops` of one capture -/
def captureOps (wanted : String) (candidate : Json) : Checked (List Operation) := do
  let record ← asMapping candidate
  let captureId ← stringField record "id"
  let fields ← captureFieldOps I record captureId wanted
  let actions ← captureActionOps I record captureId wanted
  pure (fields ++ actions)

/-- `idempotency_ops` of one ledger record -/
def idempotencyOps (tokens : List String) (candidate : Json) : Checked (List Operation) := do
  let record ← asMapping candidate
  if containsExactToken I tokens (.obj record) then do
    let key ← stringField record "key"
    pure [.contentFreeIdempotency key]
  else pure []

/-- The ids of the replies a plan removes. -/
def replyIds (operations : List Operation) : List String :=
  operations.filterMap fun
    | .removeReply replyId => some replyId
    | _ => none

/-- `token_set` -/
def tokenSet (texts : List String) : List String := texts.filter (· ≠ "")

/-- `plan_v3_task_deletion` -/
def planTaskDeletion (documents : Documents) (storeMeta : Record) (taskId : String) (expected : ℤ) :
    Checked Plan := do
  scanUnknown (holdsDisplayIds I) documents storeMeta
  let wanted ← requireDisplayId I (.str taskId)
  let tasks ← sequenceAt documents.backlog "tasks"
  let (target, ids) ← indexTasks I wanted [] [] none tasks
  let (target, uid) ← requireTargetRevision target expected
  scanUnknown (directHoldsToken I [wanted, uid]) documents storeMeta
  let ownedNotes ← ownedNoteOps target wanted
  let references ← collect (taskReferenceOps I wanted) tasks
  let notes ← sequenceAt documents.notes "notes"
  let noteLinks ← collect (noteLinkOps I wanted) notes
  let replies ← sequenceAt documents.replies "replies"
  let removedReplies ← collect (replyOps I wanted) replies
  let worklog ← worklogOps I wanted documents.worklog
  let captures ← sequenceAt documents.captures "captures"
  let unlinked ← collect (captureOps I wanted) captures
  let events ← sequenceAt documents.activity "activity"
  let removedEvents ← collect (ownedRecordOps I wanted .removeActivityEvent) events
  let facts ← sequenceAt documents.activity "planning_status"
  let removedFacts ← collect (ownedRecordOps I wanted .removePlanningEvent) facts
  let ledger ← sequenceAt documents.activity "idempotency"
  let purged ← collect (idempotencyOps I (tokenSet (wanted :: uid :: replyIds removedReplies))) ledger
  pure {
    targetDisplayId := wanted
    targetUid := uid
    expectedRevision := expected
    displayIdHighWater := highWater I ids
    operations := sortOps (.removeTaskRecord wanted uid :: ownedNotes ++ references ++ noteLinks ++
      removedReplies ++ worklog ++ unlinked ++ removedEvents ++ removedFacts ++ purged) }

end Collecting

end WorkStack.Deletion
