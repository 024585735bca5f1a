import WorkStack.Python.Platform
import WorkStack.Python.Sorting
import WorkStack.Service.PlanningStatus

/-!
# Mutation notices

Every change of a status leaves a notice in the activity log: a closed record of what was changed, at
which revision, under which key. A notice is stored as the canonical text of its record, and is only
read back when it is that text. An undo is built from a stored notice and from nothing else.
-/

namespace WorkStack.Service

open Effect.Outcome Python

/-- `MutationNoticeError`, by its code. -/
abbrev Noticed (α : Type) := Except String α

/-- `MutationReceiptError` -/
def receiptError {α : Type} (code : String) (message : String := "invalid mutation receipt")
    (details : Record := []) : Checked α :=
  .error (.domain code message details)

def noticeFormat : String := "workstack.mutation-notice"

def compensationFormat : String := "workstack.mutation-compensation"

def noticeFields : List String :=
  ["format", "schema_version", "notice_id", "workspace_uid", "mutation_uid", "entity_kind", "entity_uid",
    "operation", "before_revision", "after_revision", "source", "actor", "idempotency_key", "commit_state",
    "summary", "undoable", "status_before", "status_after"]

def compensationFields : List String :=
  ["format", "schema_version", "notice_id", "workspace_uid", "entity_kind", "entity_uid", "operation",
    "expected_revision", "requested_status", "idempotency_key"]

def noticeSources : List String := ["cli", "gui", "agent"]

def commitStates : List String := ["committed", "commit_unknown"]

def entityKinds : List String :=
  ["task", "subtask", "objective", "key_result", "worklog", "capture", "workspace", "profile", "storage"]

/-- `OPERATION_ENTITY` -/
def operationEntity : List (String × String) := [
  ("task.status", "task"), ("task.create", "task"), ("task.note", "task"),
  ("task.permanent_delete", "task"), ("subtask.status", "subtask"), ("subtask.create", "subtask"),
  ("objective.create", "objective"), ("key_result.create", "key_result"), ("okr.link", "objective"),
  ("okr.progress", "key_result"), ("worklog.append", "worklog"), ("capture.ingest", "capture"),
  ("authority.change", "workspace"), ("profile.change", "profile"), ("storage.migration", "storage"),
  ("storage.backup", "storage"), ("storage.restore", "storage")]

/-- `OPERATION_SUMMARY` -/
def operationSummary : List (String × String) := [
  ("task.create", "Task created"), ("task.note", "Task note appended"),
  ("task.permanent_delete", "Permanent deletion is not undoable"),
  ("subtask.status", "Subtask status changed"), ("subtask.create", "Subtask created"),
  ("objective.create", "Objective created"), ("key_result.create", "Key result created"),
  ("okr.link", "Objective linked"), ("okr.progress", "Key-result progress recorded"),
  ("worklog.append", "Worklog entry appended"), ("capture.ingest", "Capture ingested"),
  ("authority.change", "Authority change recorded"), ("profile.change", "Profile change recorded"),
  ("storage.migration", "Storage migration recorded"), ("storage.backup", "Storage backup recorded"),
  ("storage.restore", "Storage restore recorded")]

/-- `_SECRET_NAMES` -/
def secretNames : List String :=
  ["password", "passwd", "secret", "token", "access_token", "api_key", "authorization", "cookie",
    "credential", "private_key", "path", "command", "traceback", "title", "detail", "body", "prompt",
    "context", "retryable", "retry_suggestion"]

def secretValuePattern : String := "(?i)(?:password|passwd|secret|access[_-]?token|api[_-]?key)\\s*[:=]"

def personalPathPattern : String :=
  "(?i)(?:[A-Z]:[\\\\/](?:Users|Documents and Settings)[\\\\/]|/(?:home|Users|u)/)[^\\\\/\\s]+[\\\\/]"

def commandLinePattern : String :=
  "(?i)(?:\\b(?:cmd(?:\\.exe)?|powershell|pwsh|bash|python(?:w)?)\\b\\s+\\S|traceback \\(most recent call last\\))"

def retryPattern : String := "(?i)\\bretry\\b"

section Notices

variable (P : Platform)

/-! ## Fields -/

/-- `_CONTROL` -/
def isControl (c : Char) : Bool :=
  c.toNat ≤ 8 || (11 ≤ c.toNat && c.toNat ≤ 31) || (127 ≤ c.toNat && c.toNat ≤ 159)

/-- `_scan_text` -/
def scanText (text : String) : Noticed Unit :=
  if P.search secretValuePattern text || P.search personalPathPattern text ||
      P.search commandLinePattern text then .error "secret_bearing"
  else if text.toList.any isControl then .error "malformed"
  else .ok ()

def scanNames : List String → Noticed Unit
  | [] => .ok ()
  | name :: names => do
      scanText P name
      if name ∈ secretNames then .error "secret_bearing" else scanNames names

/-- `_exact_fields` -/
def exactFields (expected : List String) (value : Json) : Noticed Record :=
  match value with
  | .obj record => do
      scanNames P (Dict.keys record)
      if (Dict.keys record).any (· ∉ expected) then .error "unknown_field"
      else if expected.any (· ∉ Dict.keys record) then .error "missing"
      else pure record
  | _ => .error "malformed"

/-- `_text` -/
def noticeText : Json → Noticed String
  | .str text => .ok text
  | _ => .error "malformed"

/-- `_workspace_uid` of a notice -/
def noticeUuid (value : Json) : Noticed String := do
  let text ← noticeText value
  scanText P text
  if P.isRfc4122Uuid text then pure text else .error "malformed"

/-- `_bounded_token`, by the characters and the length its pattern allows. -/
def boundedToken (isAllowed : Char → Bool) (minimum maximum : ℕ) (value : Json) : Noticed String := do
  let text ← noticeText value
  if maximum < text.length then .error "oversized"
  else do
    scanText P text
    if minimum ≤ text.length ∧ text.toList.all isAllowed then pure text else .error "malformed"

def isTokenChar (c : Char) : Bool :=
  ('a' ≤ c && c ≤ 'z') || ('A' ≤ c && c ≤ 'Z') || c.isDigit || c == '.' || c == '_' || c == ':' || c == '-'

def noticeKey : Json → Noticed String := boundedToken P isTokenChar 8 128

def noticeActor : Json → Noticed String := boundedToken P isTokenChar 1 64

def noticeSummary : Json → Noticed String := boundedToken P (fun c ↦ isTokenChar c || c == ' ') 1 160

/-- `_revision` of a notice -/
def noticeRevision : Json → Noticed ℤ
  | .int value => if 0 ≤ value ∧ value ≤ maxRevision then .ok value else .error "oversized"
  | _ => .error "malformed"

/-- `_enum` -/
def noticeEnum (allowed : List String) (value : Json) : Noticed String := do
  let text ← noticeText value
  if text ∈ allowed then pure text else .error "malformed"

/-- `_status_or_null` -/
def statusOrNull : Json → Noticed (Option String)
  | .null => .ok none
  | value => do
      let status ← noticeEnum taskStatuses value
      pure (some status)

def optionText : Option String → Json
  | none => .null
  | some text => .str text

def optionRevision : Option ℤ → Json
  | none => .null
  | some value => .int value

/-! ## Derived fields -/

/-- The name space of a notice URL, `uuid5(NAMESPACE_URL, url)`. -/
def urlNamespace (url : String) : Uuid :=
  ⟨P.uuid5 ⟨"6ba7b811-9dad-11d1-80b4-00c04fd430c8", false, true⟩ url, false, true⟩

def noticeUrl : String := "https://workstack.local/contracts/workstack-mutation-notice-v1"

/-- `derive_notice_id` -/
def deriveNoticeId (workspaceUid key : Json) : Noticed String := do
  let workspaceUid ← noticeUuid P workspaceUid
  let key ← noticeKey P key
  pure (P.uuid5 (urlNamespace P noticeUrl) (workspaceUid ++ ":" ++ key))

/-- `derive_mutation_uid` -/
def deriveMutationUid (workspaceUid key : Json) : Noticed String := do
  let workspaceUid ← noticeUuid P workspaceUid
  let key ← noticeKey P key
  pure (P.uuid5 (urlNamespace P (noticeUrl ++ "/mutation")) (workspaceUid ++ ":" ++ key))

/-- `_summary_for` -/
def summaryFor (operation commitState : String) (before after : Option String) : Noticed String :=
  let text :=
    if commitState = "commit_unknown" then "Mutation outcome is unverifiable"
    else if operation = "task.status" then
      "Task status " ++ before.getD "None" ++ " to " ++ after.getD "None"
    else (operationSummary.lookup operation).getD ""
  if 160 < text.length || P.search retryPattern text then .error "malformed"
  else noticeSummary P (.str text)

/-- `_undoable_for` -/
def undoableFor (operation commitState : String) (afterRevision : Option ℤ)
    (before after : Option String) : Bool :=
  commitState == "committed" && afterRevision.isSome && operation == "task.status" &&
    before.isSome && after.isSome && before != after

/-- `_paired_status` -/
def pairedStatus (operation : String) (before after : Json) : Noticed (Option String × Option String) := do
  let before ← statusOrNull before
  let after ← statusOrNull after
  if operation = "task.status" then
    if before.isNone ∨ after.isNone ∨ before = after then .error "malformed" else pure (before, after)
  else if before.isSome ∨ after.isSome then .error "malformed"
  else pure (none, none)

/-- `_commit_pair` -/
def commitPair (commitState : String) (afterRevision : Json) : Noticed (Option ℤ) :=
  if commitState = "commit_unknown" then
    match afterRevision with
    | .null => .ok none
    | _ => .error "malformed"
  else if commitState ≠ "committed" then .error "malformed"
  else do
    let value ← noticeRevision afterRevision
    pure (some value)

/-! ## Notices -/

def isInt : Json → Bool
  | .int _ => true
  | _ => false

/-- `validate_notice` -/
def validateNotice (value : Json) : Noticed Record := do
  let mapping ← exactFields P noticeFields value
  let fieldOf := valueAt mapping
  if ¬Json.same (.str noticeFormat) (fieldOf "format") ∨ ¬isInt (fieldOf "schema_version") then .error "malformed"
  else if ¬Json.same (.int 1) (fieldOf "schema_version") then .error "unsupported_version"
  else do
    let workspaceUid ← noticeUuid P (fieldOf "workspace_uid")
    let key ← noticeKey P (fieldOf "idempotency_key")
    let operation ← noticeEnum (operationEntity.map Prod.fst) (fieldOf "operation")
    let entityKind ← noticeEnum entityKinds (fieldOf "entity_kind")
    if operationEntity.lookup operation ≠ some entityKind then .error "malformed"
    else do
      let commitState ← noticeEnum commitStates (fieldOf "commit_state")
      let afterRevision ← commitPair commitState (fieldOf "after_revision")
      let (before, after) ← pairedStatus operation (fieldOf "status_before") (fieldOf "status_after")
      let undoable := undoableFor operation commitState afterRevision before after
      match fieldOf "undoable" with
      | .bool stored =>
          if stored ≠ undoable then .error "malformed"
          else do
            let summary ← noticeSummary P (fieldOf "summary")
            if P.search retryPattern summary then .error "malformed"
            else do
              let expectedSummary ← summaryFor P operation commitState before after
              if summary ≠ expectedSummary then .error "malformed"
              else do
                let noticeId ← noticeUuid P (fieldOf "notice_id")
                let mutationUid ← noticeUuid P (fieldOf "mutation_uid")
                let derivedId ← deriveNoticeId P (.str workspaceUid) (.str key)
                let derivedUid ← deriveMutationUid P (.str workspaceUid) (.str key)
                if noticeId ≠ derivedId ∨ mutationUid ≠ derivedUid then .error "malformed"
                else do
                  let actor ← noticeActor P (fieldOf "actor")
                  let beforeRevision ← noticeRevision (fieldOf "before_revision")
                  let entityUid ← noticeUuid P (fieldOf "entity_uid")
                  let source ← noticeEnum noticeSources (fieldOf "source")
                  pure [("actor", .str actor), ("after_revision", optionRevision afterRevision),
                    ("before_revision", .int beforeRevision), ("commit_state", .str commitState),
                    ("entity_kind", .str entityKind), ("entity_uid", .str entityUid),
                    ("format", .str noticeFormat), ("idempotency_key", .str key),
                    ("mutation_uid", .str mutationUid), ("notice_id", .str noticeId),
                    ("operation", .str operation), ("schema_version", .int 1), ("source", .str source),
                    ("status_after", optionText after), ("status_before", optionText before),
                    ("summary", .str summary), ("undoable", .bool undoable),
                    ("workspace_uid", .str workspaceUid)]
      | _ => .error "malformed"

/-- `serialize_notice`, as a text. -/
def serializeNotice (value : Json) : Noticed String := do
  let notice ← validateNotice P value
  pure (String.ofList (Json.compactText (.obj notice)))

/-- `build_notice` of a committed change of a status. -/
def buildStatusNotice (workspaceUid entityUid : Json) (beforeRevision afterRevision : ℤ)
    (source key before after : String) : Noticed Record := do
  let uid ← noticeUuid P workspaceUid
  let token ← noticeKey P (.str key)
  let revision ← commitPair "committed" (.int afterRevision)
  let (statusBefore, statusAfter) ← pairedStatus "task.status" (.str before) (.str after)
  let mutationUid ← deriveMutationUid P (.str uid) (.str token)
  let noticeId ← deriveNoticeId P (.str uid) (.str token)
  let summary ← summaryFor P "task.status" "committed" statusBefore statusAfter
  validateNotice P (.obj [("actor", .str "local.user"), ("after_revision", optionRevision revision),
    ("before_revision", .int beforeRevision), ("commit_state", .str "committed"),
    ("entity_kind", .str "task"), ("entity_uid", entityUid), ("format", .str noticeFormat),
    ("idempotency_key", .str token), ("mutation_uid", .str mutationUid), ("notice_id", .str noticeId),
    ("operation", .str "task.status"), ("schema_version", .int 1), ("source", .str source),
    ("status_after", optionText statusAfter), ("status_before", optionText statusBefore),
    ("summary", .str summary),
    ("undoable", .bool (undoableFor "task.status" "committed" revision statusBefore statusAfter)),
    ("workspace_uid", .str uid)])

/-! ## Compensations -/

/-- `validate_compensation` -/
def validateCompensation (value : Json) : Noticed Record := do
  let mapping ← exactFields P compensationFields value
  let fieldOf := valueAt mapping
  if ¬Json.same (.str compensationFormat) (fieldOf "format") then .error "malformed"
  else if ¬Json.same (.int 1) (fieldOf "schema_version") then .error "unsupported_version"
  else do
    let operation ← noticeEnum ["task.status"] (fieldOf "operation")
    let entityKind ← noticeEnum ["task"] (fieldOf "entity_kind")
    let entityUid ← noticeUuid P (fieldOf "entity_uid")
    let expectedRevision ← noticeRevision (fieldOf "expected_revision")
    let key ← noticeKey P (fieldOf "idempotency_key")
    let noticeId ← noticeUuid P (fieldOf "notice_id")
    let requested ← noticeEnum taskStatuses (fieldOf "requested_status")
    let workspaceUid ← noticeUuid P (fieldOf "workspace_uid")
    pure [("entity_kind", .str entityKind), ("entity_uid", .str entityUid),
      ("expected_revision", .int expectedRevision), ("format", .str compensationFormat),
      ("idempotency_key", .str key), ("notice_id", .str noticeId), ("operation", .str operation),
      ("requested_status", .str requested), ("schema_version", .int 1),
      ("workspace_uid", .str workspaceUid)]

/-- `_compensation_key` -/
def compensationKey (noticeId : String) : String :=
  String.ofList ("undo:".toList ++ (P.sha256 (Json.utf8 noticeId.toList)).hex.toList.take 32)

/-- `build_compensation` -/
def buildCompensation (notice : Json) (workspaceUid entityUid revision : Json) : Noticed Record := do
  let validated ← validateNotice P notice
  let fieldOf := valueAt validated
  if Json.same (.str "task.permanent_delete") (fieldOf "operation") then .error "permanent_deletion"
  else if Json.same (.str "commit_unknown") (fieldOf "commit_state") then .error "commit_unknown"
  else if ¬truthy (fieldOf "undoable") ∨ ¬Json.same (.str "task.status") (fieldOf "operation") then
    .error "not_undoable"
  else do
    let workspaceUid ← noticeUuid P workspaceUid
    let entityUid ← noticeUuid P entityUid
    let revision ← noticeRevision revision
    if ¬Json.same (.str workspaceUid) (fieldOf "workspace_uid") then .error "workspace_mismatch"
    else if ¬Json.same (.str entityUid) (fieldOf "entity_uid") then .error "entity_mismatch"
    else if ¬Json.same (.int revision) (fieldOf "after_revision") then .error "revision_mismatch"
    else do
      let noticeId ← noticeText (fieldOf "notice_id")
      validateCompensation P (.obj [("entity_kind", .str "task"), ("entity_uid", .str entityUid),
        ("expected_revision", .int revision), ("format", .str compensationFormat),
        ("idempotency_key", .str (compensationKey P noticeId)), ("notice_id", .str noticeId),
        ("operation", .str "task.status"), ("requested_status", fieldOf "status_before"),
        ("schema_version", .int 1), ("workspace_uid", .str workspaceUid)])

/-! ## Stored notices -/

/-- `EVENT_TYPE` -/
def noticeEventType : String := "mutation.notice"

def parseNotice (blob : String) : Noticed Record :=
  match P.loads blob with
  | some parsed => do
      let notice ← validateNotice P parsed
      let text ← serializeNotice P (.obj notice)
      if text = blob then pure notice else .error "malformed"
  | none => .error "malformed"

/-- `_notice_from_event` -/
def noticeFromEvent (event : Json) : Checked (Option Record) :=
  match event with
  | .obj event =>
      if Json.same (.str noticeEventType) (valueAt event "type") then
        match valueAt event "details" with
        | .obj [("notice", .str blob)] =>
            if 1 ≤ blob.length ∧ blob.length ≤ 8192 then
              match parseNotice P blob with
              | .ok notice => .ok (some notice)
              | .error _ => receiptError "invalid_request"
            else receiptError "invalid_request"
        | .obj [("notice", _)] => receiptError "invalid_request"
        | _ => .ok none
      else .ok none
  | _ => .ok none

/-- The notices of events. -/
def noticesOf : List Json → Checked (List Record)
  | [] => .ok []
  | event :: rest => do
      match ← noticeFromEvent P event with
      | none => noticesOf rest
      | some notice => do
          let record ← asRecord event
          let _ ← field record "id"
          let notices ← noticesOf rest
          pure (notice :: notices)

/-- `find_notice`, from the latest event to the first. -/
def findNotice (activity : Record) (noticeId : Json) : Checked (Option Record) :=
  match activity.get "activity" with
  | some (.arr events) => do
      let notices ← noticesOf P events.reverse
      pure (notices.find? fun notice ↦ Json.same noticeId (valueAt notice "notice_id"))
  | _ => .ok none

/-- What a notice says about a change of a status. -/
structure StatusChange where
  before : String
  after : String
  beforeRevision : ℤ
  afterRevision : ℤ
  key : String
  source : String

/-- `_record_task_status_notice` -/
def recordStatusNotice (activity task : Record) (workspaceUid : String) (change : StatusChange)
    (createdAt : String) : Checked Record := do
  let entityUid ← field task "uid"
  match buildStatusNotice P (.str workspaceUid) entityUid change.beforeRevision change.afterRevision
      change.source change.key change.before change.after with
  | .error _ => receiptError "invalid_request" "invalid mutation notice"
  | .ok notice => do
      match serializeNotice P (.obj notice) with
      | .error _ => receiptError "invalid_request" "invalid mutation notice"
      | .ok blob =>
          match ← findNotice P activity (valueAt notice "notice_id") with
          | some existing =>
              match serializeNotice P (.obj existing) with
              | .error _ => receiptError "invalid_request" "invalid mutation notice"
              | .ok stored => if stored = blob then pure activity else receiptError "idempotency_conflict"
          | none => do
              let events ← listAt activity "activity"
              let id ← nextId P.toInterpreter events ['E'] 6
              let taskId ← field task "id"
              pure (activity.set "activity" (.arr (events ++ [.obj [("id", .str id),
                ("type", .str noticeEventType), ("created_at", .str createdAt), ("task_id", taskId),
                ("details", .obj [("notice", .str blob)])]])))

/-- A notice changes the events and nothing else of the activity. -/
theorem recordStatusNotice_get {activity after task : Record} {workspaceUid createdAt : String}
    {change : StatusChange}
    (h : recordStatusNotice P activity task workspaceUid change createdAt = .ok after) {name : String}
    (hname : name ≠ "activity") : after.get name = activity.get name := by
  unfold recordStatusNotice at h
  obtain ⟨entityUid, -, h⟩ := bind_eq_ok.mp h
  split at h
  · cases h
  · split at h
    · cases h
    · obtain ⟨found, -, h⟩ := bind_eq_ok.mp h
      cases found with
      | some existing =>
          dsimp only at h
          split at h
          · cases h
          · split at h
            · cases h
              rfl
            · cases h
      | none =>
          obtain ⟨events, -, h⟩ := bind_eq_ok.mp h
          obtain ⟨id, -, h⟩ := bind_eq_ok.mp h
          obtain ⟨taskId, -, h⟩ := bind_eq_ok.mp h
          cases h
          exact Dict.get_set_of_ne _ (Ne.symm hname) _

end Notices

/-- `unkeyed_status_key` -/
def unkeyedStatusKey (taskUid : String) (beforeRevision : ℤ) : String :=
  "ts:" ++ taskUid ++ ":" ++ toString beforeRevision

/-- `notice_source_for_origin` -/
def noticeSourceForOrigin (origin : Option String) : String :=
  if origin = some "agent-cli-v1" then "agent" else "gui"

end WorkStack.Service
