import WorkStack.Knowledge.Request

/-!
# Planning on the ledger

The owner's three operations: to set the policy, to issue a request, and to retire a request whose batch
has been imported. Each of them takes the document that was read and returns the document to write, and
none of them trusts the one that it was given.
-/

open WorkStack.Python WorkStack.Effect.Refusing

namespace WorkStack.Knowledge

/-- `IssuedRequest` -/
structure IssuedRequest where
  document : Json
  replayed : Bool
  requestId : String
  requestDigest : String
  connectionAlias : String
  policyRevision : ℤ
  resultLimit : ℤ
  requestedAt : String
  expiresAt : String

/-- `StageCompletion` -/
structure StageCompletion where
  document : Json
  replayed : Bool
  requestId : String
  captureIds : List String
  completionDigest : String
  completedAt : String

namespace Ledger

/-- The ledger under a new policy. -/
def withPolicy (ledger : Ledger) (connections : List ConnectionPolicy) : Ledger :=
  { ledger with connections := connections, policyRevision := ledger.policyRevision + 1 }

/-- The ledger with one request more. -/
def issue (ledger : Ledger) (issued : Authorization) : Ledger :=
  { ledger with requests := ledger.requests ++ [⟨issued, none⟩] }

/-- The record as it is when its request has been completed. -/
def completeRecord (requestId : String) (completion : Completion) (record : RequestRecord) : RequestRecord :=
  if record.issued.requestId = requestId then { record with completion := some completion } else record

def complete (ledger : Ledger) (requestId : String) (completion : Completion) : Ledger :=
  { ledger with requests := ledger.requests.map (completeRecord requestId completion) }

/-- `_record` -/
def record (ledger : Ledger) (requestId : String) : Option RequestRecord :=
  ledger.requests.find? fun entry ↦ entry.issued.requestId == requestId

end Ledger

section Planners

variable (L : Library) (workspaceUid : String)

/-- The document of a ledger, after the validator has seen it. -/
def planned (ledger : Ledger) : Checked Json := do
  let _ ← readLedger L.toPlatform workspaceUid ledger.json
  return ledger.json

/-- `plan_policy_revision` -/
def planPolicyRevision (document : Json) (connections : List ConnectionPolicy) : Checked Json := do
  let ledger ← readLedger L.toPlatform workspaceUid document
  check (connections.length ≤ maxConnections) (refused "connections" "invalid_document")
  check (ledger.policyRevision + 1 ≤ maxPolicyRevision) (refused "policy_revision" "out_of_range")
  planned L workspaceUid (ledger.withPolicy connections)

/-- `_connection` -/
def connectionNamed (ledger : Ledger) (connectionAlias : String) : Checked ConnectionPolicy :=
  match ledger.connections.find? fun entry ↦ entry.connectionAlias == connectionAlias with
  | some connection => .ok connection
  | none => .error (refused "connection_alias" "connection_not_found")

/-- `owner_request_authority` -/
def ownerRequestAuthority (document : Json) (connectionAlias now : String) (activeTask : Option ActiveTask) :
    Checked RequestAuthority := do
  let ledger ← readLedger L.toPlatform workspaceUid document
  let connection ← connectionNamed ledger connectionAlias
  return ⟨workspaceUid, connection.corpusRefs, now, activeTask⟩

/-- What a record says of the issue that it is a record of. -/
def issuedAs (document : Json) (replayed : Bool) (issued : Authorization) : IssuedRequest where
  document := document
  replayed := replayed
  requestId := issued.requestId
  requestDigest := issued.requestDigest
  connectionAlias := issued.connectionAlias
  policyRevision := issued.policyRevision
  resultLimit := issued.resultLimit
  requestedAt := issued.requestedAt
  expiresAt := issued.expiresAt

/-- An id that is on record already names exactly one authorization. -/
def reissue (document : Json) (existing : Authorization) (digest connectionAlias : String) : Checked IssuedRequest := do
  check (existing.requestDigest == digest) (refused "request_id" "request_digest_mismatch")
  check (existing.connectionAlias == connectionAlias) (refused "connection_alias" "request_digest_mismatch")
  return issuedAs document true existing

/-- What a new record is issued for. -/
def authorizationOf (ledger : Ledger) (connectionAlias : String) (projection : Projection) : Authorization where
  requestId := projection.requestId
  requestDigest := requestDigest L projection
  connectionAlias := connectionAlias
  binding := projection.binding
  corpusRefs := projection.corpusRefs
  policyRevision := ledger.policyRevision
  resultLimit := projection.resultLimit
  requestedAt := projection.requestedAt
  expiresAt := projection.expiresAt

/-- An id that is not on record is recorded. -/
def issueNew (ledger : Ledger) (connectionAlias : String) (projection : Projection) : Checked IssuedRequest := do
  check (ledger.requests.length < maxRequests) (refused "requests" "ledger_full")
  let document ← planned L workspaceUid (ledger.issue (authorizationOf L ledger connectionAlias projection))
  return issuedAs document false (authorizationOf L ledger connectionAlias projection)

/-- `plan_request_issue` -/
def planRequestIssue (document request : Json) (connectionAlias now : String) (activeTask : Option ActiveTask) :
    Checked IssuedRequest := do
  let ledger ← readLedger L.toPlatform workspaceUid document
  let authority ← ownerRequestAuthority L workspaceUid document connectionAlias now activeTask
  let projection ← validateKnowledgeRequest L request authority
  match ledger.record projection.requestId with
  | some existing => reissue document existing.issued (requestDigest L projection) connectionAlias
  | none => issueNew L workspaceUid ledger connectionAlias projection

/-- Whether the task that is open is the one that a request was bound to. -/
def taskMatches : Option TaskBinding → Option ActiveTask → Bool
  | none, none => true
  | some bound, some active =>
      bound.taskUid == active.taskUid && bound.taskId == L.upper active.taskId &&
        bound.taskRevision == active.taskRevision
  | _, _ => false

/-- `_binding_still_matches` -/
def bindingStillMatches (binding : Binding) (activeTask : Option ActiveTask) : Checked Unit := do
  check (binding.workspaceUid == workspaceUid) (refused "binding.workspace_uid" "workspace_mismatch")
  check (taskMatches L binding.task activeTask) (refused "binding" "task_binding_mismatch")

/-- A completed request is recognised and nothing else is asked of it. -/
def replayCompletion (document : Json) (requestId : String) (recorded : Completion) (completionDigest : String)
    (captureIds : List String) : Checked StageCompletion := do
  check (recorded.completionDigest == completionDigest) (refused "completion_digest" "completion_digest_mismatch")
  check (recorded.captureIds == captureIds) (refused "capture_ids" "completion_replay_mismatch")
  return ⟨document, true, requestId, recorded.captureIds, recorded.completionDigest, recorded.completedAt⟩

/-- A pending request is held to the policy in force. -/
def completeNow (ledger : Ledger) (record : RequestRecord) (requestId completionDigest : String)
    (captureIds : List String) (now : String) (activeTask : Option ActiveTask) : Checked StageCompletion := do
  check (captureIds.length ≤ record.issued.resultLimit) (refused "capture_ids" "result_limit_exceeded")
  check (requestAuthorityIsCurrent ledger record) (refused "policy_revision" "policy_revision_changed")
  bindingStillMatches L workspaceUid record.issued.binding activeTask
  let expired ← isExpired L record.issued.expiresAt now
  check (!expired) (refused "expires_at" "request_expired")
  let document ← planned L workspaceUid (ledger.complete requestId ⟨captureIds, completionDigest, now⟩)
  return ⟨document, false, requestId, captureIds, completionDigest, now⟩

/-- `plan_ledger_stage_completion` -/
def planLedgerStageCompletion (document : Json) (requestId completionDigest : String) (captureIds : List String)
    (now : String) (activeTask : Option ActiveTask) : Checked StageCompletion := do
  let ledger ← readLedger L.toPlatform workspaceUid document
  check (isDigest completionDigest) (refused "completion_digest" "invalid_digest")
  match ledger.record requestId with
  | none => .error (refused "request_id" "unknown_request")
  | some record =>
      match record.completion with
      | some recorded => replayCompletion document requestId recorded completionDigest captureIds
      | none => completeNow L workspaceUid ledger record requestId completionDigest captureIds now activeTask

/-! ## What the operations do -/

variable {L workspaceUid}

theorem planned_eq_ok {ledger : Ledger} {document : Json} (h : planned L workspaceUid ledger = .ok document) :
    readLedger L.toPlatform workspaceUid document = .ok ledger := by
  simp only [planned, bind_eq_ok, pure_eq_ok] at h
  obtain ⟨read, hread, rfl⟩ := h
  rw [hread, readLedger_json hread]

theorem planPolicyRevision_eq_ok {document document' : Json} {connections : List ConnectionPolicy}
    (h : planPolicyRevision L workspaceUid document connections = .ok document') :
    ∃ ledger, readLedger L.toPlatform workspaceUid document = .ok ledger ∧
      readLedger L.toPlatform workspaceUid document' = .ok (ledger.withPolicy connections) := by
  simp only [planPolicyRevision, bind_eq_ok] at h
  obtain ⟨ledger, hledger, -, -, -, -, hplanned⟩ := h
  exact ⟨ledger, hledger, planned_eq_ok hplanned⟩

/-- A request is recognised and the document stays, or it is recorded, pending, under the policy in force. -/
theorem planRequestIssue_eq_ok {document request : Json} {connectionAlias now : String} {activeTask : Option ActiveTask}
    {answer : IssuedRequest}
    (h : planRequestIssue L workspaceUid document request connectionAlias now activeTask = .ok answer) :
    ∃ ledger, readLedger L.toPlatform workspaceUid document = .ok ledger ∧
      (answer.document = document ∨ ∃ issued, ledger.record issued.requestId = none ∧
        issued.policyRevision = ledger.policyRevision ∧
        readLedger L.toPlatform workspaceUid answer.document = .ok (ledger.issue issued)) := by
  simp only [planRequestIssue, bind_eq_ok] at h
  obtain ⟨ledger, hledger, authority, -, projection, -, h⟩ := h
  refine ⟨ledger, hledger, ?_⟩
  cases hrecord : ledger.record projection.requestId with
  | some existing =>
      simp only [hrecord, reissue, bind_eq_ok, pure_eq_ok] at h
      obtain ⟨-, -, -, -, rfl⟩ := h
      exact Or.inl rfl
  | none =>
      simp only [hrecord, issueNew, bind_eq_ok, pure_eq_ok] at h
      obtain ⟨-, -, written, hwritten, rfl⟩ := h
      exact Or.inr ⟨authorizationOf L ledger connectionAlias projection, hrecord, rfl, planned_eq_ok hwritten⟩

/-- A pending request is completed only under the policy in force, within its limit and its window, with its task
open. -/
structure Completes (L : Library) (workspaceUid : String) (ledger : Ledger) (record : RequestRecord)
    (captureIds : List String) (now : String) (activeTask : Option ActiveTask) : Prop where
  pending : record.completion = none
  revision : record.issued.policyRevision = ledger.policyRevision
  granted : ∃ connection ∈ ledger.connections, connection.connectionAlias = record.issued.connectionAlias ∧
    record.issued.corpusRefs ⊆ connection.corpusRefs
  workspace : record.issued.binding.workspaceUid = workspaceUid
  task : taskMatches L record.issued.binding.task activeTask
  unexpired : ∃ current expires, parseRfc3339 L.toInterpreter now = some current ∧
    parseRfc3339 L.toInterpreter record.issued.expiresAt = some expires ∧ current.before expires
  withinLimit : captureIds.length ≤ record.issued.resultLimit

theorem requestAuthorityIsCurrent_eq_true {ledger : Ledger} {record : RequestRecord}
    (h : requestAuthorityIsCurrent ledger record = true) :
    record.issued.policyRevision = ledger.policyRevision ∧
      ∃ connection ∈ ledger.connections, connection.connectionAlias = record.issued.connectionAlias ∧
        record.issued.corpusRefs ⊆ connection.corpusRefs := by
  simp only [requestAuthorityIsCurrent, Bool.and_eq_true, beq_iff_eq] at h
  obtain ⟨hrevision, hdefect⟩ := h
  refine ⟨hrevision, ?_⟩
  unfold currentPolicyDefect at hdefect
  cases hfind : ledger.connections.find? fun connection ↦ connection.connectionAlias == record.issued.connectionAlias with
  | none => simp [hfind] at hdefect
  | some connection =>
      have hname := List.find?_some hfind
      refine ⟨connection, List.mem_of_find?_eq_some hfind, by simpa using hname, ?_⟩
      intro text htext
      by_contra hnot
      have hall : ¬(record.issued.corpusRefs.all connection.corpusRefs.contains = true) := by
        rw [List.all_eq_true]
        intro hall
        exact hnot (by simpa using hall text htext)
      simp [hfind, hall] at hdefect

theorem wireInstant_str {field text : String} {result : String × Instant}
    (h : wireInstant L field (.str text) = .ok result) : parseRfc3339 L.toInterpreter text = some result.2 := by
  simp only [wireInstant, ite_ok_eq_ok] at h
  cases hparse : parseRfc3339 L.toInterpreter text with
  | none => simp [hparse] at h
  | some instant =>
      simp only [hparse, Except.ok.injEq] at h
      rw [← h.2]

theorem isExpired_eq_false {expiresAt now : String} (h : isExpired L expiresAt now = .ok false) :
    ∃ current expires, parseRfc3339 L.toInterpreter now = some current ∧
      parseRfc3339 L.toInterpreter expiresAt = some expires ∧ current.before expires := by
  simp only [isExpired, bind_eq_ok, pure_eq_ok] at h
  obtain ⟨expires, hexpires, current, hcurrent, hbefore⟩ := h
  exact ⟨current.2, expires.2, wireInstant_str hcurrent, wireInstant_str hexpires, by simpa using hbefore⟩

theorem record_eq_some {ledger : Ledger} {requestId : String} {record : RequestRecord}
    (h : ledger.record requestId = some record) : record ∈ ledger.requests ∧ record.issued.requestId = requestId := by
  have hid := List.find?_some h
  exact ⟨List.mem_of_find?_eq_some h, by simpa using hid⟩

/-- A completion repeats what is on record and changes nothing, or it completes a pending request. -/
theorem planLedgerStageCompletion_eq_ok {document : Json} {requestId completionDigest : String}
    {captureIds : List String} {now : String} {activeTask : Option ActiveTask} {answer : StageCompletion}
    (h : planLedgerStageCompletion L workspaceUid document requestId completionDigest captureIds now activeTask =
      .ok answer) :
    ∃ ledger record, readLedger L.toPlatform workspaceUid document = .ok ledger ∧ isDigest completionDigest = true ∧
      ledger.record requestId = some record ∧
      (answer.replayed = true ∧ record.completion = some ⟨captureIds, completionDigest, answer.completedAt⟩ ∧
          answer.document = document ∨
        answer.replayed = false ∧ Completes L workspaceUid ledger record captureIds now activeTask ∧
          answer.completedAt = now ∧ readLedger L.toPlatform workspaceUid answer.document =
            .ok (ledger.complete requestId ⟨captureIds, completionDigest, now⟩)) := by
  simp only [planLedgerStageCompletion, bind_eq_ok, check_eq_ok] at h
  obtain ⟨ledger, hledger, -, hdigest, h⟩ := h
  cases hrecord : ledger.record requestId with
  | none => simp [hrecord] at h
  | some record =>
      refine ⟨ledger, record, hledger, hdigest, hrecord, ?_⟩
      cases hcompletion : record.completion with
      | some recorded =>
          simp only [hrecord, hcompletion, replayCompletion, bind_eq_ok, pure_eq_ok, check_eq_ok, beq_iff_eq] at h
          obtain ⟨-, rfl, -, rfl, rfl⟩ := h
          exact Or.inl ⟨rfl, rfl, rfl⟩
      | none =>
          simp only [hrecord, hcompletion, completeNow, bindingStillMatches, bind_eq_ok, pure_eq_ok, check_eq_ok,
            beq_iff_eq, decide_eq_true_eq] at h
          obtain ⟨-, hlimit, -, hcurrent, -, ⟨-, hworkspace, htask⟩, expired, hexpired, -, hnot, written, hwritten,
            rfl⟩ := h
          cases expired with
          | true => simp at hnot
          | false =>
              obtain ⟨hrevision, hgranted⟩ := requestAuthorityIsCurrent_eq_true hcurrent
              exact Or.inr ⟨rfl, ⟨hcompletion, hrevision, hgranted, hworkspace, htask, isExpired_eq_false hexpired,
                hlimit⟩, rfl, planned_eq_ok hwritten⟩

/-- What is on record as completed is recognised again, whatever the clock and the open task. -/
theorem planLedgerStageCompletion_of_completed {document : Json} {ledger : Ledger} {record : RequestRecord}
    {requestId completionDigest completedAt : String} {captureIds : List String}
    (hledger : readLedger L.toPlatform workspaceUid document = .ok ledger) (hdigest : isDigest completionDigest = true)
    (hrecord : ledger.record requestId = some record)
    (hcompletion : record.completion = some ⟨captureIds, completionDigest, completedAt⟩) (now : String)
    (activeTask : Option ActiveTask) :
    planLedgerStageCompletion L workspaceUid document requestId completionDigest captureIds now activeTask =
      .ok ⟨document, true, requestId, captureIds, completionDigest, completedAt⟩ := by
  simp [planLedgerStageCompletion, hledger, hdigest, hrecord, hcompletion, replayCompletion, check, bind, Except.bind,
    pure, Except.pure]

end Planners

end WorkStack.Knowledge
