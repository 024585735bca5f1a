import WorkStack.Knowledge.Grammar
import WorkStack.Python.Equality
import WorkStack.Streams.Sizes

/-!
# The ledger of knowledge requests

The owner's document: the connections that are approved, at which revision of the policy, and the
requests that were issued under it. The validator reads the whole document and refuses at the first
place that is not as it should be. What it accepts is read into a ledger, and a ledger that was written
and is accepted is read back as it was.
-/

open WorkStack.Python WorkStack.Effect.Refusing

namespace WorkStack.Knowledge

/-! ## What a ledger holds -/

/-- `ConnectionPolicy`, and a connection on the roster -/
structure ConnectionPolicy where
  connectionAlias : String
  upstreamWorkspaceUid : String
  corpusRefs : List String
  scope : String
  deriving DecidableEq

structure TaskBinding where
  taskUid : String
  taskId : String
  taskRevision : ℤ
  deriving DecidableEq

/-- What a request is bound to: the workspace, and a task of it if one was open. -/
structure Binding where
  workspaceUid : String
  task : Option TaskBinding
  deriving DecidableEq

structure Completion where
  captureIds : List String
  completionDigest : String
  completedAt : String
  deriving DecidableEq

/-- What a request was issued for. -/
structure Authorization where
  requestId : String
  requestDigest : String
  connectionAlias : String
  binding : Binding
  corpusRefs : List String
  policyRevision : ℤ
  resultLimit : ℤ
  requestedAt : String
  expiresAt : String
  deriving DecidableEq

/-- A request on record: pending as long as it has no completion. -/
structure RequestRecord where
  issued : Authorization
  completion : Option Completion
  deriving DecidableEq

structure Ledger where
  version : Json
  policyRevision : ℤ
  connections : List ConnectionPolicy
  requests : List RequestRecord

def maxConnections : ℕ := 8

def maxRequests : ℕ := 200

def maxKnowledgeBytes : ℕ := 256 * 1024

def maxPolicyRevision : ℤ := 2 ^ 53 - 1

def maxActiveSeconds : ℤ := 300

def maxCaptureIdChars : ℕ := 32

def connectionScope : String := "workspace"

def topKeys : List String := ["version", "policy_revision", "connections", "requests"]

def connectionKeys : List String := ["alias", "upstream_workspace_uid", "corpus_refs", "scope"]

def requestKeys : List String :=
  ["request_id", "request_digest", "connection_alias", "binding", "corpus_refs", "policy_revision", "result_limit",
    "requested_at", "expires_at", "state", "capture_ids", "completion_digest", "completed_at"]

def bindingWorkspaceOnly : List String := ["workspace_uid"]

def bindingWithTask : List String := ["workspace_uid", "task_uid", "task_id", "task_revision"]

def requestStates : List String := ["pending", "completed"]

/-! ## Writing -/

def texts (items : List String) : Json := .arr (items.map .str)

namespace ConnectionPolicy

def json (connection : ConnectionPolicy) : Json := .obj [
  ("alias", .str connection.connectionAlias),
  ("upstream_workspace_uid", .str connection.upstreamWorkspaceUid),
  ("corpus_refs", texts connection.corpusRefs),
  ("scope", .str connection.scope)]

end ConnectionPolicy

namespace Binding

def json (binding : Binding) : Json :=
  match binding.task with
  | none => .obj [("workspace_uid", .str binding.workspaceUid)]
  | some task => .obj [
      ("workspace_uid", .str binding.workspaceUid),
      ("task_uid", .str task.taskUid),
      ("task_id", .str task.taskId),
      ("task_revision", .int task.taskRevision)]

end Binding

namespace RequestRecord

def state (record : RequestRecord) : String := if record.completion.isSome then "completed" else "pending"

def captureIds (record : RequestRecord) : List String := (record.completion.map Completion.captureIds).getD []

def completionDigest (record : RequestRecord) : Json :=
  (record.completion.map fun completion ↦ Json.str completion.completionDigest).getD .null

def completedAt (record : RequestRecord) : Json :=
  (record.completion.map fun completion ↦ Json.str completion.completedAt).getD .null

def json (record : RequestRecord) : Json := .obj [
  ("request_id", .str record.issued.requestId),
  ("request_digest", .str record.issued.requestDigest),
  ("connection_alias", .str record.issued.connectionAlias),
  ("binding", record.issued.binding.json),
  ("corpus_refs", texts record.issued.corpusRefs),
  ("policy_revision", .int record.issued.policyRevision),
  ("result_limit", .int record.issued.resultLimit),
  ("requested_at", .str record.issued.requestedAt),
  ("expires_at", .str record.issued.expiresAt),
  ("state", .str record.state),
  ("capture_ids", texts record.captureIds),
  ("completion_digest", record.completionDigest),
  ("completed_at", record.completedAt)]

end RequestRecord

namespace Ledger

def json (ledger : Ledger) : Json := .obj [
  ("version", ledger.version),
  ("policy_revision", .int ledger.policyRevision),
  ("connections", .arr (ledger.connections.map ConnectionPolicy.json)),
  ("requests", .arr (ledger.requests.map RequestRecord.json))]

end Ledger

/-! ## Reading -/

/-- `_refuse` of the ledger -/
def refused (field code : String) : Refusal := .ledger code (some field)

def check (condition : Bool) (refusal : Refusal) : Checked Unit := if condition then .ok () else .error refusal

/-- `record[key]` of a key that is there. -/
def item (fields : Dict String Json) (key : String) : Json := (Dict.get fields key).getD .null

/-- The texts of a list, each accepted, none of them twice, and each admitted on its own. -/
def distinctTexts (read : Json → Checked String) (twice : Refusal) (permits : String → Checked Unit) :
    List String → List Json → Checked (List String)
  | _, [] => .ok []
  | seen, entry :: entries => do
      let text ← read entry
      check (!seen.contains text) twice
      permits text
      let rest ← distinctTexts read twice permits (seen ++ [text]) entries
      return text :: rest

/-- `_corpus_refs` -/
def readCorpusRefs (field : String) : Json → Checked (List String)
  | .arr entries => do
      check (1 ≤ entries.length && entries.length ≤ 8) (refused field "invalid_corpus_refs")
      distinctTexts (matching (refused field) isCorpusRef "invalid_corpus_refs") (refused field "duplicate_corpus_ref")
        (fun _ ↦ .ok ()) [] entries
  | _ => .error (refused field "invalid_corpus_refs")

/-- `_capture_ids` -/
def readCaptureIds (field : String) (limit : ℤ) : Json → Checked (List String)
  | .arr entries => do
      check (entries.length ≤ limit) (refused field "invalid_capture_ids")
      distinctTexts
        (matching (refused field) (fun text ↦ text.length ≤ maxCaptureIdChars && isCaptureId text) "invalid_capture_ids")
        (refused field "duplicate_capture_id") (fun _ ↦ .ok ()) [] entries
  | _ => .error (refused field "invalid_capture_ids")

section Reading

variable (P : Platform)

/-- `_instant`, and the text that it was read from. -/
def readInstant (field : String) : Json → Checked (String × Instant)
  | .str text =>
      match parseRfc3339 P.toInterpreter text with
      | some instant => .ok (text, instant)
      | none => .error (refused field "invalid_timestamp")
  | _ => .error (refused field "invalid_timestamp")

/-- The task of a binding. -/
def readTaskBinding (field : String) (fields : Dict String Json) : Checked TaskBinding := do
  let taskId ← matching (refused (field ++ ".task_id"))
    (fun text ↦ isTaskId P.toInterpreter text && text == P.upper text) "invalid_task_binding" (item fields "task_id")
  let taskUid ← canonicalUuid (refused (field ++ ".task_uid")) P (item fields "task_uid")
  let taskRevision ← exactInt (refused (field ++ ".task_revision")) 0 maxTaskRevision (item fields "task_revision")
  return ⟨taskUid, taskId, taskRevision⟩

/-- Whether an object has these keys and no other. -/
def hasKeys (allowed : List String) (fields : Dict String Json) : Bool :=
  (Dict.keys fields).all allowed.contains && allowed.all (Dict.keys fields).contains

/-- `_binding` -/
def readBinding (workspaceUid field : String) : Json → Checked Binding
  | .obj fields => do
      check (hasKeys bindingWorkspaceOnly fields || hasKeys bindingWithTask fields)
        (refused field "invalid_task_binding")
      let stored ← canonicalUuid (refused (field ++ ".workspace_uid")) P (item fields "workspace_uid")
      check (stored == workspaceUid) (refused (field ++ ".workspace_uid") "workspace_mismatch")
      if hasKeys bindingWorkspaceOnly fields then return ⟨stored, none⟩
      else
        let task ← readTaskBinding P field fields
        return ⟨stored, some task⟩
  | _ => .error (refused field "invalid_document")

/-- `_validate_connection` -/
def readConnection (field : String) (seen : List String) (value : Json) : Checked ConnectionPolicy := do
  let record ← closedObject (refused field) "invalid_document" connectionKeys value
  let connectionAlias ← matching (refused (field ++ ".alias")) isCorpusRef "invalid_alias" (item record "alias")
  check (!seen.contains connectionAlias) (refused (field ++ ".alias") "duplicate_connection")
  let upstream ← canonicalUuid (refused (field ++ ".upstream_workspace_uid")) P (item record "upstream_workspace_uid")
  let corpusRefs ← readCorpusRefs (field ++ ".corpus_refs") (item record "corpus_refs")
  let scope ← matching (refused (field ++ ".scope")) (· == connectionScope) "invalid_scope" (item record "scope")
  return ⟨connectionAlias, upstream, corpusRefs, scope⟩

/-- `field[index]` -/
def indexed (field : String) (index : ℕ) : String := field ++ "[" ++ toString index ++ "]"

def readConnections : ℕ → List String → List Json → Checked (List ConnectionPolicy)
  | _, _, [] => .ok []
  | index, seen, value :: values => do
      let connection ← readConnection P (indexed "connections" index) seen value
      let rest ← readConnections (index + 1) (connection.connectionAlias :: seen) values
      return connection :: rest

/-- `_current_policy_defect` -/
def currentPolicyDefect (connections : List ConnectionPolicy) (connectionAlias : String) (corpusRefs : List String) :
    Option String :=
  match connections.find? fun connection ↦ connection.connectionAlias == connectionAlias with
  | some connection => if corpusRefs.all connection.corpusRefs.contains then none else some "corpus_not_granted"
  | none => some "connection_not_found"

/-- `request_authority_is_current` -/
def requestAuthorityIsCurrent (ledger : Ledger) (record : RequestRecord) : Bool :=
  record.issued.policyRevision == ledger.policyRevision &&
    (currentPolicyDefect ledger.connections record.issued.connectionAlias record.issued.corpusRefs).isNone

/-- What is asked of a request that claims the policy in force. -/
def checkPolicy (field : String) (connections : List ConnectionPolicy) (current revision : ℤ)
    (connectionAlias : String) (corpusRefs : List String) : Checked Unit :=
  if revision = current then
    match currentPolicyDefect connections connectionAlias corpusRefs with
    | some "corpus_not_granted" => .error (refused (field ++ ".corpus_refs") "corpus_not_granted")
    | some defect => .error (refused (field ++ ".connection_alias") defect)
    | none => .ok ()
  else .ok ()

/-- The five minutes that a request may be active. -/
def checkWindow (refusal : Refusal) (requested expires : Instant) : Checked Unit := do
  check (requested.before expires) refusal
  check (requested.second + maxActiveSeconds ≤ lastSecond) .overflow
  check (!Instant.before ⟨requested.second + maxActiveSeconds, requested.fraction⟩ expires) refusal

def readNull (refusal : Refusal) : Json → Checked Unit
  | .null => .ok ()
  | _ => .error refusal

/-- What a record says of its completion, in its state. -/
def readCompletion (field state : String) (captureIds : List String) (record : Dict String Json) :
    Checked (Option Completion) :=
  if state = "pending" then do
    check captureIds.isEmpty (refused (field ++ ".capture_ids") "invalid_capture_ids")
    readNull (refused (field ++ ".completion_digest") "invalid_digest") (item record "completion_digest")
    readNull (refused (field ++ ".completed_at") "invalid_timestamp") (item record "completed_at")
    return none
  else do
    let digest ← matching (refused (field ++ ".completion_digest")) isDigest "invalid_digest"
      (item record "completion_digest")
    let completedAt ← readInstant P (field ++ ".completed_at") (item record "completed_at")
    return some ⟨captureIds, digest, completedAt.1⟩

/-- `_validate_request` -/
def readRequest (workspaceUid : String) (connections : List ConnectionPolicy) (policyRevision : ℤ) (field : String)
    (seen : List String) (value : Json) : Checked RequestRecord := do
  let record ← closedObject (refused field) "invalid_document" requestKeys value
  let requestId ← canonicalUuid (refused (field ++ ".request_id")) P (item record "request_id")
  check (!seen.contains requestId) (refused (field ++ ".request_id") "duplicate_request")
  let requestDigest ← matching (refused (field ++ ".request_digest")) isDigest "invalid_digest"
    (item record "request_digest")
  let connectionAlias ← matching (refused (field ++ ".connection_alias")) isCorpusRef "invalid_alias"
    (item record "connection_alias")
  let binding ← readBinding P workspaceUid (field ++ ".binding") (item record "binding")
  let corpusRefs ← readCorpusRefs (field ++ ".corpus_refs") (item record "corpus_refs")
  let revision ← exactInt (refused (field ++ ".policy_revision")) 0 policyRevision (item record "policy_revision")
  checkPolicy field connections policyRevision revision connectionAlias corpusRefs
  let resultLimit ← exactInt (refused (field ++ ".result_limit")) 1 10 (item record "result_limit")
  let requested ← readInstant P (field ++ ".requested_at") (item record "requested_at")
  let expires ← readInstant P (field ++ ".expires_at") (item record "expires_at")
  checkWindow (refused (field ++ ".expires_at") "invalid_request_window") requested.2 expires.2
  let state ← matching (refused (field ++ ".state")) requestStates.contains "invalid_state" (item record "state")
  let captureIds ← readCaptureIds (field ++ ".capture_ids") resultLimit (item record "capture_ids")
  let completion ← readCompletion P field state captureIds record
  return ⟨⟨requestId, requestDigest, connectionAlias, binding, corpusRefs, revision, resultLimit, requested.1,
    expires.1⟩, completion⟩

def readRequests (workspaceUid : String) (connections : List ConnectionPolicy) (policyRevision : ℤ) :
    ℕ → List String → List Json → Checked (List RequestRecord)
  | _, _, [] => .ok []
  | index, seen, value :: values => do
      let record ← readRequest P workspaceUid connections policyRevision (indexed "requests" index) seen value
      let rest ← readRequests workspaceUid connections policyRevision (index + 1) (record.issued.requestId :: seen)
        values
      return record :: rest

/-- Whether a value equals the version of the document: `true` and `1.0` are equal to it as well. -/
def isDocumentVersion : Json → Bool
  | .float lexeme => lexeme == "1.0"
  | value => value.same (.int 1)

/-- The items of a list that has at most so many. -/
def boundedList (field : String) (bound : ℕ) : Json → Checked (List Json)
  | .arr entries => if entries.length ≤ bound then .ok entries else .error (refused field "invalid_document")
  | _ => .error (refused field "invalid_document")

/-- `validate_knowledge_document`, and what it has read. -/
def readLedger (workspaceUid : String) (value : Json) : Checked Ledger := do
  check (workspaceUid != "") (refused "workspace_uid" "invalid_document")
  let document ← closedObject (refused "knowledge") "invalid_document" topKeys value
  check (isDocumentVersion (item document "version")) (refused "version" "unsupported_version")
  check (value.size ≤ maxKnowledgeBytes) (refused "knowledge" "document_too_large")
  let policyRevision ← exactInt (refused "policy_revision") 0 maxPolicyRevision (item document "policy_revision")
  let entries ← boundedList "connections" maxConnections (item document "connections")
  let connections ← readConnections P 0 [] entries
  let values ← boundedList "requests" maxRequests (item document "requests")
  let requests ← readRequests P workspaceUid connections policyRevision 0 [] values
  return ⟨item document "version", policyRevision, connections, requests⟩

/-! ## What was written is read back -/

variable {P}

theorem check_eq_ok {condition : Bool} {refusal : Refusal} {result : Unit} :
    check condition refusal = .ok result ↔ condition = true := by
  simp [check]

theorem distinctTexts_map_str {accepts : String → Bool} {code : String} {refuse : String → Refusal} {twice : Refusal}
    {permits : String → Checked Unit} {seen items result : List String}
    (h : distinctTexts (matching refuse accepts code) twice permits seen (items.map .str) = .ok result) :
    result = items := by
  induction items generalizing seen result with
  | nil => exact (Except.ok.inj h).symm
  | cons entry items ih =>
      simp only [List.map_cons, distinctTexts, bind_eq_ok, pure_eq_ok] at h
      obtain ⟨text, htext, -, -, -, -, rest, hrest, rfl⟩ := h
      rw [matching_str htext, ih hrest]

variable {field : String}

theorem readCorpusRefs_texts {items result : List String} (h : readCorpusRefs field (texts items) = .ok result) :
    result = items := by
  simp only [texts, readCorpusRefs, bind_eq_ok] at h
  obtain ⟨-, -, h⟩ := h
  exact distinctTexts_map_str h

theorem readCaptureIds_texts {limit : ℤ} {items result : List String}
    (h : readCaptureIds field limit (texts items) = .ok result) : result = items := by
  simp only [texts, readCaptureIds, bind_eq_ok] at h
  obtain ⟨-, -, h⟩ := h
  exact distinctTexts_map_str h

theorem readInstant_str {field text : String} {result : String × Instant}
    (h : readInstant P field (.str text) = .ok result) : result.1 = text := by
  cases hparse : parseRfc3339 P.toInterpreter text with
  | none => simp [readInstant, hparse] at h
  | some instant =>
      simp only [readInstant, hparse, Except.ok.injEq] at h
      rw [← h]

theorem readBinding_json {workspaceUid field : String} {binding result : Binding}
    (h : readBinding P workspaceUid field binding.json = .ok result) : result = binding := by
  rcases binding with ⟨uid, _ | task⟩
  · have hkeys : hasKeys bindingWorkspaceOnly [("workspace_uid", Json.str uid)] = true := by
      simp [hasKeys, bindingWorkspaceOnly, Dict.keys]
    simp only [Binding.json, readBinding, bind_eq_ok, hkeys, if_true, pure_eq_ok] at h
    obtain ⟨-, -, stored, hstored, -, -, rfl⟩ := h
    rw [canonicalUuid_str hstored]
  · have hkeys : hasKeys bindingWorkspaceOnly [("workspace_uid", Json.str uid), ("task_uid", .str task.taskUid),
        ("task_id", .str task.taskId), ("task_revision", .int task.taskRevision)] = false := by
      simp [hasKeys, bindingWorkspaceOnly, Dict.keys]
    simp only [Binding.json, readBinding, bind_eq_ok, hkeys, Bool.false_eq_true, if_false, pure_eq_ok] at h
    obtain ⟨-, -, stored, hstored, -, -, read, hread, rfl⟩ := h
    simp only [readTaskBinding, bind_eq_ok, pure_eq_ok] at hread
    obtain ⟨taskId, hid, taskUid, huid, revision, hrevision, rfl⟩ := hread
    rw [canonicalUuid_str hstored, matching_str hid, canonicalUuid_str huid, exactInt_int hrevision]

variable {seen : List String}

theorem readConnection_json {connection result : ConnectionPolicy}
    (h : readConnection P field seen connection.json = .ok result) : result = connection := by
  simp only [readConnection, ConnectionPolicy.json, bind_eq_ok, pure_eq_ok] at h
  obtain ⟨record, hrecord, name, hname, -, -, upstream, hupstream, refs, hrefs, scope, hscope, rfl⟩ := h
  cases closedObject_obj hrecord
  rw [matching_str hname, canonicalUuid_str hupstream, readCorpusRefs_texts hrefs, matching_str hscope]

theorem readConnections_map_json {index : ℕ} {connections result : List ConnectionPolicy}
    (h : readConnections P index seen (connections.map ConnectionPolicy.json) = .ok result) : result = connections := by
  induction connections generalizing index seen result with
  | nil => exact (Except.ok.inj h).symm
  | cons connection connections ih =>
      simp only [List.map_cons, readConnections, bind_eq_ok, pure_eq_ok] at h
      obtain ⟨read, hread, rest, hrest, rfl⟩ := h
      rw [readConnection_json hread, ih hrest]

/-- The completion that is read is the one that was written, with the ids that were read before it. -/
theorem readCompletion_json {field state : String} {record : RequestRecord} {result : Option Completion}
    {fields : Dict String Json} (hstate : state = record.state)
    (hdigest : item fields "completion_digest" = record.completionDigest)
    (hcompleted : item fields "completed_at" = record.completedAt)
    (h : readCompletion P field state record.captureIds fields = .ok result) : result = record.completion := by
  rcases record with ⟨issued, _ | completion⟩
  · have hpending : state = "pending" := hstate
    simp only [readCompletion, hpending, if_true, bind_eq_ok, pure_eq_ok] at h
    obtain ⟨-, -, -, -, -, -, rfl⟩ := h
    rfl
  · have hdone : state = "completed" := hstate
    simp only [readCompletion, hdone, String.reduceEq, if_false, bind_eq_ok, pure_eq_ok, hdigest, hcompleted] at h
    obtain ⟨digest, hdigest, completedAt, hcompletedAt, rfl⟩ := h
    rw [matching_str hdigest, readInstant_str hcompletedAt]
    rfl

variable {workspaceUid : String} {connections : List ConnectionPolicy} {policyRevision : ℤ}

theorem readRequest_json {record result : RequestRecord}
    (h : readRequest P workspaceUid connections policyRevision field seen record.json = .ok result) :
    result = record := by
  simp only [readRequest, RequestRecord.json, bind_eq_ok, pure_eq_ok] at h
  obtain ⟨fields, hfields, requestId, hid, -, -, digest, hdigest, name, hname, binding, hbinding, refs, hrefs,
    revision, hrevision, -, -, limit, hlimit, requested, hrequested, expires, hexpires, -, -, state, hstate,
    captureIds, hcaptureIds, completion, hcompletion, rfl⟩ := h
  cases closedObject_obj hfields
  cases readCaptureIds_texts hcaptureIds
  rw [canonicalUuid_str hid, matching_str hdigest, matching_str hname, readBinding_json hbinding,
    readCorpusRefs_texts hrefs, exactInt_int hrevision, exactInt_int hlimit, readInstant_str hrequested,
    readInstant_str hexpires, readCompletion_json (matching_str hstate) rfl rfl hcompletion]

theorem readRequests_map_json {index : ℕ} {records result : List RequestRecord}
    (h : readRequests P workspaceUid connections policyRevision index seen (records.map RequestRecord.json) =
      .ok result) :
    result = records := by
  induction records generalizing index seen result with
  | nil => exact (Except.ok.inj h).symm
  | cons record records ih =>
      simp only [List.map_cons, readRequests, bind_eq_ok, pure_eq_ok] at h
      obtain ⟨read, hread, rest, hrest, rfl⟩ := h
      rw [readRequest_json hread, ih hrest]

theorem boundedList_arr {bound : ℕ} {entries result : List Json}
    (h : boundedList field bound (.arr entries) = .ok result) : result = entries := by
  simp only [boundedList, ite_ok_eq_ok, Except.ok.injEq] at h
  exact h.2.symm

/-- A ledger that was written and is accepted is read back as it was. -/
theorem readLedger_json {ledger result : Ledger} (h : readLedger P workspaceUid ledger.json = .ok result) :
    result = ledger := by
  simp only [readLedger, Ledger.json, bind_eq_ok, pure_eq_ok] at h
  obtain ⟨-, -, document, hdocument, -, -, -, -, revision, hrevision, entries, hentries, connections, hconnections,
    values, hvalues, requests, hrequests, rfl⟩ := h
  cases closedObject_obj hdocument
  cases boundedList_arr hentries
  cases boundedList_arr hvalues
  rw [exactInt_int hrevision, readConnections_map_json hconnections, readRequests_map_json hrequests]
  rfl

/-! ## What an accepted document holds -/

theorem requestId_of_readRequest {value : Json} {record : RequestRecord}
    (h : readRequest P workspaceUid connections policyRevision field seen value = .ok record) :
    record.issued.requestId ∉ seen := by
  simp only [readRequest, bind_eq_ok, pure_eq_ok, check_eq_ok] at h
  obtain ⟨fields, -, requestId, -, -, hseen, digest, -, name, -, binding, -, refs, -, revision, -, -, -, limit, -,
    requested, -, expires, -, -, -, state, -, captureIds, -, completion, -, rfl⟩ := h
  simpa using hseen

/-- The requests on record have distinct ids. -/
theorem nodup_of_readRequests {index : ℕ} {values : List Json} {records : List RequestRecord}
    (h : readRequests P workspaceUid connections policyRevision index seen values = .ok records) :
    (records.map fun record ↦ record.issued.requestId).Nodup ∧
      ∀ record ∈ records, record.issued.requestId ∉ seen := by
  induction values generalizing index seen records with
  | nil =>
      cases h
      simp
  | cons value values ih =>
      simp only [readRequests, bind_eq_ok, pure_eq_ok] at h
      obtain ⟨record, hrecord, rest, hrest, rfl⟩ := h
      obtain ⟨hnodup, hnew⟩ := ih hrest
      constructor
      · rw [List.map_cons, List.nodup_cons]
        refine ⟨?_, hnodup⟩
        intro hmem
        obtain ⟨other, hother, heq⟩ := List.mem_map.mp hmem
        exact hnew other hother (by simp [heq])
      · intro other hother
        rcases List.mem_cons.mp hother with rfl | hother
        · exact requestId_of_readRequest hrecord
        · have hnot := hnew other hother
          exact fun hmem ↦ hnot (List.mem_cons_of_mem _ hmem)

theorem nodup_of_readLedger {value : Json} {ledger : Ledger} (h : readLedger P workspaceUid value = .ok ledger) :
    (ledger.requests.map fun record ↦ record.issued.requestId).Nodup := by
  simp only [readLedger, bind_eq_ok, pure_eq_ok] at h
  obtain ⟨-, -, document, -, -, -, -, -, revision, -, entries, -, connections, -, values, -, requests, hrequests,
    rfl⟩ := h
  exact (nodup_of_readRequests hrequests).1

end Reading

end WorkStack.Knowledge
