import WorkStack.Knowledge.Document

/-!
# The request on the wire

A request for evidence comes as a document of its own. It carries no authority: the workspace, the task
that is open, the corpora that are granted and the clock come from the owner, and whatever the document
says is held against them.
-/

open WorkStack.Python WorkStack.Effect.Refusing

namespace WorkStack.Knowledge

/-- `ActiveTask` -/
structure ActiveTask where
  taskUid : String
  taskId : String
  taskRevision : ℤ
  deriving DecidableEq

/-- `RequestAuthority` -/
structure RequestAuthority where
  workspaceUid : String
  grantedCorpusRefs : List String
  now : String
  activeTask : Option ActiveTask

/-- What the validator returns of a request. -/
structure Projection where
  requestId : String
  binding : Binding
  purpose : String
  query : String
  corpusRefs : List String
  resultLimit : ℤ
  requestedAt : String
  expiresAt : String

def requestSchema : String := "workstack.knowledge-request.v1"

def maxQueryChars : ℕ := 1000

def maxTimestampChars : ℕ := 64

def purposes : List String := ["find_context", "extract_actions", "refresh_capture"]

def envelopeFields : List String :=
  ["schema", "request_id", "binding", "purpose", "query", "corpus_refs", "result_limit", "requested_at", "expires_at"]

/-- `CREDENTIAL_VALUE_RE` -/
def credentialValuePattern : String :=
  "(?ix)(?:\\b(?:bearer|basic)\\s+[A-Za-z0-9._~+/=-]\x7b12,\x7d" ++
  "|(?<![A-Za-z0-9])(?:(?:access|refresh|id|oauth)[_.-]?token|" ++
  "client[_.-]?(?:secret|assertion)|authorization|bearer|token|" ++
  "password|passwd|api[_.-]?key|secret|saml[_.-]?response" ++
  ")(?![A-Za-z0-9])[\"']?\\s*[:=]\\s*[\"']?[A-Za-z0-9._~+/=-]\x7b12,\x7d" ++
  "|\\beyJ[A-Za-z0-9_-]\x7b8,\x7d\\.[A-Za-z0-9_-]\x7b8,\x7d\\.[A-Za-z0-9_-]\x7b8,\x7d\\b" ++
  "|-----BEGIN\\s+[A-Z ]*PRIVATE\\s+KEY-----)"

namespace Projection

def json (projection : Projection) : Json := .obj [
  ("schema", .str requestSchema),
  ("request_id", .str projection.requestId),
  ("binding", projection.binding.json),
  ("purpose", .str projection.purpose),
  ("query", .str projection.query),
  ("corpus_refs", texts projection.corpusRefs),
  ("result_limit", .int projection.resultLimit),
  ("requested_at", .str projection.requestedAt),
  ("expires_at", .str projection.expiresAt)]

end Projection

/-- `KnowledgeRequestError(code, field)` -/
def wireRefused (field code : String) : Refusal := .request code (some field)

section Wire

variable (L : Library)

/-- The rounds that are left of `decoded_for_validation`. -/
def decodeRounds : ℕ → String → Option String
  | 0, decoded => if L.unquote decoded = decoded then some decoded else none
  | rounds + 1, decoded =>
      if L.unquote decoded = decoded then some decoded else decodeRounds rounds (L.unquote decoded)

/-- `decoded_for_validation` -/
def decodedForValidation (text : String) : Option String := decodeRounds L 5 text

/-- `_control_character` -/
def isControlCharacter (c : Char) : Bool :=
  c.toNat < 32 || c.toNat == 127 || (0x80 ≤ c.toNat && c.toNat ≤ 0x9F)

/-- `_query` -/
def readQuery : Json → Checked String
  | .str text => do
      let query := L.strip text
      check (query != "" && query.length ≤ maxQueryChars) (wireRefused "query" "invalid_query")
      check (!query.toList.any isControlCharacter) (wireRefused "query" "invalid_query")
      match decodedForValidation L query with
      | none => .error (wireRefused "query" "invalid_query")
      | some decoded =>
          check (!L.search credentialValuePattern decoded) (wireRefused "query" "credential_material_suspected")
          return query
  | _ => .error (wireRefused "query" "invalid_query")

/-- `_corpus_refs` of a request -/
def readGrantedRefs (granted : List String) : Json → Checked (List String)
  | .arr entries => do
      check (1 ≤ entries.length && entries.length ≤ 8) (wireRefused "corpus_refs" "invalid_corpus_refs")
      distinctTexts (matching (wireRefused "corpus_refs") isCorpusRef "invalid_corpus_refs")
        (wireRefused "corpus_refs" "duplicate_corpus_ref")
        (fun text ↦ check (granted.contains text) (wireRefused "corpus_refs" "corpus_not_granted")) [] entries
  | _ => .error (wireRefused "corpus_refs" "invalid_corpus_refs")

/-- `_task_binding` -/
def readActiveBinding (fields : Dict String Json) : Option ActiveTask → Checked TaskBinding
  | none => .error (wireRefused "binding" "task_binding_mismatch")
  | some active => do
      let taskUid ← canonicalUuid (wireRefused "binding.task_uid") L.toPlatform (item fields "task_uid")
      let taskId ← matching (wireRefused "binding.task_id") (isTaskId L.toInterpreter) "invalid_task_binding"
        (item fields "task_id")
      let revision ← exactInt (wireRefused "binding.task_revision") 0 maxTaskRevision (item fields "task_revision")
      check (taskUid == active.taskUid && L.upper taskId == L.upper active.taskId && revision == active.taskRevision)
        (wireRefused "binding" "task_binding_mismatch")
      return ⟨taskUid, L.upper taskId, revision⟩

/-- `_binding` of a request -/
def readRequestBinding (authority : RequestAuthority) : Json → Checked Binding
  | .obj fields => do
      check (hasKeys bindingWorkspaceOnly fields || hasKeys bindingWithTask fields)
        (wireRefused "binding" "invalid_task_binding")
      let workspaceUid ← canonicalUuid (wireRefused "binding.workspace_uid") L.toPlatform (item fields "workspace_uid")
      let owner ← canonicalUuid (wireRefused "workspace_uid") L.toPlatform (.str authority.workspaceUid)
      check (workspaceUid == owner) (wireRefused "binding.workspace_uid" "workspace_mismatch")
      if hasKeys bindingWorkspaceOnly fields then
        check authority.activeTask.isNone (wireRefused "binding" "task_binding_required")
        return ⟨workspaceUid, none⟩
      else
        let task ← readActiveBinding L fields authority.activeTask
        return ⟨workspaceUid, some task⟩
  | _ => .error (wireRefused "binding" "invalid_request")

/-- `_instant` of a request -/
def wireInstant (field : String) : Json → Checked (String × Instant)
  | .str text =>
      if text.length ≤ maxTimestampChars then
        match parseRfc3339 L.toInterpreter text with
        | some instant => .ok (text, instant)
        | none => .error (wireRefused field "invalid_timestamp")
      else .error (wireRefused field "invalid_timestamp")
  | _ => .error (wireRefused field "invalid_timestamp")

/-- `validate_knowledge_request` -/
def validateKnowledgeRequest (document : Json) (authority : RequestAuthority) : Checked Projection := do
  let root ← closedObject (wireRefused "request") "invalid_request" envelopeFields document
  check ((item root "schema").same (.str requestSchema)) (wireRefused "schema" "unsupported_schema")
  let requestId ← canonicalUuid (wireRefused "request_id") L.toPlatform (item root "request_id")
  let binding ← readRequestBinding L authority (item root "binding")
  let purpose ← matching (wireRefused "purpose") purposes.contains "invalid_purpose" (item root "purpose")
  let query ← readQuery L (item root "query")
  let corpusRefs ← readGrantedRefs authority.grantedCorpusRefs (item root "corpus_refs")
  let resultLimit ← exactInt (wireRefused "result_limit") 1 10 (item root "result_limit")
  let requested ← wireInstant L "requested_at" (item root "requested_at")
  let expires ← wireInstant L "expires_at" (item root "expires_at")
  checkWindow (wireRefused "expires_at" "invalid_request_window") requested.2 expires.2
  let now ← wireInstant L "now" (.str authority.now)
  check (!now.2.before requested.2) (wireRefused "requested_at" "request_not_yet_active")
  check (now.2.before expires.2) (wireRefused "expires_at" "request_expired")
  return ⟨requestId, binding, purpose, query, corpusRefs, resultLimit, requested.1, expires.1⟩

/-- `is_expired` -/
def isExpired (expiresAt now : String) : Checked Bool := do
  let expires ← wireInstant L "expires_at" (.str expiresAt)
  let current ← wireInstant L "now" (.str now)
  return !current.2.before expires.2

/-- `request_digest` -/
def requestDigest (projection : Projection) : String := (L.sha256 (Json.compactJson projection.json)).text

end Wire

end WorkStack.Knowledge
