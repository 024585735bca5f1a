import WorkStack.Python.Equality
import WorkStack.Service.Domain

/-!
# The ledger of keyed intents

One replay rule serves every keyed command. A key that is bound to another method, path or request
digest is a conflict, and a matching key returns the response that was stored with it, or the reply
it refers to as it is now.
-/

namespace WorkStack.Service

open Effect.Outcome Python

/-- `{"status": …, "body": …}` -/
structure Response where
  status : ℤ
  body : Record

/-- What a request comes to: its response and the documents it saved, if it saved any. -/
structure Served where
  response : Response
  saved : Option Documents

/-- What a keyed command asks for, as the ledger sees it. -/
structure Intent where
  key : String
  method : String
  path : String
  requestDigest : Store.Digest
  deriving DecidableEq

/-- What a ledger record keeps of the response: its body, or the reply it is projected from. -/
inductive StoredResponse where
  | frozen (body : Record)
  | reply (id : Json) (responseMeta : Option Record)

/-! ## Appending -/

/-- `activity.setdefault(name, []).append(record)` -/
def appendTo (activity : Record) (name : String) (record : Record) : Checked Record := do
  let records ← listAt activity name
  pure (activity.set name (.arr (records ++ [.obj record])))

def StoredResponse.fields : StoredResponse → Record
  | frozen body => [("response_body", .obj body)]
  | reply id none => [("response_ref", .obj [("kind", .str "reply"), ("id", id)])]
  | reply id (some responseMeta) => [("response_ref", .obj [("kind", .str "reply"), ("id", id)]),
      ("response_meta", .obj responseMeta)]

def ledgerRecord (intent : Intent) (status : ℤ) (createdAt : String) (response : StoredResponse) : Record :=
  [("key", .str intent.key), ("method", .str intent.method), ("path", .str intent.path),
    ("request_digest", intent.requestDigest.toJson), ("response_status", .int status),
    ("created_at", .str createdAt)] ++ response.fields

/-- `_record_idempotency` -/
def recordIdempotency (activity : Record) (intent : Intent) (status : ℤ) (createdAt : String)
    (response : StoredResponse) : Checked Record :=
  appendTo activity "idempotency" (ledgerRecord intent status createdAt response)

/-- What an activity event is about. -/
structure EventSubject where
  captureId : Option Json := none
  taskId : Option Json := none
  replyId : Option Json := none

def EventSubject.fields (subject : EventSubject) : Record :=
  (subject.captureId.map fun id ↦ ("capture_id", id)).toList ++
    (subject.taskId.map fun id ↦ ("task_id", id)).toList ++
    (subject.replyId.map fun id ↦ ("reply_id", id)).toList

/-- `_event` -/
def recordEvent (I : Interpreter) (activity : Record) (eventType : String) (subject : EventSubject)
    (details : Record) (createdAt : String) : Checked Record := do
  let events ← listAt activity "activity"
  let id ← nextId I events ['E'] 6
  appendTo activity "activity" ([("id", .str id), ("type", .str eventType), ("created_at", .str createdAt),
    ("details", .obj details)] ++ subject.fields)

/-! ## Replaying -/

def isKeyChar (c : Char) : Bool :=
  ('a' ≤ c && c ≤ 'z') || ('A' ≤ c && c ≤ 'Z') || c.isDigit || c == '.' || c == '_' || c == ':' || c == '-'

/-- `_validate_idempotency_key` -/
def validateIdempotencyKey (key : String) : Checked Unit :=
  if 8 ≤ key.length ∧ key.length ≤ 128 ∧ key.toList.all isKeyChar then .ok ()
  else domainError "Idempotency-Key must match [A-Za-z0-9._:-]\x7b8,128\x7d"
    [("header", .str "Idempotency-Key")]

def replyFields : List String :=
  ["id", "task_id", "capture_id", "capture_revision", "provider", "capability", "target", "body",
    "body_digest", "target_digest", "state", "approved_at", "receipt", "created_at", "updated_at"]

/-- The named fields of a record. -/
def project (record : Record) : List String → Checked Record
  | [] => .ok []
  | name :: names => do
      let value ← field record name
      let rest ← project record names
      pure ((name, value) :: rest)

/-- `_project_reply` -/
def projectReply (reply : Record) : Checked Record := project reply replyFields

/-- `body.setdefault("meta", {})["replayed"] = True` -/
def markReplayed (body : Record) : Checked Record := do
  let responseMeta ← recordAt body "meta" []
  pure (body.set "meta" (.obj (responseMeta.set "replayed" (.bool true))))

/-- The body a ledger record stands for. -/
def storedBody (I : Interpreter) (replies : Record) (record : Record) : Checked Record :=
  match valueAt record "response_ref" with
  | .null => do
      let body ← field record "response_body"
      asRecord body
  | .obj reference =>
      match Json.same (.str "reply") (valueAt reference "kind"), valueAt reference "id" with
      | true, .str id => do
          let records ← listAt replies "replies"
          let (_, reply) ← find I records id "reply"
          let data ← projectReply reply
          match valueAt record "response_meta" with
          | .obj (field :: fields) => pure [("data", .obj data), ("meta", .obj (field :: fields))]
          | _ => pure [("data", .obj data)]
      | _, _ => domainError "stored idempotency response reference is invalid"
  | _ => domainError "stored idempotency response reference is invalid"

/-- Whether a ledger record was made by this very intent. -/
def sameIntent (record : Record) (intent : Intent) : Bool :=
  Json.same (.str intent.method) (valueAt record "method") &&
    Json.same (.str intent.path) (valueAt record "path") &&
    Json.same intent.requestDigest.toJson (valueAt record "request_digest")

def replayFrom (I : Interpreter) (replies : Record) (intent : Intent) : List Json → Checked (Option Response)
  | [] => .ok none
  | candidate :: rest => do
      let record ← asRecord candidate
      if Json.same (.str intent.key) (valueAt record "key") then
        if sameIntent record intent then
          let body ← storedBody I replies record
          let body ← markReplayed body
          pure (some ⟨200, body⟩)
        else
          .error (.domain "idempotency_conflict" "Idempotency-Key was already used for a different request"
            [("key", .str intent.key)])
      else replayFrom I replies intent rest

/-- `_idempotency_replay` -/
def idempotencyReplay (I : Interpreter) (activity replies : Record) (intent : Intent) :
    Checked (Option Response) := do
  validateIdempotencyKey intent.key
  let records ← listAt activity "idempotency"
  replayFrom I replies intent records

/-- A keyed command replays an earlier response, or else does its work. -/
def keyed (I : Interpreter) (documents : Documents) (intent : Intent) (work : Checked Served) :
    Checked Served := do
  match ← idempotencyReplay I documents.activity documents.replies intent with
  | some response => pure ⟨response, none⟩
  | none => work

theorem keyed_saved {I : Interpreter} {documents after : Documents} {intent : Intent}
    {work : Checked Served} {response : Response}
    (h : keyed I documents intent work = .ok ⟨response, some after⟩) :
    work = .ok ⟨response, some after⟩ := by
  obtain ⟨replay, -, h⟩ := bind_eq_ok.mp h
  cases replay with
  | some earlier => cases h
  | none => exact h

end WorkStack.Service
