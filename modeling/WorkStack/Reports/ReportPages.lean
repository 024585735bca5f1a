import WorkStack.Effect.Paging
import WorkStack.Python.Base64
import WorkStack.Python.Sorting
import WorkStack.Reports.Document
import WorkStack.Streams.Canonical

/-!
# Pages of reports

The reports of a document are listed from the latest update on, those of one update by their uid, fifty at a time.
The cursor of a page carries the update and the uid of its last report, bound to the workspace and the filter by a
digest. A cursor is accepted only in the one form that it is written in.
-/

open WorkStack.Python WorkStack.Effect.Refusing WorkStack.Effect.Paging

namespace WorkStack.Reports

/-- `ReportQueryError`, and the refusals of the document. -/
inductive ListRefusal where
  | query (code field : String)
  | document (refusal : Refusal)

abbrev Listed := Except ListRefusal

def listPageSize : ℕ := 50

def cursorVersion : ℤ := 1

def minCursorChars : ℕ := 64

def maxCursorChars : ℕ := 256

def maxCursorBytes : ℕ := 192

/-- `_FILTERS` -/
def filterStates : String → Option (List String)
  | "active" => some ["draft", "finalized"]
  | "archived" => some ["archived"]
  | "all" => some ["draft", "finalized", "archived"]
  | _ => none

def cursorKeys : List String := ["binding", "uid", "updated_at", "v"]

/-- `_refuse_query` -/
def refuseQuery {α : Type} (code field : String) : Listed α := .error (.query code field)

def cursorInvalid {α : Type} : Listed α := refuseQuery "report_cursor_invalid" "cursor"

section Cursor

variable (L : Library)

/-! ## Cursors -/

/-- `_binding` -/
def bindingOf (owner state : String) : String :=
  (L.sha256 (Json.compactJson (.obj [("state", .str state), ("workspace_uid", .str owner)]))).hex

/-- `_BINDING` -/
def isBinding (text : String) : Bool := Streams.fits (Streams.isHexRun 64) text.toList

/-- `_encode_payload` -/
def encodePayload (payload : Dict String Json) : String :=
  String.ofList (Base64.encode (Json.compactJson (.obj payload)))

def cursorPayload (binding uid updatedAt : String) : Dict String Json :=
  [("binding", .str binding), ("uid", .str uid), ("updated_at", .str updatedAt), ("v", .int cursorVersion)]

/-- `_encode_cursor` -/
def encodeCursor (owner state updatedAt uid : String) : String :=
  encodePayload (cursorPayload (bindingOf L owner state) uid updatedAt)

/-- `_cursor_bytes` -/
def cursorBytes (cursor : String) : Listed Bytes :=
  if ¬(minCursorChars ≤ cursor.length ∧ cursor.length ≤ maxCursorChars) then cursorInvalid
  else if ¬cursor.toList.all (Base64.alphabet.contains ·) then cursorInvalid
  else
    match Base64.decode cursor.toList with
    | some raw => if 1 ≤ raw.length ∧ raw.length ≤ maxCursorBytes then .ok raw else cursorInvalid
    | none => cursorInvalid

/-- `_payload_from_raw` -/
def payloadFromRaw (raw : Bytes) : Listed (Dict String Json) :=
  match (Base64.decodeUtf8 raw).bind L.loads with
  | some (.obj payload) => if hasKeys cursorKeys payload then .ok payload else cursorInvalid
  | _ => cursorInvalid

/-- The binding, the uid and the update of a payload whose fields `_require_payload_fields` accepts. -/
def payloadFields (payload : Dict String Json) : Listed (String × String × String) :=
  match item payload "v", item payload "binding", item payload "uid", item payload "updated_at" with
  | .int version, .str binding, .str uid, .str updatedAt =>
      if version = cursorVersion ∧ isBinding binding ∧ isUuid4 uid ∧ isStamp L.toInterpreter updatedAt then
        .ok (binding, uid, updatedAt)
      else cursorInvalid
  | _, _, _, _ => cursorInvalid

/-- `_admit_cursor` -/
def admitCursor (cursor : String) : Listed (String × String × String) := do
  let raw ← cursorBytes cursor
  let payload ← payloadFromRaw L raw
  let fields ← payloadFields L payload
  if encodePayload payload = cursor then pure fields else cursorInvalid

/-- `_decode_cursor`: the update and the uid of the last report that was shown. -/
def decodeCursor (cursor owner state : String) : Listed (String × String) := do
  let (binding, uid, updatedAt) ← admitCursor L cursor
  if binding = bindingOf L owner state then pure (updatedAt, uid) else cursorInvalid

/-! ## Pages -/

/-- `_list_item` -/
def listItem (report : Report) : Dict String Json := [
  ("uid", .str report.uid),
  ("template", .str report.template),
  ("period", report.period),
  ("state", .str report.state.text),
  ("revision", .int report.revision),
  ("content_revision", (report.revisions.getLast?.map fun entry ↦ Json.int entry.contentRevision).getD .null),
  ("source_digest", .str report.sourceDigest),
  ("archived_from_state", item report.state.archiveFields "archived_from_state"),
  ("created_at", .str report.createdAt),
  ("updated_at", .str report.updatedAt)]

/-- Whether a report is one of those a filter wants. -/
def isWanted (wanted : List String) (report : Report) : Bool := wanted.contains report.state.text

/-- `_ordered`: a sort by the uid, and then by the update from the latest on. -/
def ordered (reports : List Report) (wanted : List String) : List Report :=
  ((reports.filter (isWanted wanted)).insertionSort fun a b ↦ a.uid ≤ b.uid).insertionSort
    fun a b ↦ b.updatedAt ≤ a.updatedAt

/-- `_start_index` -/
def startIndex (listed : List Report) : Option (String × String) → Listed ℕ
  | none => .ok 0
  | some anchor =>
      match (listed.map fun report ↦ (report.updatedAt, report.uid)).idxOf? anchor with
      | some index => .ok (index + 1)
      | none => cursorInvalid

structure Page where
  workspaceUid : String
  reports : List (Dict String Json)
  omittedCount : ℕ
  cursor : Option String

/-- `_paginate` -/
def paginate (listed : List Report) (start : ℕ) (owner state : String) : Page :=
  let shown := (listed.drop start).take listPageSize
  let omitted := listed.length - start - shown.length
  ⟨owner, shown.map listItem, omitted,
    if 0 < omitted then shown.getLast?.map fun last ↦ encodeCursor L owner state last.updatedAt last.uid else none⟩

/-- `_admit_owner` -/
def admitOwner : Json → Listed String
  | .str text => if isUuidAny text then .ok text else refuseQuery "invalid_query" "workspace_uid"
  | _ => refuseQuery "invalid_query" "workspace_uid"

/-- `_admit_state`, and what the filter wants. -/
def admitState : Json → Listed (String × List String)
  | .str state => (filterStates state).elim (refuseQuery "invalid_query" "state") fun wanted ↦ .ok (state, wanted)
  | _ => refuseQuery "invalid_query" "state"

/-- `_admit_limit` -/
def admitLimit : Json → Listed Unit
  | .int limit => if limit = listPageSize then .ok () else refuseQuery "invalid_query" "limit"
  | _ => refuseQuery "invalid_query" "limit"

/-- `_admit_cursor_arg` -/
def admitCursorArg : Json → Listed (Option String)
  | .null => .ok none
  | .str cursor => .ok (some cursor)
  | _ => refuseQuery "invalid_query" "cursor"

/-- `list_report_documents` -/
def listReportDocuments (document workspaceUid state limit cursor : Json) : Listed Page := do
  let owner ← admitOwner workspaceUid
  let (state, wanted) ← admitState state
  admitLimit limit
  let token ← admitCursorArg cursor
  let anchor ← token.elim (.ok none) fun cursor ↦ (decodeCursor L cursor owner state).map some
  let top ← (readDocument L owner document).mapError ListRefusal.document
  let listed := ordered top.reports wanted
  let start ← startIndex listed anchor
  pure (paginate L listed start owner state)

end Cursor

end WorkStack.Reports
