import WorkStack.Effect.Receipts
import WorkStack.Effect.Refusing
import WorkStack.Python.Platform
import WorkStack.Python.Timestamps
import WorkStack.Streams.EventContract
import WorkStack.Streams.Sizes

/-!
# The document of reports

The document holds the reports of a workspace, each with the history that was authored, and the receipts
of the commands that were answered. The validator reads all of it and repairs nothing: what it accepts is
read into a document, and what it does not accept is refused at the first place that is wrong.
-/

open WorkStack.Python WorkStack.Effect.Refusing

namespace WorkStack.Reports

/-- What the reports take from the libraries. -/
structure Library extends Platform where
  /-- `datetime.strptime(text, "%Y-%m-%dT%H:%M:%SZ")`, in seconds. -/
  strptime : String → Option ℤ
  /-- Whether a floating-point number is neither infinite nor undefined. -/
  isFinite : String → Bool

/-- `ReportDocumentError`, and the failure of a callback. -/
inductive Refusal where
  | report (code : String) (field : String) (retryAfterSeconds : Option ℤ)
  | callback
  deriving DecidableEq, Repr

abbrev Checked := Except Refusal

/-- `_refuse` -/
def refused (code field : String) : Refusal := .report code field none

def invalid (field : String) : Refusal := refused "report_body_invalid" field

def check (condition : Bool) (refusal : Refusal) : Checked Unit := if condition then .ok () else .error refusal

def maxReportContentRevisions : ℕ := 20

def maxReportDocuments : ℕ := 500

def maxReportsBytes : ℕ := 8 * 1024 * 1024

def reportLedgerMaxRecords : ℕ := 1000

def retentionSeconds : ℤ := 30 * 86400

def maxLedgerRecordBytes : ℕ := 192 * 1024

def maxReportDocumentRevision : ℤ := 9007199254740991

def maxReportNoteChars : ℕ := 240

def maxReportNoteBytes : ℕ := 1024

def maxMarkdownChars : ℕ := 100000

def maxReportJsonDepth : ℕ := 16

def templateDailyV1 : String := "daily-v1"

def topKeys : List String := ["version", "reports", "idempotency"]

def reportKeys : List String :=
  ["uid", "workspace_uid", "template", "period", "source_digest", "source_generated_at", "state", "revision",
    "archived_from_state", "archived_at", "archive_note", "revisions", "created_at", "updated_at"]

def contentKeys : List String := ["content_revision", "document_revision", "markdown", "authored_at", "note"]

def ledgerKeys : List String :=
  ["key", "method", "path", "request_digest", "response_status", "response_body", "created_at"]

def periodKeys : List String := ["kind", "date"]

def bodyKeys : List String := ["data", "meta"]

def metaKeys : List String := ["replayed"]

def ledgerMethod : String := "POST"

def periodKind : String := "day"

/-! ## Texts -/

/-- `_UUID4` -/
def isUuid4 (text : String) : Bool :=
  Streams.fits (Streams.isHexRun 8 ++ Streams.isDash :: Streams.isHexRun 4 ++ Streams.isDash :: (· == '4') ::
    Streams.isHexRun 3 ++ Streams.isDash :: ("89ab".toList.contains ·) :: Streams.isHexRun 3 ++ Streams.isDash ::
    Streams.isHexRun 12) text.toList

/-- `_UUID_ANY` -/
def isUuidAny (text : String) : Bool :=
  Streams.fits (Streams.isHexRun 8 ++ Streams.isDash :: Streams.isHexRun 4 ++ Streams.isDash ::
    Streams.isHexRun 4 ++ Streams.isDash :: ("89ab".toList.contains ·) :: Streams.isHexRun 3 ++ Streams.isDash ::
    Streams.isHexRun 12) text.toList

/-- `_DIGEST` -/
def isDigest (text : String) : Bool :=
  text.toList.take 7 == "sha256:".toList && Streams.fits (Streams.isHexRun 64) (text.toList.drop 7)

/-- `_LEDGER_KEY` -/
def isLedgerKey (text : String) : Bool :=
  8 ≤ text.length && text.length ≤ 128 &&
    text.toList.all fun c ↦ c.isAlphanum || c == '.' || c == '_' || c == ':' || c == '-'

/-- `_INSTANT` -/
def isInstant (P : Interpreter) (text : String) : Bool := (rfc3339Fraction P text).isSome

/-! ## Values -/

section Values

variable (L : Library)

mutual

/-- `_walk`, below so many open containers. -/
def isSafe (depth : ℕ) : Json → Bool
  | .float lexeme => L.isFinite lexeme
  | .arr items => depth < maxReportJsonDepth && areSafe (depth + 1) items
  | .obj fields => depth < maxReportJsonDepth && fieldsSafe (depth + 1) fields
  | _ => true

def areSafe (depth : ℕ) : List Json → Bool
  | [] => true
  | item :: items => isSafe depth item && areSafe depth items

def fieldsSafe (depth : ℕ) : List (String × Json) → Bool
  | [] => true
  | field :: fields => fieldSafe depth field && fieldsSafe depth fields

def fieldSafe (depth : ℕ) : String × Json → Bool
  | (_, value) => isSafe depth value

end

/-- `_json_safe` -/
def jsonSafe (value : Json) (field : String) : Checked Unit := check (isSafe L 0 value) (invalid field)

/-- `record[key]` of a key that is there. -/
def item (fields : Dict String Json) (key : String) : Json := (Dict.get fields key).getD .null

/-- Whether an object has these keys, each once, and no other. -/
def hasKeys (allowed : List String) (fields : Dict String Json) : Bool :=
  decide (Dict.keys fields).Nodup && (Dict.keys fields).all allowed.contains && allowed.all (Dict.keys fields).contains

/-- `_exact_dict` -/
def exactDict (keys : List String) (field : String) : Json → Checked (Dict String Json)
  | .obj fields => if hasKeys keys fields then .ok fields else .error (invalid field)
  | _ => .error (invalid field)

/-- `_exact_str` -/
def exactStr (field : String) : Json → Checked String
  | .str text => .ok text
  | _ => .error (invalid field)

/-- `_exact_int` -/
def exactInt (field : String) : Json → Checked ℤ
  | .int value => .ok value
  | _ => .error (invalid field)

/-- A list of at most so many items. -/
def exactList (bound : ℕ) (field : String) : Json → Checked (List Json)
  | .arr items => if items.length ≤ bound then .ok items else .error (invalid field)
  | _ => .error (invalid field)

/-- `_matched` -/
def matched (accepts : String → Bool) (field : String) : Json → Checked String
  | .str text => if accepts text then .ok text else .error (invalid field)
  | _ => .error (invalid field)

/-- The moment of a canonical stamp. -/
def momentOf (text : String) : Option ℤ := if isStamp L.toInterpreter text then L.strptime text else none

/-- `_moment`, and the text that it was read from. -/
def moment (field : String) : Json → Checked (String × ℤ)
  | .str text =>
      match momentOf L text with
      | some time => .ok (text, time)
      | none => .error (invalid field)
  | _ => .error (invalid field)

/-- `_instant` -/
def instant (field : String) : Json → Checked String :=
  matched (fun text ↦ isInstant L.toInterpreter text && (L.fromIsoFormat text).isSome) field

/-- `_day` -/
def day (field : String) : Json → Checked String :=
  matched (fun text ↦ L.isDateShape text && isIsoDate text) field

/-- `_markdown` -/
def markdownOf : Json → Checked String := matched (fun text ↦ text.length ≤ maxMarkdownChars) "markdown"

/-- `_note` -/
def noteOf : Json → Checked (Option String)
  | .null => .ok none
  | value => do
      let text ← matched (fun text ↦ text.length ≤ maxReportNoteChars &&
        (Json.utf8 text.toList).length ≤ maxReportNoteBytes) "note" value
      return some text

/-- `_template` -/
def templateOf (value : Json) : Checked String := do
  let text ← exactStr "template" value
  check (text == templateDailyV1) (refused "report_template_unsupported" "template")
  return text

/-- `_period` -/
def periodOf (value : Json) : Checked (String × String) := do
  let period ← exactDict periodKeys "period" value
  let kind ← exactStr "period" (item period "kind")
  check (kind == periodKind) (invalid "period")
  let date ← day L "period" (item period "date")
  return (periodKind, date)

/-! ## What the document holds -/

/-- One authored version of a report. -/
structure Entry where
  contentRevision : ℤ
  documentRevision : ℤ
  markdown : String
  authoredAt : String
  note : Option String
  deriving DecidableEq

/-- How an archived report can come back. -/
inductive Standing where
  | draft
  | finalized
  deriving DecidableEq, Repr

inductive ReportState where
  | active (standing : Standing)
  | archived (former : Standing) (archivedAt : String) (note : Option String)
  deriving DecidableEq, Repr

/-- A report. The period of an archived one is not looked at, so it is held as it is. -/
structure Report where
  uid : String
  workspaceUid : String
  template : String
  period : Json
  sourceDigest : String
  sourceGeneratedAt : String
  state : ReportState
  revision : ℤ
  revisions : List Entry
  createdAt : String
  updatedAt : String

/-- A command that was answered. -/
structure Receipt where
  key : String
  path : String
  requestDigest : String
  responseStatus : ℤ
  data : Dict String Json
  createdAt : String

structure Document where
  reports : List Report
  idempotency : List Receipt

def textOrNull (value : Option String) : Json := (value.map Json.str).getD .null

namespace Entry

def json (entry : Entry) : Json := .obj [
  ("content_revision", .int entry.contentRevision),
  ("document_revision", .int entry.documentRevision),
  ("markdown", .str entry.markdown),
  ("authored_at", .str entry.authoredAt),
  ("note", textOrNull entry.note)]

end Entry

namespace Standing

def text : Standing → String
  | draft => "draft"
  | finalized => "finalized"

def named (name : String) : Standing := if name = "finalized" then finalized else draft

end Standing

namespace ReportState

def text : ReportState → String
  | active standing => standing.text
  | archived _ _ _ => "archived"

def isArchived : ReportState → Bool
  | active _ => false
  | archived _ _ _ => true

/-- The fields `archived_from_state`, `archived_at` and `archive_note`. -/
def archiveFields : ReportState → Dict String Json
  | active _ => [("archived_from_state", .null), ("archived_at", .null), ("archive_note", .null)]
  | archived former archivedAt note =>
      [("archived_from_state", .str former.text), ("archived_at", .str archivedAt), ("archive_note", textOrNull note)]

end ReportState

namespace Report

/-- The fields that a summary shows: all but the history. -/
def summary (report : Report) : Dict String Json := [
  ("uid", .str report.uid),
  ("workspace_uid", .str report.workspaceUid),
  ("template", .str report.template),
  ("period", report.period),
  ("source_digest", .str report.sourceDigest),
  ("source_generated_at", .str report.sourceGeneratedAt),
  ("state", .str report.state.text),
  ("revision", .int report.revision)] ++ report.state.archiveFields ++ [
  ("created_at", .str report.createdAt),
  ("updated_at", .str report.updatedAt)]

def json (report : Report) : Json :=
  .obj (report.summary ++ [("revisions", .arr (report.revisions.map Entry.json))])

/-- `_coverage` -/
def coverage (report : Report) : Checked (String × String × String) := do
  let period ← periodOf L report.period
  return (report.template, period)

end Report

namespace Receipt

/-- `response_body` as it is stored. -/
def body (data : Dict String Json) (replayed : Bool) : Json :=
  .obj [("data", .obj data), ("meta", .obj [("replayed", .bool replayed)])]

def json (receipt : Receipt) : Json := .obj [
  ("key", .str receipt.key),
  ("method", .str ledgerMethod),
  ("path", .str receipt.path),
  ("request_digest", .str receipt.requestDigest),
  ("response_status", .int receipt.responseStatus),
  ("response_body", body receipt.data false),
  ("created_at", .str receipt.createdAt)]

end Receipt

namespace Document

def fields (document : Document) : Dict String Json := [
  ("version", .int 1),
  ("reports", .arr (document.reports.map Report.json)),
  ("idempotency", .arr (document.idempotency.map Receipt.json))]

def json (document : Document) : Json := .obj document.fields

end Document

/-! ## Reports -/

def isNull : Json → Bool
  | .null => true
  | _ => false

/-- `_validate_archive_fields` -/
def readState (state : String) (report : Dict String Json) : Checked ReportState :=
  if state = "archived" then do
    let former ← matched (fun text ↦ text == "draft" || text == "finalized") "reports" (item report "archived_from_state")
    let archivedAt ← moment L "reports" (item report "archived_at")
    let note ← noteOf (item report "archive_note")
    return .archived (.named former) archivedAt.1 note
  else do
    check (isNull (item report "archived_from_state") && isNull (item report "archived_at") &&
      isNull (item report "archive_note")) (invalid "reports")
    return .active (.named state)

/-- One turn of the loop of `_validate_history`. -/
def readEntry (index : ℕ) (previous revision : ℤ) (value : Json) : Checked Entry := do
  let entry ← exactDict contentKeys "reports" value
  let contentRevision ← exactInt "reports" (item entry "content_revision")
  check (contentRevision == index + 1) (invalid "reports")
  let written ← exactInt "reports" (item entry "document_revision")
  check (previous < written && written ≤ revision) (invalid "reports")
  let markdown ← markdownOf (item entry "markdown")
  let authoredAt ← moment L "reports" (item entry "authored_at")
  let note ← noteOf (item entry "note")
  return ⟨contentRevision, written, markdown, authoredAt.1, note⟩

def readEntries (revision : ℤ) : ℕ → ℤ → List Json → Checked (List Entry)
  | _, _, [] => .ok []
  | index, previous, value :: values => do
      let entry ← readEntry L index previous revision value
      let rest ← readEntries revision (index + 1) entry.documentRevision values
      return entry :: rest

/-- `_validate_history` -/
def readHistory (revision : ℤ) (value : Json) : Checked (List Entry) := do
  let entries ← exactList maxReportContentRevisions "reports" value
  check (1 ≤ entries.length) (invalid "reports")
  readEntries L revision 0 0 entries

/-- The period that a report occupies while it is not archived. -/
def occupied (report : Report) : Checked (Option (String × String × String)) :=
  if report.state.isArchived then .ok none else report.coverage L >>= fun coverage ↦ .ok (some coverage)

/-- `_validate_report` -/
def readReport (owner : String) (value : Json) : Checked (Report × Option (String × String × String)) := do
  let fields ← exactDict reportKeys "reports" value
  let uid ← matched isUuid4 "reports" (item fields "uid")
  let workspaceUid ← matched isUuidAny "workspace_uid" (item fields "workspace_uid")
  check (workspaceUid == owner) (invalid "workspace_uid")
  let template ← templateOf (item fields "template")
  let sourceDigest ← matched isDigest "source_digest" (item fields "source_digest")
  let sourceGeneratedAt ← instant L "reports" (item fields "source_generated_at")
  let state ← matched (fun text ↦ text == "draft" || text == "finalized" || text == "archived") "reports"
    (item fields "state")
  let revision ← exactInt "reports" (item fields "revision")
  check (1 ≤ revision && revision ≤ maxReportDocumentRevision) (invalid "reports")
  let archive ← readState L state fields
  let revisions ← readHistory L revision (item fields "revisions")
  let created ← moment L "reports" (item fields "created_at")
  let updated ← moment L "reports" (item fields "updated_at")
  check (created.2 ≤ updated.2) (invalid "reports")
  let report : Report := ⟨uid, workspaceUid, template, item fields "period", sourceDigest, sourceGeneratedAt, archive,
    revision, revisions, created.1, updated.1⟩
  let coverage ← occupied L report
  return (report, coverage)

/-- Whether a period is free. -/
def isFree (taken : List (String × String × String)) (coverage : Option (String × String × String)) : Bool :=
  coverage.all fun period ↦ !taken.contains period

/-- The loop of `_validate_reports`, with the identities and periods that it has seen. -/
def readReports (owner : String) : List String → List (String × String × String) → List Json → Checked (List Report)
  | _, _, [] => .ok []
  | identities, taken, value :: values => do
      let report ← readReport L owner value
      check (!identities.contains report.1.uid) (invalid "reports")
      check (isFree taken report.2) (invalid "reports")
      let rest ← readReports owner (report.1.uid :: identities) (report.2.toList ++ taken) values
      return report.1 :: rest

/-! ## Receipts -/

def isList : Json → Bool
  | .arr _ => true
  | _ => false

mutual

/-- `_holds_history` -/
def holdsHistory : Json → Bool
  | .obj fields => fields.any (fun field ↦ field.1 == "revisions" && isList field.2) || fieldsHoldHistory fields
  | .arr items => itemsHoldHistory items
  | _ => false

def itemsHoldHistory : List Json → Bool
  | [] => false
  | item :: items => holdsHistory item || itemsHoldHistory items

def fieldsHoldHistory : List (String × Json) → Bool
  | [] => false
  | field :: fields => fieldHoldsHistory field || fieldsHoldHistory fields

def fieldHoldsHistory : String × Json → Bool
  | (_, value) => holdsHistory value

end

/-- `_validate_response_body`, and the data of the response. -/
def readBody (value : Json) : Checked (Dict String Json) := do
  let body ← exactDict bodyKeys "response_body" value
  match item body "data", item body "meta" with
  | .obj data, .obj [("replayed", .bool false)] =>
      if holdsHistory (.obj data) then .error (invalid "response_body") else .ok data
  | _, _ => .error (invalid "response_body")

/-- `_validate_receipt` -/
def readReceipt (value : Json) : Checked Receipt := do
  let fields ← exactDict ledgerKeys "idempotency" value
  let key ← matched isLedgerKey "key" (item fields "key")
  let _ ← matched (· == ledgerMethod) "idempotency" (item fields "method")
  let path ← matched (· != "") "idempotency" (item fields "path")
  let digest ← matched isDigest "idempotency" (item fields "request_digest")
  let status ← exactInt "idempotency" (item fields "response_status")
  check (status == 200 || status == 201) (invalid "idempotency")
  let data ← readBody (item fields "response_body")
  let created ← moment L "idempotency" (item fields "created_at")
  check (value.size ≤ maxLedgerRecordBytes) (invalid "response_body")
  return ⟨key, path, digest, status, data, created.1⟩

/-- The loop of `_validate_ledger`, with the keys that it has seen. -/
def readReceipts : List String → List Json → Checked (List Receipt)
  | _, [] => .ok []
  | keys, value :: values => do
      let receipt ← readReceipt L value
      check (!keys.contains receipt.key) (invalid "idempotency")
      let rest ← readReceipts (receipt.key :: keys) values
      return receipt :: rest

/-- `validate_reports_document` -/
def readDocument (owner : String) (value : Json) : Checked Document := do
  check (isUuidAny owner) (invalid "workspace_uid")
  jsonSafe L value "document"
  let top ← exactDict topKeys "document" value
  let version ← exactInt "document" (item top "version")
  check (version == 1) (invalid "document")
  let values ← exactList maxReportDocuments "reports" (item top "reports")
  let reports ← readReports L owner [] [] values
  let records ← exactList reportLedgerMaxRecords "idempotency" (item top "idempotency")
  let receipts ← readReceipts L [] records
  check (value.size ≤ maxReportsBytes) (refused "report_storage_full" "document")
  return ⟨reports, receipts⟩

end Values

end WorkStack.Reports
