import WorkStack.Reports.Document

/-!
# Commands on reports

A command on a report is admitted, looked up among the receipts, planned on the document, and recorded
with its answer. Nothing is read or written here: the instant, the identity of a new report and the digest
of its source are given, and the document to save is returned.
-/

open WorkStack.Python WorkStack.Effect.Refusing

namespace WorkStack.Reports

inductive Operation where
  | create
  | revise
  | finalize
  | archive
  | restore
  deriving DecidableEq, Repr

/-- A body that was admitted. -/
inductive Body where
  | create (workspaceUid template : String) (period : Json) (sourceDigest sourceGeneratedAt markdown : String)
  | transition (operation : Operation) (workspaceUid : String) (expectedRevision : ℤ) (markdown : String)
      (note : Option String)

/-- What a plan returns. -/
structure Plan where
  document : Document
  report : Report
  contentEntry : Option Entry
  reopened : Bool

/-- What a command returns. -/
structure Answer where
  documentToSave : Option Json
  responseStatus : ℤ
  data : Dict String Json
  replayed : Bool

/-- One command, with the instant and the callbacks that come with it. -/
structure Command where
  operation : String
  request : Json
  targetReportUid : Option String
  idempotencyKey : String
  path : String
  requestDigest : String
  now : String
  allocateReportUid : Option String
  currentDayDigest : String → Option String

namespace Operation

def named : String → Option Operation
  | "create" => some create
  | "revise" => some revise
  | "finalize" => some finalize
  | "archive" => some archive
  | "restore" => some restore
  | _ => none

/-- `_REQUEST_KEYS` -/
def requestKeys : Operation → List String
  | create => ["workspace_uid", "template", "period", "source_digest", "source_generated_at", "markdown"]
  | revise => ["workspace_uid", "expected_revision", "markdown", "note"]
  | finalize => ["workspace_uid", "expected_revision"]
  | archive => ["workspace_uid", "expected_revision", "note"]
  | restore => ["workspace_uid", "expected_revision"]

/-- `_ALLOWED_STATES` -/
def allows : Operation → ReportState → Bool
  | create, _ => false
  | revise, state => !state.isArchived
  | finalize, state => state == .active .draft
  | archive, state => !state.isArchived
  | restore, state => state.isArchived

/-- `_SOURCE_OPERATIONS` -/
def readsSource : Operation → Bool
  | create => true
  | revise => true
  | finalize => true
  | archive => false
  | restore => false

end Operation

namespace Body

def workspaceUid : Body → String
  | create workspaceUid _ _ _ _ _ => workspaceUid
  | transition _ workspaceUid _ _ _ => workspaceUid

end Body

section Requests

variable (L : Library)

/-- `_operation` -/
def operationOf (name : String) : Checked Operation :=
  match Operation.named name with
  | some operation => .ok operation
  | none => .error (invalid "operation")

/-- A create body. -/
def createBody (body : Dict String Json) (workspaceUid : String) : Checked Body := do
  let template ← templateOf (item body "template")
  let _ ← periodOf L (item body "period")
  let sourceDigest ← matched isDigest "source_digest" (item body "source_digest")
  let generatedAt ← instant L "request" (item body "source_generated_at")
  let markdown ← markdownOf (item body "markdown")
  return .create workspaceUid template (item body "period") sourceDigest generatedAt markdown

/-- The markdown of a body, of a revision alone. -/
def markdownFor (operation : Operation) (body : Dict String Json) : Checked String :=
  if operation = .revise then markdownOf (item body "markdown") else .ok ""

/-- The note of a body, of a revision or an archiving. -/
def noteFor (operation : Operation) (body : Dict String Json) : Checked (Option String) :=
  if operation = .revise ∨ operation = .archive then noteOf (item body "note") else .ok none

/-- The body of any other operation. -/
def transitionBody (operation : Operation) (body : Dict String Json) (workspaceUid : String) : Checked Body := do
  let expected ← exactInt "expected_revision" (item body "expected_revision")
  check (1 ≤ expected && expected ≤ maxReportDocumentRevision) (invalid "expected_revision")
  let markdown ← markdownFor operation body
  let note ← noteFor operation body
  return .transition operation workspaceUid expected markdown note

/-- `normalize_report_request` -/
def normalizeReportRequest (operation : Operation) (request : Json) : Checked Body := do
  let body ← exactDict operation.requestKeys "request" request
  jsonSafe L request "request"
  let workspaceUid ← matched isUuidAny "workspace_uid" (item body "workspace_uid")
  if operation = .create then createBody L body workspaceUid else transitionBody operation body workspaceUid

/-! ## Mutations -/

/-- The periods that the reports occupy. -/
def occupiedPeriods (reports : List Report) : Checked (List (String × String × String)) :=
  (reports.filter fun report ↦ !report.state.isArchived).mapM (Report.coverage L)

/-- What a new report starts with. -/
def firstEntry (markdown now : String) : Entry := ⟨1, 1, markdown, now, none⟩

def newReport (uid workspaceUid template : String) (period : Json) (sourceDigest generatedAt markdown now : String) :
    Report where
  uid := uid
  workspaceUid := workspaceUid
  template := template
  period := period
  sourceDigest := sourceDigest
  sourceGeneratedAt := generatedAt
  state := .active .draft
  revision := 1
  revisions := [firstEntry markdown now]
  createdAt := now
  updatedAt := now

/-- `_plan_create` -/
def planCreate (top : Document) (target workspaceUid template : String) (period : Json)
    (sourceDigest generatedAt markdown : String) (asserted : String) (now : String) : Checked Plan := do
  check (!top.reports.any fun report ↦ report.uid == target) (invalid "report_uid")
  check (isDigest asserted) (invalid "source_digest")
  let taken ← occupiedPeriods L top.reports
  let wanted ← periodOf L period
  check (!taken.contains (template, wanted)) (refused "report_duplicate_period" "period")
  check (top.reports.length < maxReportDocuments) (refused "report_document_limit" "reports")
  check (sourceDigest == asserted) (refused "report_source_changed" "source_digest")
  let report := newReport target workspaceUid template period sourceDigest generatedAt markdown now
  return ⟨{ top with reports := top.reports ++ [report] }, report, some (firstEntry markdown now), false⟩

/-- `_locate` -/
def locate (reports : List Report) (target : String) : Checked (ℕ × Report) :=
  match reports.findIdx? (fun report ↦ report.uid == target), reports.find? (fun report ↦ report.uid == target) with
  | some index, some report => .ok (index, report)
  | _, _ => .error (refused "report_not_found" "report_uid")

/-- The entry that a revision appends. -/
def nextEntry (report : Report) (markdown : String) (note : Option String) (now : String) : Entry :=
  ⟨report.revisions.length + 1, report.revision + 1, markdown, now, note⟩

/-- `_require_free_period` -/
def requireFreePeriod (reports : List Report) (report : Report) : Checked Unit := do
  let wanted ← report.coverage L
  let taken ← occupiedPeriods L (reports.filter fun other ↦ other.uid != report.uid)
  check (!taken.contains wanted) (refused "report_duplicate_period" "period")

/-- The state after a transition that is allowed. -/
def moveState (now : String) (note : Option String) : Operation → ReportState → ReportState
  | .revise, _ => .active .draft
  | .finalize, _ => .active .finalized
  | .archive, .active standing => .archived standing now note
  | .restore, .archived former _ _ => .active former
  | _, state => state

/-- The report after a transition. -/
def moved (operation : Operation) (report : Report) (markdown : String) (note : Option String) (now : String) :
    Report :=
  { report with
    revision := report.revision + 1
    updatedAt := now
    state := moveState now note operation report.state
    revisions :=
      if operation = .revise then report.revisions ++ [nextEntry report markdown note now] else report.revisions }

/-- What a transition asks besides its state: room in the history, or the period. -/
def checkTransition (reports : List Report) (operation : Operation) (report : Report) : Checked Unit :=
  match operation with
  | .revise =>
      check (report.revisions.length < maxReportContentRevisions) (refused "report_revision_limit" "reports")
  | .restore => requireFreePeriod L reports report
  | _ => .ok ()

/-- `_plan_transition` with `_apply_transition` -/
def planTransition (top : Document) (operation : Operation) (expected : ℤ) (markdown : String) (note : Option String)
    (target now : String) : Checked Plan := do
  let found ← locate top.reports target
  check (found.2.revision == expected) (refused "report_revision_conflict" "expected_revision")
  check (operation.allows found.2.state) (refused "report_state_invalid" "document")
  check (found.2.revision < maxReportDocumentRevision) (refused "report_revision_limit" "reports")
  let current ← moment L "now" (.str now)
  let updated ← moment L "reports" (.str found.2.updatedAt)
  check (updated.2 ≤ current.2) (invalid "now")
  checkTransition L top.reports operation found.2
  let report := moved operation found.2 markdown note now
  return ⟨{ top with reports := top.reports.set found.1 report }, report,
    if operation = .revise then some (nextEntry found.2 markdown note now) else none,
    operation == .revise && found.2.state == .active .finalized⟩

/-- `plan_report_mutation` -/
def planReportMutation (document : Json) (operation : Operation) (request : Json) (reportUid : String)
    (currentSourceDigest : Option String) (now : String) : Checked Plan := do
  let body ← normalizeReportRequest L operation request
  let top ← readDocument L body.workspaceUid document
  let _ ← moment L "now" (.str now)
  check (isUuid4 reportUid) (invalid "report_uid")
  match body with
  | .create workspaceUid template period sourceDigest generatedAt markdown =>
      planCreate L top reportUid workspaceUid template period sourceDigest generatedAt markdown
        (currentSourceDigest.getD "") now
  | .transition operation _ expected markdown note => do
      check currentSourceDigest.isNone (invalid "source_digest")
      planTransition L top operation expected markdown note reportUid now

/-! ## Receipts -/

/-- `_identity`, and the moment that it reads. -/
def identity (workspaceUid key path requestDigest now : String) : Checked ℤ := do
  check (isUuidAny workspaceUid) (invalid "workspace_uid")
  check (isLedgerKey key) (invalid "key")
  check (path != "") (invalid "idempotency")
  check (isDigest requestDigest) (invalid "idempotency")
  let current ← moment L "now" (.str now)
  return current.2

/-- The moment of a receipt of a document that was read. -/
def receiptTime (receipt : Receipt) : ℤ := (momentOf L receipt.createdAt).getD 0

/-- Whether the retention of a receipt is not over. -/
def isRetained (now : ℤ) (receipt : Receipt) : Bool := now - receiptTime L receipt < retentionSeconds

/-- `_surviving` -/
def surviving (now : ℤ) (receipts : List Receipt) : List Receipt := receipts.filter (isRetained L now)

/-- `prepare_report_replay`: the document without what has expired, and the receipt of this very command. -/
def prepareReportReplay (document : Json) (workspaceUid key path requestDigest now : String) :
    Checked (Document × Option Receipt) := do
  let current ← identity L workspaceUid key path requestDigest now
  let top ← readDocument L workspaceUid document
  let pruned : Document := { top with idempotency := surviving L current top.idempotency }
  match pruned.idempotency.find? fun receipt ↦ receipt.key == key with
  | none => return (pruned, none)
  | some receipt =>
      if receipt.path = path ∧ receipt.requestDigest = requestDigest then return (pruned, some receipt)
      else .error (refused "idempotency_conflict" "key")

/-- `_retry_after` -/
def retryAfter (receipts : List Receipt) (now : ℤ) : ℤ :=
  max 1 (retentionSeconds - (now - ((receipts.map (receiptTime L)).min?).getD now))

/-- `append_report_receipt` -/
def appendReportReceipt (document : Json) (workspaceUid key path requestDigest : String) (status : ℤ)
    (data : Dict String Json) (now : String) : Checked Document := do
  let current ← identity L workspaceUid key path requestDigest now
  let top ← readDocument L workspaceUid document
  check (status == 200 || status == 201) (invalid "idempotency")
  jsonSafe L (Receipt.body data false) "response_body"
  let _ ← readBody (Receipt.body data false)
  let kept := surviving L current top.idempotency
  check (!kept.any fun receipt ↦ receipt.key == key) (refused "idempotency_conflict" "key")
  check (kept.length < reportLedgerMaxRecords)
    (.report "report_idempotency_capacity" "idempotency" (some (retryAfter L kept current)))
  let receipt : Receipt := ⟨key, path, requestDigest, status, data, now⟩
  check (receipt.json.size ≤ maxLedgerRecordBytes) (invalid "response_body")
  let final : Document := { top with idempotency := kept ++ [receipt] }
  check (final.json.size ≤ maxReportsBytes) (refused "report_storage_full" "document")
  return final

/-! ## The command -/

/-- `_target` -/
def checkTarget (operation : Operation) (target : Option String) : Checked Unit :=
  check (target.isNone == (operation == .create)) (invalid "report_uid")

def called {α : Type} : Option α → Checked α
  | some value => .ok value
  | none => .error .callback

/-- The date of a report. -/
def dateOf (report : Report) : String :=
  match report.period with
  | .obj fields => match item fields "date" with
      | .str date => date
      | _ => ""
  | _ => ""

/-- `_plan_created` -/
def planCreated (pruned : Json) (command : Command) (asserted : String) : Checked Plan := do
  let allocated ← called command.allocateReportUid
  let settled ← planReportMutation L pruned .create command.request allocated (some asserted) command.now
  let current ← called (command.currentDayDigest (dateOf settled.report))
  planReportMutation L pruned .create command.request allocated (some current) command.now

/-- The plan of any other operation, and whether the source has moved if that is asked. -/
def planMoved (pruned : Json) (operation : Operation) (command : Command) : Checked (Plan × Option Bool) := do
  let plan ← planReportMutation L pruned operation command.request (command.targetReportUid.getD "") none command.now
  if operation.readsSource then
    let current ← called (command.currentDayDigest (dateOf plan.report))
    return (plan, some (current != plan.report.sourceDigest))
  else return (plan, none)

/-- `_planned` -/
def plannedFor (pruned : Json) (operation : Operation) (body : Body) (command : Command) :
    Checked (Plan × Option Bool) :=
  match body with
  | .create _ _ _ sourceDigest _ _ => do
      let plan ← planCreated L pruned command sourceDigest
      return (plan, some false)
  | .transition _ _ _ _ _ => planMoved L pruned operation command

def optionalField (name : String) (value : Option Json) : Dict String Json :=
  (value.map fun value ↦ (name, value)).toList

/-- `_data` -/
def dataOf (operation : Operation) (plan : Plan) (sourceStale : Option Bool) : Dict String Json :=
  plan.report.summary ++ optionalField "content_entry" (plan.contentEntry.map Entry.json) ++
    optionalField "reopened" (if operation = .revise then some (.bool plan.reopened) else none) ++
    optionalField "source_stale" (sourceStale.map .bool)

def statusOf (operation : Operation) : ℤ := if operation = .create then 201 else 200

/-- What is done when there is no receipt: plan, answer and record. -/
def performCommand (pruned : Document) (operation : Operation) (body : Body) (command : Command) : Checked Answer := do
  let planned ← plannedFor L pruned.json operation body command
  let data := dataOf operation planned.1 planned.2
  let saved ← appendReportReceipt L planned.1.document.json body.workspaceUid command.idempotencyKey command.path
    command.requestDigest (statusOf operation) data command.now
  return ⟨some saved.json, statusOf operation, data, false⟩

/-- `execute_report_command` -/
def executeReportCommand (document : Json) (command : Command) : Checked Answer := do
  let operation ← operationOf command.operation
  let body ← normalizeReportRequest L operation command.request
  checkTarget operation command.targetReportUid
  let prepared ← prepareReportReplay L document body.workspaceUid command.idempotencyKey command.path
    command.requestDigest command.now
  match prepared.2 with
  | some receipt => return ⟨none, receipt.responseStatus, receipt.data, true⟩
  | none => performCommand L prepared.1 operation body command

end Requests

end WorkStack.Reports
