import WorkStack.Knowledge.Request

/-!
# Checks of sources

A verification names a capture and the evidence that it holds, and asks for one observation about exactly these
documents within a minute. The request and its result are read here, each at the clock of the caller. What is
read is a closed projection, and a projection that was read is read again as itself.
-/

open WorkStack.Python WorkStack.Effect.Refusing

namespace WorkStack.Knowledge

/-- What the checks take from the libraries besides. -/
structure VerificationLibrary extends Library where
  /-- `json.loads` with the hooks of `decode_strict_json`, or the code of the refusal. -/
  strictLoads : String → Except String Json

/-- `VerificationError` and `CaptureObservationError`, or another exception. -/
inductive ObservationRefusal where
  | code (text : String)
  | raised (name : String)
  deriving DecidableEq, Repr

abbrev Observed := Except ObservationRefusal

namespace Verification

/-! ## What is read -/

structure VerifiedBinding where
  workspaceUid : String
  captureId : String
  captureRevision : ℤ
  deriving DecidableEq

structure VerifiedConnection where
  connectionAlias : String
  upstreamWorkspaceUid : String
  policyRevision : ℤ
  deriving DecidableEq

/-- An item of evidence as it is asked about. -/
structure Asked where
  documentRef : String
  sourceType : String
  expectedSourceVersion : Option String
  deriving DecidableEq

structure Request where
  verificationId : String
  binding : VerifiedBinding
  connection : VerifiedConnection
  corpusRefs : List String
  evidence : List Asked
  requestedAt : String
  expiresAt : String
  deriving DecidableEq

/-- An item of evidence with what was seen of it. -/
structure Answered where
  asked : Asked
  observedSourceVersion : Option String
  status : String
  code : String
  deriving DecidableEq

structure Result where
  verificationId : String
  checkedAt : String
  evidence : List Answered
  deriving DecidableEq

def requestSchema : String := "workstack.knowledge-verify.v1"

def resultSchema : String := "workstack.knowledge-verification.v1"

def maxVerificationBytes : ℕ := 16 * 1024

def maxActiveSeconds : ℤ := 60

def sourceTypes : List String := ["notion.page", "nas.file", "knowledge.answer"]

def verificationOutcomes : List (String × String) := [
  ("current", "hash_matched"), ("stale", "hash_differs"), ("missing", "file_absent"),
  ("unavailable", "root_unavailable"), ("denied", "access_denied"), ("refused", "source_refused"),
  ("revoked", "mapping_revoked"), ("unverifiable", "no_expected_version"), ("unverifiable", "no_origin_verifier"),
  ("unverifiable", "unsupported_source_type"), ("unverifiable", "verification_unavailable")]

def requestFields : List String :=
  ["schema", "verification_id", "binding", "connection", "corpus_refs", "evidence", "requested_at", "expires_at"]

def bindingFields : List String := ["workspace_uid", "capture_id", "capture_revision"]

def connectionFields : List String := ["alias", "upstream_workspace_uid", "policy_revision"]

def requestEvidenceFields : List String := ["document_ref", "source_type", "expected_source_version"]

def resultFields : List String := ["schema", "verification_id", "checked_at", "evidence"]

def resultEvidenceFields : List String := requestEvidenceFields ++ ["observed_source_version", "status", "code"]

def optionalText : Option String → Json
  | none => .null
  | some text => .str text

def VerifiedBinding.json (binding : VerifiedBinding) : Json := .obj [
  ("workspace_uid", .str binding.workspaceUid),
  ("capture_id", .str binding.captureId),
  ("capture_revision", .int binding.captureRevision)]

def VerifiedConnection.json (connection : VerifiedConnection) : Json := .obj [
  ("alias", .str connection.connectionAlias),
  ("upstream_workspace_uid", .str connection.upstreamWorkspaceUid),
  ("policy_revision", .int connection.policyRevision)]

def Asked.json (asked : Asked) : Json := .obj [
  ("document_ref", .str asked.documentRef),
  ("source_type", .str asked.sourceType),
  ("expected_source_version", optionalText asked.expectedSourceVersion)]

def Request.json (request : Request) : Json := .obj [
  ("schema", .str requestSchema),
  ("verification_id", .str request.verificationId),
  ("binding", request.binding.json),
  ("connection", request.connection.json),
  ("corpus_refs", texts request.corpusRefs),
  ("evidence", .arr (request.evidence.map Asked.json)),
  ("requested_at", .str request.requestedAt),
  ("expires_at", .str request.expiresAt)]

def Answered.json (answered : Answered) : Json := .obj [
  ("document_ref", .str answered.asked.documentRef),
  ("source_type", .str answered.asked.sourceType),
  ("expected_source_version", optionalText answered.asked.expectedSourceVersion),
  ("observed_source_version", optionalText answered.observedSourceVersion),
  ("status", .str answered.status),
  ("code", .str answered.code)]

def Result.json (result : Result) : Json := .obj [
  ("schema", .str resultSchema),
  ("verification_id", .str result.verificationId),
  ("checked_at", .str result.checkedAt),
  ("evidence", .arr (result.evidence.map Answered.json))]

/-! ## Reading values -/

def fail (code : String) : ObservationRefusal := .code code

def require (condition : Bool) (code : String) : Observed Unit := if condition then .ok () else .error (fail code)

/-- A refusal of another reader, under a code of this one. -/
def under {α : Type} (code : String) : Checked α → Observed α
  | .ok value => .ok value
  | .error _ => .error (fail code)

def wire (code : String) : Refusal := .request code none

/-- `_closed` of the protocol -/
def closed (allowed : List String) (code : String) (value : Json) : Observed (Dict String Json) :=
  under code (closedObject wire "invalid_request" allowed value)

/-- `isinstance(value, str)`, and a text with a property. -/
def textWith (accepts : String → Bool) (code : String) : Json → Observed String
  | .str text => if accepts text then .ok text else .error (fail code)
  | _ => .error (fail code)

/-- `_revision` -/
def readRevision (code : String) (value : Json) : Observed ℤ := under code (exactInt wire 0 maxPolicyRevision value)

/-- `value != schema` -/
def isText (text : String) : Json → Bool
  | .str other => other == text
  | _ => false

/-- The items of a list with a number of them in bounds. -/
def listWithin (minimum maximum : ℕ) (code : String) : Json → Observed (List Json)
  | .arr items => if minimum ≤ items.length ∧ items.length ≤ maximum then .ok items else .error (fail code)
  | _ => .error (fail code)

section Protocol

variable (L : VerificationLibrary)

/-- `_uuid` -/
def readUuid (code : String) (value : Json) : Observed String := under code (canonicalUuid wire L.toPlatform value)

/-- `_timestamp`, and the text that it was read from. -/
def readTimestamp (value : Json) : Observed (String × Instant) :=
  under "invalid_verification_timestamp" (wireInstant L.toLibrary "" value)

/-- `_REF_RE.fullmatch(text)` -/
def isRef (text : String) : Bool :=
  let isAlnum (c : Char) : Bool := ('A' ≤ c && c ≤ 'Z') || ('a' ≤ c && c ≤ 'z') || c.isDigit
  text.toList.head?.any isAlnum && text.toList.all fun c ↦ isAlnum c || c == '.' || c == '_' || c == '~' || c == '-'

/-- `_opaque_ref` under the code of a caller -/
def readRef (code : String) : Json → Observed String
  | .str text =>
      if 8 ≤ text.length ∧ text.length ≤ 256 ∧ isRef text = true then
        match decodedForValidation L.toLibrary text with
        | none => .error (.raised "PercentDecodingLimitError")
        | some decoded => if L.search credentialValuePattern decoded then .error (fail code) else .ok text
      else .error (fail code)
  | _ => .error (fail code)

/-- `_version` -/
def readVersion (code : String) : Json → Observed (Option String)
  | .null => .ok none
  | value => do
      let text ← readRef L code value
      return some text

/-! ## The request -/

/-- `decode_verification_document` of a text -/
def decodeVerificationDocument (text : String) : Observed Json :=
  if maxVerificationBytes < (Json.utf8 text.toList).length then .error (fail "request_too_large")
  else
    match L.strictLoads text with
    | .ok value => .ok value
    | .error code => .error (fail code)

/-- `_decoded` -/
def decoded : Json → Observed Json
  | .str text => decodeVerificationDocument L text
  | value => .ok value

/-- `_window` -/
def checkWindow (requested expires : Instant) : Observed Unit := do
  require (requested.before expires) "invalid_verification_window"
  if lastSecond < requested.second + maxActiveSeconds then .error (.raised "OverflowError")
  else
    require (!Instant.before ⟨requested.second + maxActiveSeconds, requested.fraction⟩ expires)
      "invalid_verification_window"

/-- `_binding` -/
def readBinding (value : Json) : Observed VerifiedBinding := do
  let source ← closed bindingFields "invalid_verification_binding" value
  let workspaceUid ← readUuid L "invalid_verification_binding" (item source "workspace_uid")
  let captureId ← textWith (fun text ↦ text.length ≤ maxCaptureIdChars && isCaptureId text)
    "invalid_verification_binding" (item source "capture_id")
  let revision ← readRevision "invalid_verification_binding" (item source "capture_revision")
  return ⟨workspaceUid, captureId, revision⟩

/-- `_connection` -/
def readConnection (value : Json) : Observed VerifiedConnection := do
  let source ← closed connectionFields "invalid_verification_connection" value
  let connectionAlias ← textWith isCorpusRef "invalid_verification_connection" (item source "alias")
  let upstream ← readUuid L "invalid_verification_connection" (item source "upstream_workspace_uid")
  let revision ← readRevision "invalid_verification_connection" (item source "policy_revision")
  return ⟨connectionAlias, upstream, revision⟩

def distinctRefs : List String → List Json → Observed (List String)
  | _, [] => .ok []
  | seen, entry :: entries => do
      let text ← textWith isCorpusRef "invalid_verification_corpus_refs" entry
      require (!seen.contains text) "duplicate_verification_corpus_ref"
      let rest ← distinctRefs (seen ++ [text]) entries
      return text :: rest

/-- `_corpus_refs` -/
def readCorpusRefs (value : Json) : Observed (List String) := do
  let entries ← listWithin 1 8 "invalid_verification_corpus_refs" value
  distinctRefs [] entries

/-- `_request_entry` -/
def readAsked (value : Json) : Observed Asked := do
  let source ← closed requestEvidenceFields "invalid_verification_evidence" value
  let sourceType ← textWith sourceTypes.contains "invalid_verification_source_type" (item source "source_type")
  let documentRef ← readRef L "invalid_verification_evidence" (item source "document_ref")
  let expected ← readVersion L "invalid_verification_evidence" (item source "expected_source_version")
  return ⟨documentRef, sourceType, expected⟩

/-- `_request_evidence` -/
def readRequestEvidence (value : Json) : Observed (List Asked) := do
  let entries ← listWithin 1 10 "invalid_verification_evidence" value
  entries.mapM (readAsked L)

/-- `validate_verification_request` -/
def validateVerificationRequest (document now : Json) : Observed Request := do
  let document ← decoded L document
  let root ← closed requestFields "invalid_verification_request" document
  require (isText requestSchema (item root "schema")) "unsupported_verification_schema"
  let verificationId ← readUuid L "invalid_verification_id" (item root "verification_id")
  let binding ← readBinding L (item root "binding")
  let connection ← readConnection L (item root "connection")
  let corpusRefs ← readCorpusRefs (item root "corpus_refs")
  let evidence ← readRequestEvidence L (item root "evidence")
  let requested ← readTimestamp L (item root "requested_at")
  let expires ← readTimestamp L (item root "expires_at")
  checkWindow requested.2 expires.2
  let instant ← readTimestamp L now
  require (!instant.2.before requested.2) "verification_not_yet_active"
  require (instant.2.before expires.2) "verification_expired"
  return ⟨verificationId, binding, connection, corpusRefs, evidence, requested.1, expires.1⟩

/-! ## The result -/

/-- `_checked_at` -/
def readCheckedAt (value : Json) (request : Request) (now : Json) : Observed String := do
  let checked ← readTimestamp L value
  let requested ← readTimestamp L (.str request.requestedAt)
  let expires ← readTimestamp L (.str request.expiresAt)
  let instant ← readTimestamp L now
  require (instant.2.before expires.2) "verification_expired"
  require (!checked.2.before requested.2 && !instant.2.before checked.2 && checked.2.before expires.2)
    "verification_checked_at_out_of_window"
  return checked.1

/-- `_consistent` -/
def isConsistent (status : String) (expected observed : Option String) : Bool :=
  if status = "current" then expected.isSome && observed.isSome && observed == expected
  else if status = "stale" then expected.isSome && observed.isSome && observed != expected
  else observed.isNone

/-- `_result_entry` -/
def readAnswered (value : Json) (asked : Asked) : Observed Answered := do
  let source ← closed resultEvidenceFields "invalid_verification_evidence" value
  let sourceType ← textWith sourceTypes.contains "invalid_verification_source_type" (item source "source_type")
  let documentRef ← readRef L "invalid_verification_evidence" (item source "document_ref")
  let expected ← readVersion L "invalid_verification_evidence" (item source "expected_source_version")
  require (Asked.mk documentRef sourceType expected == asked) "verification_evidence_mismatch"
  let observed ← readVersion L "invalid_verification_observed_version" (item source "observed_source_version")
  let status ← textWith (fun _ ↦ true) "invalid_verification_status" (item source "status")
  let code ← textWith (fun _ ↦ true) "invalid_verification_status" (item source "code")
  require (verificationOutcomes.contains (status, code)) "invalid_verification_status"
  require (isConsistent status expected observed) "verification_status_inconsistent"
  return ⟨⟨documentRef, sourceType, expected⟩, observed, status, code⟩

/-- The answers, one to each item that was asked about. -/
def readAnswers : List Json → List Asked → Observed (List Answered)
  | [], [] => .ok []
  | value :: values, asked :: rest => do
      let answered ← readAnswered L value asked
      let answers ← readAnswers values rest
      return answered :: answers
  | _, _ => .error (fail "verification_evidence_mismatch")

/-- `_result_evidence` -/
def readResultEvidence (value : Json) (expected : List Asked) : Observed (List Answered) := do
  let values ← listWithin expected.length expected.length "verification_evidence_mismatch" value
  readAnswers L values expected

/-- `validate_verification_result` -/
def validateVerificationResult (document : Json) (request : Request) (now : Json) : Observed Result := do
  let document ← decoded L document
  let root ← closed resultFields "invalid_verification_result" document
  require (isText resultSchema (item root "schema")) "unsupported_verification_schema"
  let verificationId ← readUuid L "invalid_verification_id" (item root "verification_id")
  require (verificationId == request.verificationId) "verification_id_mismatch"
  let checkedAt ← readCheckedAt L (item root "checked_at") request now
  let evidence ← readResultEvidence L (item root "evidence") request.evidence
  return ⟨verificationId, checkedAt, evidence⟩

end Protocol

/-! ## What was read is read again -/

variable {L : VerificationLibrary}

variable {code : String}

theorem require_eq_ok {condition : Bool} {result : Unit} :
    require condition code = .ok result ↔ condition = true := by
  simp [require]

theorem under_eq_ok {α : Type} {read : Checked α} {a : α} : under code read = .ok a ↔ read = .ok a := by
  cases read with
  | error refusal => simp [under]
  | ok b => simp [under]

variable {value : Json}

theorem textWith_eq_ok {accepts : String → Bool} {text : String} (h : textWith accepts code value = .ok text) :
    value = .str text := by
  cases value with
  | str other =>
      simp only [textWith, ite_ok_eq_ok, Except.ok.injEq] at h
      rw [h.2]
  | _ => cases h

theorem readUuid_eq_ok {code text : String} (h : readUuid L code value = .ok text) :
    value = .str text := by
  rw [readUuid, under_eq_ok] at h
  cases value with
  | str other => rw [canonicalUuid_str h]
  | _ => cases h

theorem readRevision_eq_ok {revision : ℤ} (h : readRevision code value = .ok revision) :
    value = .int revision := by
  rw [readRevision, under_eq_ok] at h
  cases value with
  | int other => rw [exactInt_int h]
  | _ => cases h

theorem readTimestamp_eq_ok {stamp : String × Instant} (h : readTimestamp L value = .ok stamp) :
    value = .str stamp.1 ∧ parseRfc3339 L.toInterpreter stamp.1 = some stamp.2 := by
  rw [readTimestamp, under_eq_ok] at h
  cases value with
  | str text =>
      simp only [wireInstant, ite_ok_eq_ok] at h
      obtain ⟨-, h⟩ := h
      cases hparse : parseRfc3339 L.toInterpreter text with
      | none => simp [hparse] at h
      | some instant =>
          simp only [hparse, Except.ok.injEq] at h
          subst h
          exact ⟨rfl, hparse⟩
  | _ => cases h

theorem readRef_eq_ok {code text : String} (h : readRef L code value = .ok text) :
    value = .str text := by
  cases value with
  | str other =>
      simp only [readRef, ite_ok_eq_ok] at h
      obtain ⟨-, h⟩ := h
      cases hdecoded : decodedForValidation L.toLibrary other with
      | none => simp [hdecoded] at h
      | some decoded =>
          simp only [hdecoded, ite_eq_ok, Except.ok.injEq] at h
          rw [h.2]
  | _ => cases h

theorem readVersion_eq_ok {version : Option String} (h : readVersion L code value = .ok version) :
    value = optionalText version := by
  cases value with
  | null =>
      cases h
      rfl
  | _ =>
      obtain ⟨text, htext, hversion⟩ := bind_eq_ok.mp h
      cases hversion
      exact readRef_eq_ok htext

/-- A reader that returns what it was given reads it again. -/
theorem again {α : Type} {read : Json → Observed α} {value json : Json} {a : α} (h : read value = .ok a)
    (hvalue : value = json) : read json = .ok a := hvalue ▸ h

theorem readBinding_json {binding : VerifiedBinding} (h : readBinding L value = .ok binding) :
    readBinding L binding.json = .ok binding := by
  simp only [readBinding, bind_eq_ok, pure_eq_ok] at h ⊢
  obtain ⟨source, -, uid, huid, captureId, hcapture, revision, hrevision, rfl⟩ := h
  refine ⟨_, rfl, uid, again huid (readUuid_eq_ok huid), captureId, again hcapture (textWith_eq_ok hcapture), revision,
    again hrevision (readRevision_eq_ok hrevision), rfl⟩

theorem readConnection_json {connection : VerifiedConnection} (h : readConnection L value = .ok connection) :
    readConnection L connection.json = .ok connection := by
  simp only [readConnection, bind_eq_ok, pure_eq_ok] at h ⊢
  obtain ⟨source, -, name, hname, upstream, hupstream, revision, hrevision, rfl⟩ := h
  refine ⟨_, rfl, name, again hname (textWith_eq_ok hname), upstream, again hupstream (readUuid_eq_ok hupstream),
    revision, again hrevision (readRevision_eq_ok hrevision), rfl⟩

theorem distinctRefs_eq_ok {seen refs : List String} {entries : List Json} (h : distinctRefs seen entries = .ok refs) :
    entries = refs.map .str := by
  induction entries generalizing seen refs with
  | nil =>
      cases h
      rfl
  | cons entry entries ih =>
      simp only [distinctRefs, bind_eq_ok, pure_eq_ok] at h
      obtain ⟨text, htext, -, -, rest, hrest, rfl⟩ := h
      rw [textWith_eq_ok htext, ih hrest]
      rfl

theorem listWithin_eq_ok {minimum maximum : ℕ} {items : List Json}
    (h : listWithin minimum maximum code value = .ok items) :
    value = .arr items ∧ minimum ≤ items.length ∧ items.length ≤ maximum := by
  cases value with
  | arr other =>
      simp only [listWithin, ite_ok_eq_ok, Except.ok.injEq] at h
      obtain ⟨hbounds, rfl⟩ := h
      exact ⟨rfl, hbounds⟩
  | _ => cases h

theorem listWithin_arr {minimum maximum : ℕ} {items : List Json} (hmin : minimum ≤ items.length)
    (hmax : items.length ≤ maximum) : listWithin minimum maximum code (.arr items) = .ok items :=
  if_pos ⟨hmin, hmax⟩

theorem readCorpusRefs_texts {refs : List String} (h : readCorpusRefs value = .ok refs) :
    readCorpusRefs (texts refs) = .ok refs := by
  obtain ⟨entries, hentries, hrefs⟩ := bind_eq_ok.mp h
  have htexts : value = texts refs := by
    rw [(listWithin_eq_ok hentries).1, distinctRefs_eq_ok hrefs]
    rfl
  rw [← htexts]
  exact h

theorem readAsked_json {asked : Asked} (h : readAsked L value = .ok asked) :
    readAsked L asked.json = .ok asked := by
  simp only [readAsked, bind_eq_ok, pure_eq_ok] at h ⊢
  obtain ⟨source, -, sourceType, htype, documentRef, hdocument, expected, hexpected, rfl⟩ := h
  refine ⟨_, rfl, sourceType, again htype (textWith_eq_ok htype), documentRef, again hdocument (readRef_eq_ok hdocument),
    expected, again hexpected (readVersion_eq_ok hexpected), rfl⟩

theorem mapM_json {α : Type} {read : Json → Observed α} {json : α → Json}
    (hread : ∀ value a, read value = .ok a → read (json a) = .ok a) {entries : List Json} {items : List α}
    (h : entries.mapM read = .ok items) : (items.map json).mapM read = .ok items ∧ items.length = entries.length := by
  rw [mapM_eq_ok] at h ⊢
  constructor
  · rw [List.forall₂_map_left_iff, List.forall₂_same]
    intro a ha
    obtain ⟨i, hi, rfl⟩ := List.getElem_of_mem ha
    have hvalue := List.Forall₂.get h (i := i) (by rw [h.length_eq]; exact hi) hi
    exact hread _ _ hvalue
  · exact h.length_eq.symm

theorem readRequestEvidence_json {evidence : List Asked} (h : readRequestEvidence L value = .ok evidence) :
    readRequestEvidence L (.arr (evidence.map Asked.json)) = .ok evidence := by
  obtain ⟨entries, hentries, hevidence⟩ := bind_eq_ok.mp h
  obtain ⟨-, hmin, hmax⟩ := listWithin_eq_ok hentries
  obtain ⟨hagain, hlength⟩ := mapM_json (fun _ _ ↦ readAsked_json) hevidence
  refine bind_eq_ok.mpr ⟨evidence.map Asked.json, listWithin_arr ?_ ?_, hagain⟩
  · rw [List.length_map, hlength]
    exact hmin
  · rw [List.length_map, hlength]
    exact hmax

variable {request : Request}

/-- A request that was read is read again as itself. -/
theorem validateVerificationRequest_json {value now : Json}
    (h : validateVerificationRequest L value now = .ok request) :
    validateVerificationRequest L request.json now = .ok request := by
  simp only [validateVerificationRequest, bind_eq_ok, pure_eq_ok, require_eq_ok] at h ⊢
  obtain ⟨document, -, root, -, -, hschema, id, hid, binding, hbinding, connection, hconnection, refs, hrefs,
    evidence, hevidence, requested, hrequested, expires, hexpires, ⟨⟩, hwindow, instant, hinstant, -, hactive, -, hopen,
    rfl⟩ := h
  refine ⟨_, rfl, _, rfl, (), ?_, id, again hid (readUuid_eq_ok hid), binding, readBinding_json hbinding, connection,
    readConnection_json hconnection, refs, readCorpusRefs_texts hrefs, evidence, readRequestEvidence_json hevidence,
    requested, again hrequested (readTimestamp_eq_ok hrequested).1, expires,
    again hexpires (readTimestamp_eq_ok hexpires).1, (), hwindow, instant, hinstant, (), hactive, (), hopen, rfl⟩
  exact beq_self_eq_true requestSchema

theorem readAnswered_json {asked : Asked} {answered : Answered} (h : readAnswered L value asked = .ok answered) :
    readAnswered L answered.json asked = .ok answered := by
  simp only [readAnswered, bind_eq_ok, pure_eq_ok, require_eq_ok] at h ⊢
  obtain ⟨source, -, sourceType, htype, documentRef, hdocument, expected, hexpected, -, hasked, observed, hobserved,
    status, hstatus, code, hcode, -, houtcome, -, hconsistent, rfl⟩ := h
  exact ⟨_, rfl, sourceType, again htype (textWith_eq_ok htype), documentRef, again hdocument (readRef_eq_ok hdocument),
    expected, again hexpected (readVersion_eq_ok hexpected), (), hasked, observed,
    again hobserved (readVersion_eq_ok hobserved), status, again hstatus (textWith_eq_ok hstatus), code,
    again hcode (textWith_eq_ok hcode), (), houtcome, (), hconsistent, rfl⟩

theorem readAnswers_json {values : List Json} {asked : List Asked} {answers : List Answered}
    (h : readAnswers L values asked = .ok answers) : readAnswers L (answers.map Answered.json) asked = .ok answers := by
  induction values generalizing asked answers with
  | nil =>
      cases asked with
      | nil =>
          cases h
          rfl
      | cons first rest => cases h
  | cons value values ih =>
      cases asked with
      | nil => cases h
      | cons first rest =>
          simp only [readAnswers, bind_eq_ok, pure_eq_ok] at h
          obtain ⟨answered, hanswered, others, hothers, rfl⟩ := h
          exact bind_eq_ok.mpr ⟨answered, readAnswered_json hanswered, bind_eq_ok.mpr ⟨others, ih hothers, rfl⟩⟩

theorem readAnswers_length {values : List Json} {asked : List Asked} {answers : List Answered}
    (h : readAnswers L values asked = .ok answers) : answers.length = asked.length := by
  induction values generalizing asked answers with
  | nil =>
      cases asked with
      | nil =>
          cases h
          rfl
      | cons first rest => cases h
  | cons value values ih =>
      cases asked with
      | nil => cases h
      | cons first rest =>
          simp only [readAnswers, bind_eq_ok, pure_eq_ok] at h
          obtain ⟨answered, -, others, hothers, rfl⟩ := h
          rw [List.length_cons, List.length_cons, ih hothers]

theorem readResultEvidence_json {asked : List Asked} {answers : List Answered}
    (h : readResultEvidence L value asked = .ok answers) :
    readResultEvidence L (.arr (answers.map Answered.json)) asked = .ok answers := by
  obtain ⟨values, -, hanswers⟩ := bind_eq_ok.mp h
  have hlength : (answers.map Answered.json).length = asked.length := by
    rw [List.length_map, readAnswers_length hanswers]
  exact bind_eq_ok.mpr ⟨_, listWithin_arr hlength.ge hlength.le, readAnswers_json hanswers⟩

theorem readCheckedAt_eq_ok {value now : Json} {checked : String}
    (h : readCheckedAt L value request now = .ok checked) :
    value = .str checked := by
  simp only [readCheckedAt, bind_eq_ok, pure_eq_ok] at h
  obtain ⟨stamp, hstamp, -, -, -, -, -, -, -, -, -, -, rfl⟩ := h
  exact (readTimestamp_eq_ok hstamp).1

/-- A result that was read for a request is read again as itself. -/
theorem validateVerificationResult_json {value now : Json} {result : Result}
    (h : validateVerificationResult L value request now = .ok result) :
    validateVerificationResult L result.json request now = .ok result := by
  simp only [validateVerificationResult, bind_eq_ok, pure_eq_ok, require_eq_ok] at h ⊢
  obtain ⟨document, -, root, -, -, hschema, id, hid, -, hsame, checkedAt, hchecked, evidence, hevidence, rfl⟩ := h
  refine ⟨_, rfl, _, rfl, (), ?_, id, again hid (readUuid_eq_ok hid), (), hsame, checkedAt, ?_, evidence,
    readResultEvidence_json hevidence, rfl⟩
  · exact beq_self_eq_true resultSchema
  · have hvalue := readCheckedAt_eq_ok hchecked
    rw [hvalue] at hchecked
    exact hchecked

/-- A request was read at an instant. -/
theorem validateVerificationRequest_now {value now : Json} (h : validateVerificationRequest L value now = .ok request) :
    ∃ text instant, now = .str text ∧ parseRfc3339 L.toInterpreter text = some instant := by
  simp only [validateVerificationRequest, bind_eq_ok] at h
  obtain ⟨-, -, -, -, -, -, -, -, -, -, -, -, -, -, -, -, -, -, -, -, -, -, stamp, hstamp, -⟩ := h
  obtain ⟨hnow, hparse⟩ := readTimestamp_eq_ok hstamp
  exact ⟨stamp.1, stamp.2, hnow, hparse⟩

end Verification

end WorkStack.Knowledge
