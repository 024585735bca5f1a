import WorkStack.RemoteUpdate.Contract
import WorkStack.Python.Decoding
import WorkStack.Python.Encoding
import WorkStack.Python.Sha256
import WorkStack.Effect.Refusing

/-!
# The journal of a remote update

The file that keeps the recorded identities of a flow across a restart, and the instances that read and
write it. A document speaks for one binding. It carries a sequence and the identity of its writer, and an
instance writes only over the very document that it has established before.
-/

open WorkStack.Python WorkStack.Python.Decoding WorkStack.Effect.Refusing

namespace WorkStack.RemoteUpdate

/-! ## Names -/

/-- The value of a stage -/
def Stage.text : Stage → String
  | .idle => "idle"
  | .preview => "preview"
  | .stop => "stop"
  | .backup => "backup"
  | .prepare => "prepare"
  | .probe => "probe"
  | .activate => "activate"
  | .verify => "verify"
  | .ready => "ready"
  | .failed => "failed"
  | .cancelled => "cancelled"
  | .unknown => "unknown"

/-- The texts of the `KIND_` constants -/
def Kind.text : Kind → String
  | .ownerStop => "owner_stop"
  | .backupCreate => "backup_create"
  | .backupRestore => "backup_restore"
  | .prepareApply => "prepare_apply"
  | .activationIssue => "activation_issue"
  | .activationPending => "activation_pending"
  | .activationConfirmed => "activation_confirmed"
  | .activationConfirm => "activation_confirm"
  | .activationRollback => "activation_rollback"

def kinds : List Kind :=
  [.ownerStop, .backupCreate, .backupRestore, .prepareApply, .activationIssue, .activationPending, .activationConfirmed,
    .activationConfirm, .activationRollback]

def Observation.text : Observation → String
  | .verified => "verified"
  | .failed => "failed"
  | .unknown => "unknown"

def observations : List Observation := [.verified, .failed, .unknown]

theorem Kind.find_text (kind : Kind) : kinds.find? (fun other ↦ other.text == kind.text) = some kind := by
  cases kind <;> decide

theorem Observation.find_text (retained : Observation) :
    observations.find? (fun other ↦ other.text == retained.text) = some retained := by
  cases retained <;> decide

namespace Journal

/-- `JournalUnavailable` and its kinds; `fault` is an exception of another class. -/
inductive Refusal where
  | bindingRefused (message : String)
  | unreadable (message : String)
  | bindingMismatch (message : String)
  | writeRefused (message : String)
  | writeUncertain (message : String)
  | fault
  deriving DecidableEq, Repr

abbrev Checked := Except Refusal

def journalSchemaVersion : ℤ := 1

def maxJournalBytes : ℕ := 8192

def maxRecords : ℕ := 2

/-! ## Bindings -/

def isOpaqueChar (c : Char) : Bool := c.isAlphanum || "._:@+-".toList.contains c

/-- `_OPAQUE_ID` -/
def isOpaqueId (text : String) : Bool :=
  (1 ≤ text.length && text.length ≤ 128) && text.toList.all isOpaqueChar

/-- `_WILDCARD_VALUES` -/
def wildcardValues : List String :=
  ["*", "?", "-", "any", "all", "none", "null", "default", "unknown", "wildcard"]

/-- Whether a value names one attempt and not any. -/
def namesOne (text : String) : Bool :=
  !wildcardValues.contains (String.ofList ((stripText isSpace text).toList.map Char.toLower))

/-- A text that `_admit_binding_value` lets through. -/
abbrev BindingValue := { text : String // isOpaqueId text ∧ namesOne text }

/-- `_admit_binding_value` -/
def admitBindingValue (name : String) : Json → Checked BindingValue
  | .str text =>
      if hopaqueId : isOpaqueId text then
        if hone : namesOne text then .ok ⟨text, hopaqueId, hone⟩
        else .error (.bindingRefused (name ++ " must name one attempt, not any"))
      else .error (.bindingRefused (name ++ " must be one opaque identifier"))
  | _ => .error (.bindingRefused (name ++ " must be one opaque identifier"))

/-- `JournalBinding`: the one update attempt that a document speaks for. -/
structure JournalBinding where
  workspaceId : BindingValue
  profileId : BindingValue
  updateAttemptId : BindingValue
  deriving DecidableEq

namespace JournalBinding

variable (binding : JournalBinding)

/-- `JournalBinding.digest`: over the exact triple, in a fixed order. -/
def digest : String :=
  let joined := "\x1f".intercalate
    [binding.workspaceId.val, binding.profileId.val, binding.updateAttemptId.val]
  String.ofList (Sha256.hexdigest (Json.utf8 joined.toList))

/-- `JournalBinding.document` -/
def document : Json := .obj [
  ("workspace_id", .str binding.workspaceId.val),
  ("profile_id", .str binding.profileId.val),
  ("update_attempt_id", .str binding.updateAttemptId.val)]

end JournalBinding

/-- The identity of an instance, sixteen hexadecimal digits drawn at its construction. -/
abbrev Writer := { text : String // isOpaqueId text }

/-! ## Records -/

/-- A `PendingOperation` as a caller hands it in: its fields may hold any text. -/
structure Identity where
  stage : String
  operationId : String
  kind : String
  previousAppRetained : String
  deriving DecidableEq, Repr

end Journal

/-- The fields of a recorded identity. -/
def PendingOperation.identity (record : PendingOperation) : Journal.Identity :=
  ⟨record.stage.text, record.operationId, record.kind.text, record.previousAppRetained.text⟩

/-- A record of the document. -/
def PendingOperation.json (record : PendingOperation) : Json := .obj [
  ("stage", .str record.stage.text),
  ("operation_id", .str record.operationId),
  ("kind", .str record.kind.text),
  ("previous_app_retained", .str record.previousAppRetained.text)]

namespace Journal

/-- What `_admit_records` is handed: identities from memory, or values of a document. -/
inductive Entry where
  | identity (record : Identity)
  | value (json : Json)

/-- The fields of an entry, undecided. -/
structure EntryFields where
  stage : Json
  operationId : Json
  kind : Json
  previousAppRetained : Json

def recordRequired : List String := ["stage", "operation_id", "kind"]

def recordKeys : List String := recordRequired ++ ["previous_app_retained"]

/-- `_admit_record_fields`: a record that carries no answer says `unknown`. -/
def admitRecordFields (fields : Fields) : Checked EntryFields := do
  check (recordRequired.all (Dict.keys fields).contains && (Dict.keys fields).all recordKeys.contains)
    (.unreadable "an update journal record has unknown or missing fields")
  return ⟨item fields "stage", item fields "operation_id", item fields "kind",
    (Dict.get fields "previous_app_retained").getD (.str "unknown")⟩

/-- The kind of a record, one that names a mutation. -/
def admitKind : Json → Checked Kind
  | .str text =>
      match kinds.find? fun kind ↦ kind.text == text with
      | some kind => .ok kind
      | none => .error (.unreadable "an update journal record names an unknown operation")
  | _ => .error (.unreadable "an update journal record names an unknown operation")

def admitOperationId : Json → Checked String
  | .str text =>
      if isOpaqueId text then .ok text
      else .error (.unreadable "an update journal record has no opaque operation identity")
  | _ => .error (.unreadable "an update journal record has no opaque operation identity")

/-- The retention answer; what cannot be hashed cannot be looked for among the answers. -/
def admitRetained : Json → Checked Observation
  | .str text =>
      match observations.find? fun retained ↦ retained.text == text with
      | some retained => .ok retained
      | none => .error (.unreadable "an update journal record has a foreign retention answer")
  | .arr _ => .error .fault
  | .obj _ => .error .fault
  | _ => .error (.unreadable "an update journal record has a foreign retention answer")

/-- `_admit_identity` -/
def admitIdentity (fields : EntryFields) : Checked PendingOperation := do
  let kind ← admitKind fields.kind
  check (isText kind.spec.stage.text fields.stage)
    (.unreadable ("an update journal record pairs " ++ kind.text ++ " with a foreign stage"))
  let operationId ← admitOperationId fields.operationId
  let retained ← admitRetained fields.previousAppRetained
  return ⟨kind.spec.stage, operationId, kind, retained⟩

/-- `_admit_record` -/
def admitRecord : Entry → Checked PendingOperation
  | .identity record => admitIdentity
      ⟨.str record.stage, .str record.operationId, .str record.kind, .str record.previousAppRetained⟩
  | .value (.obj fields) => admitRecordFields fields >>= admitIdentity
  | .value _ => .error (.unreadable "an update journal record is not a recorded identity")

/-- `_admit_slots`: one anchor and one mutation in flight at most, and no identity twice. -/
def admitSlots (records : List PendingOperation) : Checked Unit := do
  check ((records.filter fun record ↦ record.kind.isAnchor).length ≤ 1)
    (.unreadable "the update journal holds more than one activation anchor")
  check ((records.filter fun record ↦ !record.kind.isAnchor).length ≤ 1)
    (.unreadable "the update journal holds more than one mutation in flight")
  check (decide (records.map fun record ↦ (record.kind, record.operationId)).Nodup)
    (.unreadable "the update journal repeats one recorded identity")

/-- `_admit_records`, of a sequence -/
def admitRecords (entries : List Entry) : Checked (List PendingOperation) := do
  check (entries.length ≤ maxRecords) (.unreadable "the update journal holds at most two identities")
  let records ← entries.mapM admitRecord
  admitSlots records
  return records

/-! ## Documents -/

/-- A document that agrees with itself. -/
structure Document where
  binding : JournalBinding
  sequence : ℤ
  writer : String
  records : List Json

def documentKeys : List String := ["schema_version", "binding", "binding_digest", "sequence", "writer", "records"]

def bindingKeys : List String := ["workspace_id", "profile_id", "update_attempt_id"]

/-- `_document` -/
def document (binding : JournalBinding) (sequence : ℤ) (writer : Writer) (records : List PendingOperation) : Json :=
  .obj [
    ("schema_version", .int journalSchemaVersion),
    ("binding", binding.document),
    ("binding_digest", .str binding.digest),
    ("sequence", .int sequence),
    ("writer", .str writer.val),
    ("records", .arr (records.map PendingOperation.json))]

/-- The bytes of the payload: the document on a line. -/
def payloadSize (value : Json) : ℕ := (Json.asciiText value ++ ['\n']).length

/-- Whether a value equals the version and is no truth value. -/
def isSchemaVersion : Json → Bool
  | .int value => value == journalSchemaVersion
  | .float lexeme => lexeme == "1.0"
  | _ => false

def admitSequence : Json → Checked ℤ
  | .int value =>
      if 1 ≤ value then .ok value else .error (.unreadable "the update journal sequence is not a counter")
  | _ => .error (.unreadable "the update journal sequence is not a counter")

def admitWriter : Json → Checked String
  | .str text =>
      if isOpaqueId text then .ok text
      else .error (.unreadable "the update journal writer is not an identifier")
  | _ => .error (.unreadable "the update journal writer is not an identifier")

def foreignRecord : Refusal := .bindingMismatch "the update journal on record belongs to another update attempt"

/-- The binding of a document, as `_admit_binding` reads it back. -/
def readBinding (stored digest : Json) : Checked JournalBinding := do
  let fields ← asObject (.unreadable "the update journal binding is not the closed shape") stored
  check (hasKeys bindingKeys fields) (.unreadable "the update journal binding is not the closed shape")
  let workspaceId ← admitBindingValue "workspace_id" (item fields "workspace_id")
  let profileId ← admitBindingValue "profile_id" (item fields "profile_id")
  let updateAttemptId ← admitBindingValue "update_attempt_id" (item fields "update_attempt_id")
  check (isText (JournalBinding.digest ⟨workspaceId, profileId, updateAttemptId⟩) digest) foreignRecord
  return ⟨workspaceId, profileId, updateAttemptId⟩

/-- `_admit_document`, as far as it does not ask whose document it is. -/
def readDocument (raw : Json) : Checked Document := do
  let fields ← asObject (.unreadable "the update journal is not an object") raw
  check (hasKeys documentKeys fields) (.unreadable "the update journal has unknown or missing fields")
  check (isSchemaVersion (item fields "schema_version"))
    (.unreadable "the update journal schema must be exactly 1")
  let sequence ← admitSequence (item fields "sequence")
  let writer ← admitWriter (item fields "writer")
  let records ← asList (.unreadable "the update journal records are not a list") (item fields "records")
  let binding ← readBinding (item fields "binding") (item fields "binding_digest")
  return ⟨binding, sequence, writer, records⟩

/-- `_admit_superseded`: the document of another attempt is settled, or refused. -/
def admitOwner (own : JournalBinding) (document : Document) : Checked Unit :=
  check (document.binding = own || document.records.isEmpty) foreignRecord

/-- `_admit_document` -/
def admitDocument (own : JournalBinding) (raw : Json) : Checked Document := do
  let document ← readDocument raw
  admitOwner own document
  return document

/-! ## The file -/

/-- What is in the file: a document with its size, or something that is no document. -/
inductive Content where
  | document (value : Json) (size : ℕ)
  | malformed (size : ℕ)

/-- The file beside the state root, if there is one. -/
abbrev File := Option Content

/-- The value that the bytes of the file are decoded to. -/
def Content.decoded : Content → Checked Json
  | .document value size =>
      if size ≤ maxJournalBytes then .ok value
      else .error (.unreadable "the update journal is larger than its bound")
  | .malformed size =>
      if size ≤ maxJournalBytes then .error (.unreadable "the update journal is not valid JSON")
      else .error (.unreadable "the update journal is larger than its bound")

/-- `_read_document`; the file may be one that cannot be read just now. -/
def readFile (own : JournalBinding) (readable : Bool) : File → Checked (Option Document)
  | none => .ok none
  | some content => do
      check readable (.unreadable "the update journal could not be read")
      let raw ← content.decoded
      let document ← admitDocument own raw
      return some document

/-! ## Instances -/

/-- What an instance compares before it writes: the sequence and the writer. -/
abbrev Mark := ℤ × String

def Document.mark (document : Document) : Mark := (document.sequence, document.writer)

/-- `RemoteUpdateJournal` -/
structure JournalInstance where
  binding : JournalBinding
  writer : Writer
  /-- The mark this instance has established, or that there was no file. -/
  observed : Option Mark
  /-- The settled binding of another attempt that the last read admitted. -/
  superseded : Option JournalBinding
  uncertain : Bool

/-- A constructed instance. -/
def JournalInstance.fresh (binding : JournalBinding) (writer : Writer) : JournalInstance :=
  ⟨binding, writer, none, none, false⟩

/-- The binding that a read has superseded. -/
def supersededBy (own : JournalBinding) : Checked (Option Document) → Option JournalBinding
  | .ok (some document) => if document.binding = own then none else some document.binding
  | _ => none

/-- An instance after a read of the file. -/
def JournalInstance.afterRead (journal : JournalInstance) (read : Checked (Option Document)) : JournalInstance :=
  { journal with superseded := supersededBy journal.binding read }

/-- `load`, after the file was read. -/
def loadRead (journal : JournalInstance) :
    Checked (Option Document) → JournalInstance × Checked (List PendingOperation)
  | .error refusal => (journal, .error refusal)
  | .ok none => ({ journal with observed := none }, .ok [])
  | .ok (some document) =>
      match admitRecords (document.records.map .value) with
      | .error refusal => (journal, .error refusal)
      | .ok records => ({ journal with observed := some document.mark }, .ok records)

/-- `load` -/
def load (journal : JournalInstance) (readable : Bool) (file : File) :
    JournalInstance × Checked (List PendingOperation) :=
  let read := readFile journal.binding readable file
  loadRead (journal.afterRead read) read

/-- What the world does to a call of `record`. -/
inductive Fate where
  /-- Another writer holds the lock, or it cannot be opened or prepared. -/
  | contended
  /-- The file cannot be read under the lock. -/
  | unreadable
  /-- The temporary file cannot be staged. -/
  | unstaged
  /-- The process ends, before or after the replace. -/
  | crashed (replaced : Bool)
  /-- The replace raises, whether it took place or not. -/
  | replaceRaised (replaced : Bool)
  | completed
  deriving DecidableEq, Repr

/-- Whether the replace takes place, once the call has come that far. -/
def Fate.replaces : Fate → Bool
  | .crashed replaced => replaced
  | .replaceRaised replaced => replaced
  | .completed => true
  | _ => false

/-- What a call of `record` leaves: the instance unless its process has ended, what it put in place of the
file, and the answer. -/
structure Recorded where
  journal : Option JournalInstance
  written : Option Content
  answer : Option (Checked Unit)

/-- A call that writes nothing. -/
def Recorded.refused (journal : JournalInstance) (refusal : Refusal) : Recorded :=
  ⟨some journal, none, some (.error refusal)⟩

/-- `sequence`: one more than that of the file. -/
def nextSequence (current : Option Document) : ℤ := (current.map Document.sequence).getD 0 + 1

/-- `_replace`, and what `_record_locked` does after it. -/
def replaceFile (journal : JournalInstance) (sequence : ℤ) (records : List PendingOperation) (fate : Fate) : Recorded :=
  let value := document journal.binding sequence journal.writer records
  let size := payloadSize value
  let written := if fate.replaces then some (.document value size) else none
  if maxJournalBytes < size then
    .refused journal (.writeRefused "the update journal record is larger than its bound")
  else
    match fate with
    | .crashed _ => ⟨none, written, none⟩
    | .replaceRaised _ =>
        ⟨some { journal with uncertain := true }, written,
          some (.error (.writeUncertain "the update journal write outcome is unknown"))⟩
    | .completed => ⟨some { journal with observed := some (sequence, journal.writer.val) }, written, some (.ok ())⟩
    | _ => .refused journal (.writeRefused "the update journal could not be staged")

/-- `_record_locked` -/
def recordLocked (journal : JournalInstance) (records : List PendingOperation) (fate : Fate) (file : File) : Recorded :=
  match readFile journal.binding (fate ≠ .unreadable) file with
  | .error refusal => .refused (journal.afterRead (.error refusal)) refusal
  | .ok current =>
      if current.map Document.mark = journal.observed then
        replaceFile (journal.afterRead (.ok current)) (nextSequence current) records fate
      else .refused (journal.afterRead (.ok current))
        (.writeRefused "another update journal writer advanced the record; nothing was written")

/-- `record` -/
def record (journal : JournalInstance) (entries : List Identity) (fate : Fate) (file : File) : Recorded :=
  match admitRecords (entries.map .identity) with
  | .error refusal => .refused journal refusal
  | .ok records =>
      if journal.uncertain then
        .refused journal
          (.writeUncertain "the previous update journal write is unresolved; reload before writing")
      else if fate = .contended then
        .refused journal
          (.writeRefused "another update journal writer holds the record; nothing was written")
      else recordLocked journal records fate file

end Journal

end WorkStack.RemoteUpdate
