import WorkStack.Effect.Command
import WorkStack.Store.Layout

/-!
# The data directory and the process that owns it

A data directory holds the documents as bytes, and beside them the recovery journal, the committed
manifest and the adoption receipt. Every read of a file and every replacement is one atomic step;
the comparison that guards the replacement of a document belongs to that step.

The digest, the JSON decoder, the timestamp parser and the judgement of the decoded documents are
parameters, and nothing is assumed about them.
-/

namespace WorkStack.Store

open Effect

/-- What `validate_document_values` reports of admitted documents. -/
structure Admission where
  workspaceUid : String
  taskCount : ℕ
  migrationOrigin : String
  deriving DecidableEq

structure StoreRules where
  sha256 : Bytes → Digest
  /-- `json.loads` of the decoded text; nothing when the bytes are not UTF-8 or not JSON. -/
  loads : Bytes → Option Json
  /-- `datetime.fromisoformat`: whether a parsed stamp has a timezone. -/
  fromIsoFormat : String → Option Bool
  /-- `validate_document_values` at the current schema version, with the text of its refusal. -/
  validateDocumentValues : (DocName → Json) → Except String Admission

/-! ## Files -/

structure JournalWrite where
  name : String
  value : Json
  sha256 : String

structure Journal where
  version : ℤ
  operationId : String
  createdAt : String
  writes : List JournalWrite

structure AdoptionReceipt where
  version : ℤ
  idempotencyKey : Option String
  expectedGeneration : ℕ
  expectedManifestDigest : Digest
  resultGeneration : ℕ
  resultManifestDigest : Digest
  workspaceId : String

@[ext]
structure Disk where
  docs : DocName → Option Bytes
  journal : Option Journal
  manifest : Option Manifest
  receipt : Option AdoptionReceipt

namespace Disk

def digests (sha256 : Bytes → Digest) (disk : Disk) : Files := fun name ↦ (disk.docs name).map sha256

def write (disk : Disk) (name : DocName) (body : Bytes) : Disk :=
  { disk with docs := Function.update disk.docs name (some body) }

@[simp] theorem write_docs (disk : Disk) (name : DocName) (body : Bytes) :
    (disk.write name body).docs = Function.update disk.docs name (some body) := rfl

@[simp] theorem write_journal (disk : Disk) (name : DocName) (body : Bytes) :
    (disk.write name body).journal = disk.journal := rfl

@[simp] theorem write_manifest (disk : Disk) (name : DocName) (body : Bytes) :
    (disk.write name body).manifest = disk.manifest := rfl

/-- An external editor may change, create or remove any document, and nothing else. -/
def ExternalEdit (before after : Disk) : Prop :=
  after.journal = before.journal ∧ after.manifest = before.manifest ∧ after.receipt = before.receipt

theorem ExternalEdit.refl (disk : Disk) : ExternalEdit disk disk := ⟨rfl, rfl, rfl⟩

theorem ExternalEdit.trans (u v w : Disk) (h : ExternalEdit u v) (h' : ExternalEdit v w) :
    ExternalEdit u w :=
  ⟨h'.1.trans h.1, h'.2.1.trans h.2.1, h'.2.2.trans h.2.2⟩

end Disk

/-! ## Atomic steps -/

/-- The place of the source a document is read from. -/
inductive ReadSite where
  /-- The digest of one document in `_authoritative_hashes_locked`. -/
  | authoritativeHash
  /-- The same digest where `_inspect_candidate_locked` starts. -/
  | candidateHash
  /-- The same digest where `_validate_external_candidate_locked` compares it once more. -/
  | candidateRecheck
  /-- `_invalid_candidate_changed_files_locked` -/
  | invalidCandidate
  /-- `_read_json_locked` of a document. -/
  | document
  /-- `_commit_baseline_locked` without a manifest. -/
  | commitBaseline
  /-- `_assert_recovery_targets_safe_locked` -/
  | recoverySafety
  /-- The digests `_recover_locked` collects into `replace_expectations`. -/
  | replaceExpectation
  deriving DecidableEq

/-- The function of the source a manifest is written by. -/
inductive ManifestSite where
  | committed | localBaseline | ensured
  deriving DecidableEq

inductive DiskOp where
  | isFile (site : ReadSite) (name : DocName)
  | readBytes (site : ReadSite) (name : DocName)
  /-- `_atomic_write_locked` of a document; the expectation is compared in the same step. -/
  | replaceDoc (name : DocName) (expectation : Option (Option Digest)) (value : Json)
  | journalExists
  | readJournal
  | writeJournal (journal : Journal)
  | unlinkJournal
  | readManifest
  | writeManifest (site : ManifestSite) (manifest : Manifest)
  | readReceipt
  | writeReceipt (receipt : AdoptionReceipt)

@[reducible] def DiskOp.Answer : DiskOp → Type
  | isFile _ _ => Bool
  | readBytes _ _ => Option Bytes
  | replaceDoc _ _ _ => Bool
  | journalExists => Bool
  | readJournal => Option Journal
  | writeJournal _ => Unit
  | unlinkJournal => Unit
  | readManifest => Option Manifest
  | writeManifest _ _ => Unit
  | readReceipt => Option AdoptionReceipt
  | writeReceipt _ => Unit

abbrev diskSignature : Signature := ⟨DiskOp, DiskOp.Answer⟩

/-- Whether a replacement goes through: a document without an expectation is always replaced. -/
def Disk.expected (sha256 : Bytes → Digest) (disk : Disk) (name : DocName)
    (expectation : Option (Option Digest)) : Bool :=
  match expectation with
  | none => true
  | some digest => disk.digests sha256 name = digest

def Disk.perform (sha256 : Bytes → Digest) : (o : DiskOp) → Disk → o.Answer × Disk
  | .isFile _ name, disk => ((disk.docs name).isSome, disk)
  | .readBytes _ name, disk => (disk.docs name, disk)
  | .replaceDoc name expectation value, disk =>
      if disk.expected sha256 name expectation then
        (true, disk.write name value.serializedJsonBytes)
      else (false, disk)
  | .journalExists, disk => (disk.journal.isSome, disk)
  | .readJournal, disk => (disk.journal, disk)
  | .writeJournal journal, disk => ((), { disk with journal := some journal })
  | .unlinkJournal, disk => ((), { disk with journal := none })
  | .readManifest, disk => (disk.manifest, disk)
  | .writeManifest _ manifest, disk => ((), { disk with manifest := some manifest })
  | .readReceipt, disk => (disk.receipt, disk)
  | .writeReceipt receipt, disk => ((), { disk with receipt := some receipt })

abbrev machine (R : StoreRules) : Machine diskSignature := ⟨Disk, Disk.perform R.sha256⟩

/-! ## Process memory -/

structure StoreReadiness where
  schemaVersion : ℤ
  workspaceUid : String
  taskCount : ℕ
  migrationOrigin : String

structure ChangeEvent where
  id : ℕ
  type : String
  workspaceId : String
  generation : ℕ
  changedFiles : List DocName

/-- A record of the event window: a change the store reports, or a published change notice. -/
inductive EventRecord where
  | change (event : ChangeEvent)
  | notice (id : ℕ) (notice : Json)

namespace EventRecord

def id : EventRecord → ℕ
  | change event => event.id
  | notice id _ => id

end EventRecord

/-- The attributes of a `Store` that outlive one call. -/
structure Process where
  readiness : Option StoreReadiness
  generation : ℕ
  syncState : SyncState
  syncFingerprint : Option (SyncState × Digest)
  eventSequence : ℕ
  events : List EventRecord
  recoveredFiles : List DocName

/-- A freshly constructed `Store`. -/
def Process.fresh : Process := ⟨none, 0, .inSync, none, 0, [], []⟩

abbrev StoreCommand (α : Type) := Command diskSignature Process StoreError α

/-- The value a check admits; its refusal is raised as a `StoreCorruptError`. -/
def accept {α : Type} (result : Except String α) : StoreCommand α :=
  Command.ofExcept (result.mapError .corrupt)

/-- One step on the data directory. -/
def step (o : DiskOp) : StoreCommand o.Answer := Command.perform (S := diskSignature) o

end WorkStack.Store
