import WorkStack.Connection.Normal
import WorkStack.Python.Mapping
import WorkStack.Effect.Stepwise

/-!
# The evidence of an activation

An activation leaves a receipt and the registry it replaced. The receipt says how far the activation has
come, and as long as it is neither confirmed nor put back it answers for the live registry. The rules
below decide whether another attempt continues it, competes with it, or has to wait.
-/

open WorkStack.Python WorkStack.Python.Decoding WorkStack.Effect WorkStack.Effect.Refusing

namespace WorkStack.Connection

/-! ## Receipts -/

/-- `ActivationState` -/
inductive ActivationState where
  | prepared | pending | confirmed | restored | superseded
  deriving DecidableEq, Repr

/-- `UNCONFIRMED_ACTIVATION_STATES` -/
def ActivationState.isUnconfirmed : ActivationState → Bool
  | .prepared => true
  | .pending => true
  | _ => false

/-- `ActivationReceipt` -/
structure ActivationReceipt where
  activationId : String
  state : ActivationState
  previousRegistryDigest : Store.Digest
  activatedRegistryDigest : Store.Digest
  profileId : String
  profileDigest : Store.Digest
  proofDigest : Store.Digest
  rollbackFile : String
  deriving DecidableEq

/-- A receipt in another state. -/
def ActivationReceipt.moved (receipt : ActivationReceipt) (state : ActivationState) : ActivationReceipt :=
  { receipt with state }

abbrev ActivationReceipt.isUnconfirmed (receipt : ActivationReceipt) : Bool := receipt.state.isUnconfirmed

def maxActivationRecords : ℕ := 512

/-- The name of the file that keeps the replaced registry. -/
def rollbackName (activationId : String) : String := activationId ++ ".rollback.json"

/-! ## Decisions -/

/-- `ActivationAttemptDecision` -/
inductive ActivationAttemptDecision where
  | create
  | resume (receipt : ActivationReceipt)
  | refuse (code : String)

/-- What an attempt is compared by. -/
structure Attempt where
  currentRegistryDigest : Store.Digest
  candidateRegistryDigest : Store.Digest
  profileId : String
  profileDigest : Store.Digest

/-- `_continues_attempt` -/
def continuesAttempt (attempt : Attempt) (receipt : ActivationReceipt) : Bool :=
  receipt.profileId = attempt.profileId && receipt.profileDigest = attempt.profileDigest &&
    receipt.activatedRegistryDigest = attempt.candidateRegistryDigest &&
    (attempt.currentRegistryDigest = receipt.previousRegistryDigest ||
      attempt.currentRegistryDigest = receipt.activatedRegistryDigest)

/-- `classify_activation_attempt`; where no receipt competes and there is one, there is one to resume. -/
def classifyActivationAttempt (receipts : List ActivationReceipt) (attempt : Attempt) : ActivationAttemptDecision :=
  let unconfirmed := receipts.filter ActivationReceipt.isUnconfirmed
  let retries := unconfirmed.filter (continuesAttempt attempt)
  let competing := unconfirmed.filter fun receipt ↦ !retries.contains receipt
  if unconfirmed.isEmpty then .create
  else if 1 < retries.length then .refuse "activation_ambiguous"
  else if !competing.isEmpty then
    if competing.any fun receipt ↦ receipt.activatedRegistryDigest = attempt.candidateRegistryDigest then
      .refuse "activation_conflict"
    else .refuse "activation_unconfirmed"
  else
    match retries with
    | receipt :: _ => .resume receipt
    | [] => .refuse "activation_manual_review"

/-- `ActivationReconciliationPlan` -/
structure ReconciliationPlan where
  keep : Option ActivationReceipt
  supersede : List ActivationReceipt

/-- The receipts that are kept and those that are superseded, in their order; there is no plan where one
is neither. -/
def sortReceipts (current : Store.Digest) :
    List ActivationReceipt → Option (List ActivationReceipt × List ActivationReceipt)
  | [] => some ([], [])
  | receipt :: receipts =>
      if receipt.isUnconfirmed then
        if receipt.activatedRegistryDigest = current ∧ receipt.previousRegistryDigest ≠ current then
          (sortReceipts current receipts).map fun rest ↦ (receipt :: rest.1, rest.2)
        else if receipt.previousRegistryDigest = current then
          (sortReceipts current receipts).map fun rest ↦ (rest.1, receipt :: rest.2)
        else none
      else sortReceipts current receipts

/-- `plan_activation_reconciliation` -/
def planActivationReconciliation (receipts : List ActivationReceipt) (current : Store.Digest) :
    Checked ReconciliationPlan :=
  match sortReceipts current receipts with
  | some (keep, supersede) =>
      if 1 < keep.length then .error (.attempt "activation_manual_review")
      else .ok ⟨keep.head?, supersede⟩
  | none => .error (.attempt "activation_manual_review")

/-! ## The state root -/

/-- The files under the state root: the registry, and the activation directory with its receipts by their
activation and its rollbacks by their name. -/
structure StateRoot where
  registry : Content
  receipts : Mapping String ActivationReceipt
  rollbacks : Mapping String Content

/-- The files of the activation directory. -/
def StateRoot.entries (root : StateRoot) : ℕ := root.receipts.items.length + root.rollbacks.items.length

/-- `activation_receipts` -/
def activationReceipts (root : StateRoot) : Checked (List ActivationReceipt) :=
  if maxActivationRecords < root.entries then .error (.invalid "Too many activation records require manual review")
  else .ok ((root.receipts.items.map Prod.snd).insertionSort fun a b ↦ a.activationId.toList ≤ b.activationId.toList)

/-- `_read_receipt` -/
def readReceipt (root : StateRoot) (activationId : String) : Checked ActivationReceipt :=
  match root.receipts.get activationId with
  | some receipt => .ok receipt
  | none => .error (.invalid "activation receipt is missing or not a regular file")

section Reading

variable (H : Host)

/-- `_read_registry` -/
def readLive (root : StateRoot) : Checked ConnectionRegistry := readContent H "connection registry" root.registry

/-- The digest of the live registry. -/
def liveDigest (root : StateRoot) : Checked Store.Digest := readLive H root >>= registryDigest H

/-- `_require_digest` -/
def requireDigest (registry : ConnectionRegistry) (expected : Store.Digest) : Checked Unit := do
  let digest ← registryDigest H registry
  check (digest = expected) (.conflict "Connection registry changed after it was read")

/-- The registry that a receipt answers for, as `_require_readable_rollback` reads it. -/
def readRollback (root : StateRoot) (receipt : ActivationReceipt) : Checked ConnectionRegistry := do
  match root.rollbacks.get receipt.rollbackFile with
  | none => .error (.invalid "activation rollback is missing or not a regular file")
  | some content => do
      let rollback ← readContent H "activation rollback" content
      let digest ← registryDigest H rollback
      check (digest = receipt.previousRegistryDigest) (.invalid "Activation rollback digest is invalid")
      return rollback

/-- `pending_activation_for_registry` -/
def pendingActivationForRegistry (root : StateRoot) (expected : Store.Digest) : Checked (Option ActivationReceipt) := do
  let receipts ← activationReceipts root
  let found := receipts.filter fun receipt ↦ receipt.isUnconfirmed && receipt.activatedRegistryDigest = expected
  check (found.length ≤ 1) (.invalid "Multiple pending activations match the current registry")
  return found.head?

/-- `validate_activation_rollback` -/
def validateActivationRollback (root : StateRoot) (receipt : ActivationReceipt) : Checked Store.Digest := do
  let persisted ← readReceipt root receipt.activationId
  check (persisted = receipt) (.conflict "Activation receipt changed before recovery")
  let _ ← readRollback H root persisted
  return persisted.previousRegistryDigest

end Reading

/-! ## Proofs of a test -/

/-- `ProfileTestProof`; the clock is counted in ticks. -/
structure ProfileTestProof where
  proofId : String
  profileId : String
  profileDigest : Store.Digest
  baseRegistryDigest : Store.Digest
  expiresAt : ℤ
  deriving DecidableEq

/-- The state root with what the process keeps for itself. -/
structure Service where
  root : StateRoot
  proofs : List ProfileTestProof

abbrev Command := Stepwise Service Refusal

/-! ## Files -/

/-- A step that changes the files. -/
def fileStep (change : StateRoot → StateRoot) : Command Unit :=
  Stepwise.step fun service ↦ { service with root := change service.root }

/-- A look at the files. -/
def look {α : Type} (f : StateRoot → Checked α) : Command α := Stepwise.read fun service ↦ f service.root

theorem look_ok {α β : Type} {f : StateRoot → Checked α} {g : α → Command β} {service : Service} {a : α}
    (h : f service.root = .ok a) : (look f >>= g) service = g a service :=
  Stepwise.read_bind_ok (f := fun service : Service ↦ f service.root) h

theorem look_error {α β : Type} {f : StateRoot → Checked α} {g : α → Command β} {service : Service} {e : Refusal}
    (h : f service.root = .error e) : (look f >>= g) service = ⟨[], service, .error e⟩ :=
  Stepwise.read_bind_error (f := fun service : Service ↦ f service.root) h

def StateRoot.withRegistry (content : Content) (root : StateRoot) : StateRoot := { root with registry := content }

def StateRoot.withReceipt (receipt : ActivationReceipt) (root : StateRoot) : StateRoot :=
  { root with receipts := root.receipts.set receipt.activationId receipt }

def StateRoot.withRollback (name : String) (content : Content) (root : StateRoot) : StateRoot :=
  { root with rollbacks := root.rollbacks.set name content }

/-- `_write_new` of a rollback -/
def writeNewRollback (name : String) (content : Content) : Command Unit := do
  look fun root ↦ check (!root.rollbacks.has name) (.conflict "activation rollback already exists")
  fileStep (StateRoot.withRollback name content)

/-- `_write_new` of a receipt -/
def writeNewReceipt (receipt : ActivationReceipt) : Command Unit := do
  look fun root ↦ check (!root.receipts.has receipt.activationId) (.conflict "activation receipt already exists")
  fileStep (StateRoot.withReceipt receipt)

/-- `_replace_receipt_if_digest`: the receipt that is replaced has to be the expected one. -/
def replaceReceiptIfDigest (receipt expected : ActivationReceipt) : Command Unit := do
  look fun root ↦ do
    let current ← readReceipt root receipt.activationId
    check (current = expected) (.conflict "Activation receipt changed before transition")
  fileStep (StateRoot.withReceipt receipt)

/-- `_replace_registry_if_digest` -/
def replaceRegistryIfDigest (H : Host) (registry : ConnectionRegistry) (expected : Store.Digest) : Command Unit := do
  let content ← look fun root ↦ do
    let current ← readLive H root
    requireDigest H current expected
    canonicalRegistry H registry
  fileStep (StateRoot.withRegistry content)

end WorkStack.Connection
