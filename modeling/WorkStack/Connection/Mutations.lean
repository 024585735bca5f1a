import WorkStack.Connection.Evidence

/-!
# Mutations of the registry

The operations that change the registry, each under the lock that all of them share. An edit of metadata
is compared and swapped. An activation asks for the proof of a recent test besides, and leaves its
evidence before the registry is replaced.
-/

open WorkStack.Python WorkStack.Python.Decoding WorkStack.Effect WorkStack.Effect.Refusing

namespace WorkStack.Connection

variable (H : Host)

/-! ## Proofs -/

def maxProofs : ℕ := 128

/-- `ProfileTestResult`, as far as it is documented. -/
structure ProfileTestResult where
  profileId : String
  kind : String
  status : String
  actualWorkspaceId : Option String
  productVersion : Option String
  protocolVersion : Option ℤ
  hasAuthority : Bool
  deriving DecidableEq, Repr

/-- A text of a result that is only checked where there is one. -/
def checkOptional {α : Type} (accepts : α → Bool) (refusal : Refusal) (value : Option α) : Checked Unit :=
  check (value.all accepts) refusal

/-- `profile_test_result_to_document`, as far as it refuses. -/
def checkTestResult (result : ProfileTestResult) : Checked Unit := do
  check (["local", "ssh"].contains result.kind && ["ready", "candidate", "identity_mismatch"].contains result.status)
    (.invalid "Profile test result status is invalid")
  check (H.isRfc4122Uuid result.profileId) (.invalid "Workspace identity is invalid")
  checkOptional H.isRfc4122Uuid (.invalid "Workspace identity is invalid") result.actualWorkspaceId
  checkOptional (fun text ↦ text != "" && text.length ≤ 64 && !text.toList.any fun c ↦ c.toNat < 32)
    (.invalid "Product version is invalid") result.productVersion
  checkOptional (fun version ↦ 0 ≤ version && version ≤ 1000000) (.invalid "Protocol version is invalid")
    result.protocolVersion
  check (result.status != "candidate" ||
      (result.actualWorkspaceId.isNone && result.productVersion.isNone && result.protocolVersion.isNone))
    (.invalid "Candidate profile test result cannot claim Store metadata")
  check (result.status != "candidate" || !result.hasAuthority)
    (.invalid "Candidate profile test result cannot claim authority metadata")
  check (result.status == "candidate" ||
      (result.actualWorkspaceId.isSome && result.productVersion.isSome && result.protocolVersion.isSome))
    (.invalid "Verified profile test result is missing Store metadata")

/-- `_prune_proofs_locked` -/
def pruneProofs (now : ℤ) (proofs : List ProfileTestProof) : List ProfileTestProof :=
  proofs.filter fun proof ↦ now < proof.expiresAt

/-- The first of the proofs that expire soonest. -/
def oldestProof : List ProfileTestProof → Option ProfileTestProof
  | [] => none
  | proof :: proofs =>
      match oldestProof proofs with
      | none => some proof
      | some other => if proof.expiresAt ≤ other.expiresAt then some proof else some other

/-- The proofs with a new one, which takes the place of the oldest where there are too many. -/
def addProof (proof : ProfileTestProof) (proofs : List ProfileTestProof) : List ProfileTestProof :=
  let kept :=
    if maxProofs ≤ proofs.length then
      match oldestProof proofs with
      | some oldest => proofs.filter fun other ↦ other.proofId != oldest.proofId
      | none => proofs
    else proofs
  kept ++ [proof]

def rememberProofs (change : List ProfileTestProof → List ProfileTestProof) : Command Unit :=
  Stepwise.remember fun service ↦ { service with proofs := change service.proofs }

/-- What a result has to prove of a profile; the digest that it is proven of. -/
def testedDigest (root : StateRoot) (profile : ConnectionProfile) (result : ProfileTestResult) (base : Store.Digest)
    (now : ℤ) : Checked Store.Digest := do
  let current ← readLive H root
  requireDigest H current base
  checkTestResult H result
  check (result.status == "ready" && result.profileId == profile.profileId &&
      result.kind == profile.endpoint.kind && result.actualWorkspaceId == some profile.expectedWorkspaceId)
    (.proof "Profile Test result does not prove the requested workspace authority")
  check (0 ≤ now) (.invalid "Monotonic clock returned an invalid value")
  profileDigest H profile

/-- `issue_successful_test_proof`, with the id that is drawn and the time of the clock. -/
def issueSuccessfulTestProof (profile : ConnectionProfile) (result : ProfileTestResult) (base : Store.Digest)
    (proofId : String) (now ttl : ℤ) : Command ProfileTestProof := do
  let digest ← look fun root ↦ testedDigest H root profile result base now
  let proof : ProfileTestProof := ⟨proofId, profile.profileId, digest, base, now + ttl⟩
  rememberProofs fun proofs ↦ addProof proof (pruneProofs now proofs)
  return proof

/-! ## Metadata -/

/-- `_active_profile` -/
def activeProfile (registry : ConnectionRegistry) : Checked ConnectionProfile :=
  match registry.profiles.filter fun profile ↦ some profile.profileId == registry.activeProfileId with
  | [profile] => .ok profile
  | _ => .error (.invalid "Connection registry active profile is invalid")

/-- `_authority_document`: the document of a profile without its label and its live updates. -/
def authorityDocument (profile : ConnectionProfile) : Checked ConnectionProfile := do
  let document ← profileDocument H profile
  return { document with label := "", liveUpdates := false }

/-- `_require_metadata_only_change` -/
def requireMetadataOnlyChange (current candidate : ConnectionRegistry) : Checked Unit := do
  check (candidate.activeProfileId == current.activeProfileId)
    (.invalid "Metadata save cannot change the active profile")
  let candidateActive ← activeProfile candidate
  let candidateAuthority ← authorityDocument H candidateActive
  let currentActive ← activeProfile current
  let currentAuthority ← authorityDocument H currentActive
  check (candidateAuthority = currentAuthority) (.invalid "Metadata save cannot change the active profile authority")

/-- The candidate of an edit of metadata, as far as it may replace the live registry. -/
def metadataCandidate (root : StateRoot) (registry : Json) (expected : Store.Digest) : Checked ConnectionRegistry := do
  let candidate ← readRegistry H registry
  let current ← readLive H root
  requireDigest H current expected
  requireMetadataOnlyChange H current candidate
  return candidate

/-- `save_metadata` -/
def saveMetadata (registry : Json) (expected : Store.Digest) : Command (ConnectionRegistry × Store.Digest) := do
  let candidate ← look fun root ↦ metadataCandidate H root registry expected
  replaceRegistryIfDigest H candidate expected
  let digest ← look fun _ ↦ registryDigest H candidate
  return (candidate, digest)

/-! ## Activation -/

/-- `str(uuid.uuid4())` -/
abbrev DrawnId := { text : String // H.isCanonicalUuid text }

/-- The candidate of an activation and the profile that it selects. -/
def activationTarget (registry : Json) (profileId proofId : String) :
    Checked (ConnectionRegistry × ConnectionProfile) := do
  let candidate ← readRegistry H registry
  check (H.isCanonicalUuid profileId) (.invalid "profile_id must be a canonical non-nil UUID")
  check (H.isCanonicalUuid proofId) (.invalid "proof_id must be a canonical non-nil UUID")
  check (candidate.activeProfileId == some profileId)
    (.invalid "Activated profile must be selected by the candidate registry")
  match candidate.profiles.filter fun profile ↦ profile.profileId == profileId with
  | [target] => do
      check target.enabled (.invalid "Activated profile must exist exactly once and be enabled")
      return (candidate, target)
  | _ => .error (.invalid "Activated profile must exist exactly once and be enabled")

/-- The proof of a test, which has to be one of the exact candidate. -/
def checkProof (proofs : List ProfileTestProof) (proofId profileId : String) (target : ConnectionProfile)
    (expected : Store.Digest) (now : ℤ) : Checked Unit :=
  match proofs.find? fun proof ↦ proof.proofId == proofId with
  | none => .error (.proof "Profile Test proof is missing or expired")
  | some proof => do
      check (now < proof.expiresAt) (.proof "Profile Test proof is missing or expired")
      check (proof.profileId == profileId) (.proof "Profile Test proof does not match the exact activation candidate")
      let digest ← profileDigest H target
      check (proof.profileDigest = digest && proof.baseRegistryDigest = expected)
        (.proof "Profile Test proof does not match the exact activation candidate")

/-- A receipt goes into another state. -/
def moveReceipt (receipt : ActivationReceipt) (state : ActivationState) : Command ActivationReceipt := do
  replaceReceiptIfDigest (receipt.moved state) receipt
  return receipt.moved state

/-- A receipt that is pending already stays as it is. -/
def settlePending (persisted : ActivationReceipt) : Command ActivationReceipt :=
  if persisted.state ≠ .prepared then pure persisted else moveReceipt persisted .pending

/-- The receipt of the first attempt, with the rollback it answers for. -/
def continuedReceipt (root : StateRoot) (receipt : ActivationReceipt) : Checked ActivationReceipt := do
  let persisted ← readReceipt root receipt.activationId
  check (persisted = receipt) (.conflict "Activation receipt changed before retry")
  let _ ← validateActivationRollback H root persisted
  return persisted

/-- `_continue_activation` -/
def continueActivation (receipt : ActivationReceipt) (candidate : ConnectionRegistry) (expected : Store.Digest) :
    Command ActivationReceipt := do
  let persisted ← look fun root ↦ continuedReceipt H root receipt
  if expected ≠ persisted.activatedRegistryDigest then replaceRegistryIfDigest H candidate expected
  settlePending persisted

/-- The second half of an activation that has left its evidence. -/
def selectCandidate (prepared : ActivationReceipt) (candidate : ConnectionRegistry) (expected : Store.Digest) :
    Command ActivationReceipt := do
  replaceRegistryIfDigest H candidate expected
  moveReceipt prepared .pending

/-- The part of `activate` that opens new evidence. -/
def openActivation (prepared : ActivationReceipt) (candidate : ConnectionRegistry) (current : Content)
    (expected : Store.Digest) : Command ActivationReceipt := do
  writeNewRollback prepared.rollbackFile current
  writeNewReceipt prepared
  selectCandidate H prepared candidate expected

/-- The receipt that `activate` would open. -/
def preparedReceipt (activationId profileId proofId : String) (candidate : ConnectionRegistry)
    (target : ConnectionProfile) (expected : Store.Digest) : Checked ActivationReceipt := do
  let activated ← registryDigest H candidate
  let digest ← profileDigest H target
  return ⟨activationId, .prepared, expected, activated, profileId, digest, H.sha256 (Json.utf8 proofId.toList),
    rollbackName activationId⟩

/-- What is asked of an attempt. -/
def attemptOf (prepared : ActivationReceipt) : Attempt :=
  ⟨prepared.previousRegistryDigest, prepared.activatedRegistryDigest, prepared.profileId, prepared.profileDigest⟩

/-- The decision about an attempt, and the registry that it would replace. -/
def attemptDecision (root : StateRoot) (prepared : ActivationReceipt) (expected : Store.Digest) :
    Checked (ActivationAttemptDecision × Content) := do
  let current ← readLive H root
  requireDigest H current expected
  let receipts ← activationReceipts root
  return (classifyActivationAttempt receipts (attemptOf prepared), root.registry)

/-- The critical section of `activate`. -/
def activateLocked (prepared : ActivationReceipt) (candidate : ConnectionRegistry) (expected : Store.Digest) :
    Command ActivationReceipt := do
  let decision ← look fun root ↦ attemptDecision H root prepared expected
  match decision with
  | (.refuse code, _) => Stepwise.refuse (.attempt code)
  | (.resume receipt, _) => continueActivation H receipt candidate expected
  | (.create, current) => openActivation H prepared candidate current expected

/-- The proof of an attempt has been found; the receipt it would open. -/
def provenReceipt (proofs : List ProfileTestProof) (candidate : ConnectionRegistry) (target : ConnectionProfile)
    (profileId proofId : String) (expected : Store.Digest) (activationId : String) (now : ℤ) :
    Checked ActivationReceipt := do
  checkProof H proofs proofId profileId target expected now
  preparedReceipt H activationId profileId proofId candidate target expected

/-- `activate`, with the id that is drawn and the time of the clock. -/
def activate (registry : Json) (profileId proofId : String) (expected : Store.Digest) (activationId : DrawnId H)
    (now : ℤ) : Command ActivationReceipt := do
  let (candidate, target) ← look fun _ ↦ activationTarget H registry profileId proofId
  rememberProofs (pruneProofs now)
  let prepared ← Stepwise.read fun service ↦
    provenReceipt H service.proofs candidate target profileId proofId expected activationId.val now
  let pending ← activateLocked H prepared candidate expected
  rememberProofs (List.filter fun proof ↦ proof.proofId != proofId)
  return pending

/-! ## Reconciliation -/

inductive ReconciliationState where
  | committed | incomplete | uncertain
  deriving DecidableEq, Repr

/-- `ActivationReconciliationOutcome` -/
structure ReconciliationOutcome where
  state : ReconciliationState
  keptActivationId : Option String
  supersededActivationIds : List String
  unresolvedActivationIds : List String
  unknownActivationIds : List String
  deriving DecidableEq, Repr

/-- `_require_live_rollback_authority` -/
def requireLiveRollbackAuthority (root : StateRoot) (current : ConnectionRegistry) (currentDigest : Store.Digest)
    (receipt : ActivationReceipt) : Checked Unit := do
  let active ← activeProfile current
  let refusal := Refusal.conflict "Kept activation no longer matches the live connection registry"
  check (receipt.activatedRegistryDigest = currentDigest && current.activeProfileId == some receipt.profileId) refusal
  let digest ← profileDigest H active
  check (digest = receipt.profileDigest) refusal
  let _ ← readRollback H root receipt

/-- A receipt that is to be superseded, read once more. -/
def reconciliationTarget (root : StateRoot) (receipt : ActivationReceipt) : Checked ActivationReceipt := do
  let persisted ← readReceipt root receipt.activationId
  check (persisted = receipt) (.conflict "Activation evidence changed before reconciliation")
  let _ ← readRollback H root persisted
  return receipt

/-- The receipt that the caller expects to be kept. -/
def checkExpectedKept (plan : ReconciliationPlan) : Option String → Checked Unit
  | none => .ok ()
  | some kept => do
      check (H.isCanonicalUuid kept) (.invalid "expected_kept_activation_id must be a canonical non-nil UUID")
      check (plan.keep.map ActivationReceipt.activationId == some kept)
        (.conflict "Reconciliation would not keep the expected activation")

/-- The receipt that is kept has to answer for the live registry. -/
def checkKept (root : StateRoot) (current : ConnectionRegistry) (currentDigest : Store.Digest)
    (plan : ReconciliationPlan) : Checked Unit :=
  match plan.keep with
  | none => .ok ()
  | some receipt => requireLiveRollbackAuthority H root current currentDigest receipt

/-- `_reconciliation_targets` -/
def reconciliationTargets (root : StateRoot) (current : ConnectionRegistry) (currentDigest : Store.Digest)
    (plan : ReconciliationPlan) (expectedKept : Option String) : Checked (List ActivationReceipt) := do
  checkExpectedKept H plan expectedKept
  checkKept H root current currentDigest plan
  plan.supersede.mapM (reconciliationTarget H root)

/-- The transitions of `_apply_reconciliation`: the first that fails ends them. -/
def supersedeAll : List ActivationReceipt → Command Unit
  | [] => pure ()
  | receipt :: receipts => do
      let done ← (replaceReceiptIfDigest (receipt.moved .superseded) receipt).attempt
      if done.isSome then supersedeAll receipts

/-- `_observed_reconciliation` -/
def observeReconciliation (root : StateRoot) (kept : Option String) :
    List String → List String → List ActivationReceipt → ReconciliationOutcome
  | superseded, unresolved, [] =>
      ⟨if unresolved.isEmpty then .committed else .incomplete, kept, superseded, unresolved, []⟩
  | superseded, unresolved, receipt :: receipts =>
      match readReceipt root receipt.activationId with
      | .error _ =>
          ⟨.uncertain, kept, superseded, unresolved, (receipt :: receipts).map ActivationReceipt.activationId⟩
      | .ok persisted =>
          if persisted.state = .superseded then
            observeReconciliation root kept (superseded ++ [receipt.activationId]) unresolved receipts
          else observeReconciliation root kept superseded (unresolved ++ [receipt.activationId]) receipts

/-- What `reconcile_activations` has proven before the first transition. -/
def reconciliationEvidence (root : StateRoot) (expected : Store.Digest) (expectedKept : Option String) :
    Checked (ReconciliationPlan × List ActivationReceipt) := do
  let current ← readLive H root
  requireDigest H current expected
  let receipts ← activationReceipts root
  let plan ← planActivationReconciliation receipts expected
  let targets ← reconciliationTargets H root current expected plan expectedKept
  return (plan, targets)

/-- `reconcile_activations` -/
def reconcileActivations (expected : Store.Digest) (expectedKept : Option String) : Command ReconciliationOutcome := do
  let (plan, targets) ← look fun root ↦ reconciliationEvidence H root expected expectedKept
  supersedeAll targets
  look fun root ↦ .ok (observeReconciliation root (plan.keep.map ActivationReceipt.activationId) [] [] targets)

/-! ## Closing an activation -/

/-- What `restore` has found before it writes. -/
structure RestoreEvidence where
  receipt : ActivationReceipt
  rollback : ConnectionRegistry
  currentDigest : Store.Digest

def unconfirmedReceipt (root : StateRoot) (activationId message : String) : Checked ActivationReceipt := do
  check (H.isCanonicalUuid activationId) (.invalid "activation_id must be a canonical non-nil UUID")
  let receipt ← readReceipt root activationId
  check receipt.isUnconfirmed (.invalid message)
  return receipt

/-- The pending activation of the live registry; where it cannot be told there is a conflict. -/
def solePending (root : StateRoot) (activationId : String) (currentDigest : Store.Digest) : Checked Unit :=
  match pendingActivationForRegistry root currentDigest with
  | .error _ => .error (.conflict "Pending activation evidence changed before restore")
  | .ok pending =>
      check (pending.map ActivationReceipt.activationId == some activationId)
        (.conflict "Activation is not the sole pending record for this registry")

def restoreEvidence (root : StateRoot) (activationId : String) (expected : Store.Digest) : Checked RestoreEvidence := do
  let receipt ← unconfirmedReceipt H root activationId "Only an unconfirmed activation can be restored"
  let current ← readLive H root
  let currentDigest ← registryDigest H current
  check (currentDigest = expected) (.conflict "Connection registry changed before restore")
  solePending root activationId currentDigest
  let rollback ← readRollback H root receipt
  return ⟨receipt, rollback, currentDigest⟩

/-- `restore` -/
def restore (activationId : String) (expected : Store.Digest) : Command ActivationReceipt := do
  let evidence ← look fun root ↦ restoreEvidence H root activationId expected
  if evidence.currentDigest = evidence.receipt.activatedRegistryDigest then
    replaceRegistryIfDigest H evidence.rollback evidence.receipt.activatedRegistryDigest
  else if evidence.currentDigest ≠ evidence.receipt.previousRegistryDigest then
    Stepwise.refuse (.conflict "Connection registry is neither the activated nor rollback state")
  moveReceipt evidence.receipt .restored

def confirmEvidence (root : StateRoot) (activationId : String) (expected : Store.Digest) : Checked ActivationReceipt := do
  let receipt ← unconfirmedReceipt H root activationId "Only an unconfirmed activation can be confirmed"
  let currentDigest ← liveDigest H root
  check (currentDigest = expected && currentDigest = receipt.activatedRegistryDigest)
    (.conflict "Connection registry does not match the activated state")
  return receipt

/-- `confirm` -/
def confirm (activationId : String) (expected : Store.Digest) : Command ActivationReceipt := do
  let receipt ← look fun root ↦ confirmEvidence H root activationId expected
  moveReceipt receipt .confirmed

end WorkStack.Connection
