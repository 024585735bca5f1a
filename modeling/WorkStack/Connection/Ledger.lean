import WorkStack.Connection.Operations
import Mathlib

/-!
# The ledger of activations

What one step may do to the files, whatever operation takes it: the registry is replaced, a rollback is
kept, a receipt is opened where none is unconfirmed, or a receipt goes on. The receipts of a state root
stay sound under every such step, and every operation takes no other.
-/

open WorkStack.Python WorkStack.Effect WorkStack.Effect.Refusing

namespace WorkStack.Connection

variable {H : Host}

/-! ## Steps -/

/-- Where a receipt may go from a state. -/
inductive ActivationState.Leads : ActivationState → ActivationState → Prop
  | stays (state : ActivationState) : Leads state state
  | pending : Leads .prepared .pending
  | closed {state state' : ActivationState} (hopen : state.isUnconfirmed) (hclosed : state'.isUnconfirmed = false) :
      Leads state state'

/-- A receipt that may be opened: no other is unconfirmed, and the live registry is kept under its name. -/
structure Opens (H : Host) (root : StateRoot) (receipt : ActivationReceipt) : Prop where
  free : root.receipts.get receipt.activationId = none
  canonicalId : H.isCanonicalUuid receipt.activationId
  closed : ∀ activationId other, root.receipts.get activationId = some other → other.isUnconfirmed = false
  named : receipt.rollbackFile = rollbackName receipt.activationId
  kept : root.rollbacks.get receipt.rollbackFile = some root.registry
  previous : liveDigest H root = .ok receipt.previousRegistryDigest
  state : receipt.state = .prepared

/-- A step that opens no receipt. -/
inductive Move (H : Host) (root : StateRoot) : StateRoot → Prop
  /-- The registry is replaced by one in canonical form. -/
  | registry {registry : ConnectionRegistry} {content : Content} (normal : registry.IsNormal H)
      (canonical : canonicalRegistry H registry = .ok content) : Move H root (root.withRegistry content)
  | rollback {name : String} (free : root.rollbacks.get name = none) :
      Move H root (root.withRollback name root.registry)
  | moved {receipt : ActivationReceipt} {state : ActivationState}
      (get : root.receipts.get receipt.activationId = some receipt) (leads : receipt.state.Leads state) :
      Move H root (root.withReceipt (receipt.moved state))

/-- One step of the files. -/
inductive Change (H : Host) (root : StateRoot) : StateRoot → Prop
  | move {root' : StateRoot} (move : Move H root root') : Change H root root'
  | receipt {receipt : ActivationReceipt} (opens : Opens H root receipt) : Change H root (root.withReceipt receipt)

/-! ## Soundness -/

/-- The receipts of a state root: each is kept under its own id and answers for a registry that can be read,
and one of them at most is unconfirmed. -/
structure Sound (H : Host) (root : StateRoot) : Prop where
  readable : ∃ current, readLive H root = .ok current
  keyed : Keyed root
  canonicalId : ∀ activationId receipt, root.receipts.get activationId = some receipt → H.isCanonicalUuid activationId
  named : ∀ activationId receipt, root.receipts.get activationId = some receipt →
    receipt.rollbackFile = rollbackName activationId
  answers : ∀ activationId receipt, root.receipts.get activationId = some receipt →
    ∃ rollback, readRollback H root receipt = .ok rollback
  single : ∀ activationId activationId' receipt receipt', root.receipts.get activationId = some receipt →
    root.receipts.get activationId' = some receipt' → receipt.isUnconfirmed → receipt'.isUnconfirmed →
    activationId = activationId'
  digested : ∀ activationId receipt, root.receipts.get activationId = some receipt →
    ∃ digest, liveDigest H root = .ok digest

/-- A receipt keeps everything but its state. -/
def Follows (receipt receipt' : ActivationReceipt) : Prop :=
  ∃ state, receipt' = receipt.moved state ∧ receipt.state.Leads state

theorem ActivationState.Leads.trans {a b c : ActivationState} (h : a.Leads b) (h' : b.Leads c) : a.Leads c := by
  cases h with
  | stays => exact h'
  | pending =>
      cases h' with
      | stays => exact .pending
      | closed hopen hclosed => exact .closed rfl hclosed
  | closed hopen hclosed =>
      cases h' with
      | stays => exact .closed hopen hclosed
      | pending => cases hclosed
      | closed hopen' hclosed' => exact .closed hopen hclosed'

theorem Follows.refl (receipt : ActivationReceipt) : Follows receipt receipt := ⟨receipt.state, rfl, .stays _⟩

theorem Follows.trans {a b c : ActivationReceipt} (h : Follows a b) (h' : Follows b c) : Follows a c := by
  obtain ⟨state, rfl, hleads⟩ := h
  obtain ⟨state', rfl, hleads'⟩ := h'
  exact ⟨state', rfl, hleads.trans hleads'⟩

/-- What a state root has come to: no receipt is gone, no rollback was touched. -/
structure Succeeds (root root' : StateRoot) : Prop where
  receipts : ∀ activationId receipt, root.receipts.get activationId = some receipt →
    ∃ receipt', root'.receipts.get activationId = some receipt' ∧ Follows receipt receipt'
  rollbacks : ∀ name content, root.rollbacks.get name = some content → root'.rollbacks.get name = some content

theorem Succeeds.refl (root : StateRoot) : Succeeds root root :=
  ⟨fun _ receipt h ↦ ⟨receipt, h, .refl receipt⟩, fun _ _ h ↦ h⟩

theorem Succeeds.trans {a b c : StateRoot} (h : Succeeds a b) (h' : Succeeds b c) : Succeeds a c := by
  refine ⟨?_, fun name content hget ↦ h'.rollbacks name content (h.rollbacks name content hget)⟩
  intro activationId receipt hget
  obtain ⟨next, hnext, hfollows⟩ := h.receipts activationId receipt hget
  obtain ⟨last, hlast, hfollows'⟩ := h'.receipts activationId next hnext
  exact ⟨last, hlast, hfollows.trans hfollows'⟩

variable {root root' : StateRoot}

/-- A receipt behind a step that opens none was there before. -/
theorem Move.receipt (h : Move H root root') {activationId : String} {receipt' : ActivationReceipt}
    (hget : root'.receipts.get activationId = some receipt') :
    ∃ receipt, root.receipts.get activationId = some receipt ∧ Follows receipt receipt' := by
  cases h with
  | registry normal canonical => exact ⟨receipt', hget, .refl receipt'⟩
  | rollback free => exact ⟨receipt', hget, .refl receipt'⟩
  | @moved receipt state get leads =>
      rw [StateRoot.withReceipt, Mapping.get_set] at hget
      by_cases hid : (receipt.moved state).activationId = activationId
      · rw [if_pos hid] at hget
        cases hget
        change receipt.activationId = activationId at hid
        rw [← hid]
        exact ⟨receipt, get, state, rfl, leads⟩
      · rw [if_neg hid] at hget
        exact ⟨receipt', hget, .refl receipt'⟩

theorem Move.succeeds (h : Move H root root') : Succeeds root root' := by
  cases h with
  | registry normal canonical => exact ⟨(Succeeds.refl root).receipts, (Succeeds.refl root).rollbacks⟩
  | @rollback name free =>
      refine ⟨(Succeeds.refl root).receipts, ?_⟩
      intro other content hget
      rw [StateRoot.withRollback, Mapping.get_set_of_ne, hget]
      rintro rfl
      rw [free] at hget
      cases hget
  | @moved receipt state get leads =>
      refine ⟨?_, (Succeeds.refl root).rollbacks⟩
      intro activationId other hget
      rw [StateRoot.withReceipt, Mapping.get_set]
      by_cases hid : (receipt.moved state).activationId = activationId
      · rw [if_pos hid]
        change receipt.activationId = activationId at hid
        rw [hid, hget] at get
        cases get
        exact ⟨receipt.moved state, rfl, state, rfl, leads⟩
      · rw [if_neg hid]
        exact ⟨other, hget, .refl other⟩

theorem Change.succeeds (h : Change H root root') : Succeeds root root' := by
  cases h with
  | move move => exact move.succeeds
  | @receipt receipt opens =>
      refine ⟨?_, (Succeeds.refl root).rollbacks⟩
      intro activationId other hget
      refine ⟨other, ?_, .refl other⟩
      rw [StateRoot.withReceipt, Mapping.get_set_of_ne, hget]
      rintro rfl
      rw [opens.free] at hget
      cases hget

/-- A receipt of a changed state root was there before, or was opened. -/
theorem Change.receipt_cases (h : Change H root root') {activationId : String} {receipt' : ActivationReceipt}
    (hget : root'.receipts.get activationId = some receipt') :
    (∃ receipt, root.receipts.get activationId = some receipt ∧ Follows receipt receipt') ∨
      receipt'.activationId = activationId ∧ Opens H root receipt' ∧ root' = root.withReceipt receipt' := by
  cases h with
  | move move => exact .inl (move.receipt hget)
  | @receipt receipt opens =>
      rw [StateRoot.withReceipt, Mapping.get_set] at hget
      by_cases hid : receipt.activationId = activationId
      · rw [if_pos hid] at hget
        cases hget
        exact .inr ⟨hid, opens, rfl⟩
      · rw [if_neg hid] at hget
        exact .inl ⟨receipt', hget, .refl receipt'⟩

/-- A receipt that is unconfirmed was so before. -/
theorem Follows.isUnconfirmed {receipt receipt' : ActivationReceipt} (h : Follows receipt receipt')
    (hopen : receipt'.isUnconfirmed) : receipt.isUnconfirmed := by
  obtain ⟨state, rfl, hleads⟩ := h
  cases hstate : receipt.state with
  | prepared => simp [ActivationReceipt.isUnconfirmed, hstate, ActivationState.isUnconfirmed]
  | pending => simp [ActivationReceipt.isUnconfirmed, hstate, ActivationState.isUnconfirmed]
  | _ =>
      rw [hstate] at hleads
      cases hleads with
      | stays => simp [ActivationReceipt.moved, ActivationState.isUnconfirmed] at hopen
      | closed hwas _ => cases hwas

theorem liveDigest_withRegistry (root : StateRoot) {registry : ConnectionRegistry} {content : Content}
    (hnormal : registry.IsNormal H) (hcanonical : canonicalRegistry H registry = .ok content) :
    readLive H (root.withRegistry content) = .ok registry ∧
      liveDigest H (root.withRegistry content) = .ok (H.sha256 (payload content.value)) := by
  have hread : readLive H (root.withRegistry content) = .ok registry :=
    readContent_canonical hnormal hcanonical "connection registry"
  exact ⟨hread, liveDigest_eq_ok.mpr ⟨registry, hread, registryDigest_eq_ok.mpr ⟨content, hcanonical, rfl⟩⟩⟩

/-- A step leaves a live registry that is read, with a digest where there was one. -/
theorem Change.live (h : Change H root root') (hread : ∃ current, readLive H root = .ok current) :
    (∃ current, readLive H root' = .ok current) ∧
      ((∃ digest, liveDigest H root = .ok digest) → ∃ digest, liveDigest H root' = .ok digest) := by
  cases h with
  | receipt opens => exact ⟨hread, fun h ↦ h⟩
  | move move =>
      cases move with
      | registry normal canonical =>
          obtain ⟨hlive, hdigest⟩ := liveDigest_withRegistry root normal canonical
          exact ⟨⟨_, hlive⟩, fun _ ↦ ⟨_, hdigest⟩⟩
      | rollback free => exact ⟨hread, fun h ↦ h⟩
      | moved get leads => exact ⟨hread, fun h ↦ h⟩

/-- A receipt that was opened answers for the live registry. -/
theorem Opens.answers {root : StateRoot} {receipt : ActivationReceipt} (h : Opens H root receipt) :
    ∃ rollback, readLive H root = .ok rollback ∧ readRollback H root receipt = .ok rollback := by
  obtain ⟨current, hcurrent, hdigest⟩ := liveDigest_eq_ok.mp h.previous
  refine ⟨current, hcurrent, readRollback_eq_ok.mpr ⟨root.registry, h.kept, ?_, hdigest⟩⟩
  rw [readLive, readContent_eq_ok] at hcurrent
  exact readContent_eq_ok.mpr hcurrent

/-- What a receipt answers for is as lasting as its rollback. -/
theorem Succeeds.readRollback (h : Succeeds root root') {receipt receipt' : ActivationReceipt}
    (hfollows : Follows receipt receipt') {rollback : ConnectionRegistry}
    (hread : readRollback H root receipt = .ok rollback) : readRollback H root' receipt' = .ok rollback := by
  obtain ⟨state, rfl, -⟩ := hfollows
  obtain ⟨content, hget, hcontent, hdigest⟩ := readRollback_eq_ok.mp hread
  exact readRollback_eq_ok.mpr ⟨content, h.rollbacks _ content hget, hcontent, hdigest⟩

theorem Sound.change (h : Sound H root) (hchange : Change H root root') : Sound H root' := by
  have hsucceeds := hchange.succeeds
  obtain ⟨hreadable, hdigested⟩ := hchange.live h.readable
  constructor
  · exact hreadable
  · intro activationId receipt' hget
    rcases hchange.receipt_cases hget with ⟨receipt, hbefore, state, rfl, -⟩ | ⟨hid, -, -⟩
    · exact h.keyed activationId receipt hbefore
    · exact hid
  · intro activationId receipt' hget
    rcases hchange.receipt_cases hget with ⟨receipt, hbefore, -⟩ | ⟨rfl, hopens, -⟩
    · exact h.canonicalId activationId receipt hbefore
    · exact hopens.canonicalId
  · intro activationId receipt' hget
    rcases hchange.receipt_cases hget with ⟨receipt, hbefore, state, rfl, -⟩ | ⟨rfl, hopens, -⟩
    · exact h.named activationId receipt hbefore
    · exact hopens.named
  · intro activationId receipt' hget
    rcases hchange.receipt_cases hget with ⟨receipt, hbefore, hfollows⟩ | ⟨-, hopens, -⟩
    · obtain ⟨rollback, hrollback⟩ := h.answers activationId receipt hbefore
      exact ⟨rollback, hsucceeds.readRollback hfollows hrollback⟩
    · obtain ⟨rollback, -, hrollback⟩ := hopens.answers
      exact ⟨rollback, hsucceeds.readRollback (.refl receipt') hrollback⟩
  · intro activationId other receipt' receipt'' hget hget' hopen hopen'
    rcases hchange.receipt_cases hget with ⟨receipt, hbefore, hfollows⟩ | ⟨hid, hopens, hroot⟩
    · rcases hchange.receipt_cases hget' with ⟨receipt₂, hbefore', hfollows'⟩ | ⟨hid', hopens', -⟩
      · exact h.single activationId other receipt receipt₂ hbefore hbefore' (hfollows.isUnconfirmed hopen)
          (hfollows'.isUnconfirmed hopen')
      · have hclosed := hopens'.closed activationId receipt hbefore
        rw [hfollows.isUnconfirmed hopen] at hclosed
        cases hclosed
    · rcases hchange.receipt_cases hget' with ⟨receipt₂, hbefore', hfollows'⟩ | ⟨hid', hopens', -⟩
      · have hclosed := hopens.closed other receipt₂ hbefore'
        rw [hfollows'.isUnconfirmed hopen'] at hclosed
        cases hclosed
      · rw [hroot, StateRoot.withReceipt, Mapping.get_set, hid] at hget'
        by_contra hne
        rw [if_neg hne] at hget'
        have hfree := hopens'.free
        rw [hid', hget'] at hfree
        cases hfree
  · intro activationId receipt' hget
    rcases hchange.receipt_cases hget with ⟨receipt, hbefore, -⟩ | ⟨-, hopens, -⟩
    · exact hdigested (h.digested activationId receipt hbefore)
    · exact hdigested ⟨_, hopens.previous⟩

end WorkStack.Connection
