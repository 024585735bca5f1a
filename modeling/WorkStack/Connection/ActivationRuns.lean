import WorkStack.Connection.LedgerRuns

/-!
# What a run leaves of an activation

A run starts from a registry that can be read and an empty activation directory. The call that leaves the
first receipt of an activation has kept the registry it found, and no later step touches what it kept:
however the activation is retried, it is put back to where it came from.
-/

open WorkStack.Python WorkStack.Effect WorkStack.Effect.Refusing

namespace WorkStack.Connection

variable {H : Host}

/-! ## Starting -/

/-- A registry that can be read, where nothing was activated yet. -/
structure Beginning (H : Host) where
  content : Content
  registry : ConnectionRegistry
  reads : readContent H "connection registry" content = .ok registry

/-- The service at its first start. -/
def Beginning.service (beginning : Beginning H) : Service := ⟨⟨beginning.content, .empty, .empty⟩, []⟩

variable {activationId : String} {receipt : ActivationReceipt}

theorem Beginning.no_receipt (beginning : Beginning H) :
    ¬beginning.service.root.receipts.get activationId = some receipt := by
  intro hget
  cases hget

theorem Beginning.sound (beginning : Beginning H) : Sound H beginning.service.root where
  readable := ⟨beginning.registry, beginning.reads⟩
  keyed _ _ hget := absurd hget beginning.no_receipt
  canonicalId _ _ hget := absurd hget beginning.no_receipt
  named _ _ hget := absurd hget beginning.no_receipt
  answers _ _ hget := absurd hget beginning.no_receipt
  single _ _ _ _ hget _ _ _ := absurd hget beginning.no_receipt
  digested _ _ hget := absurd hget beginning.no_receipt

/-- The service after a run from its first start. -/
abbrev Beginning.after (beginning : Beginning H) (events : List (Event H)) : Service :=
  afterRun beginning.service events

theorem Beginning.after_sound (beginning : Beginning H) (events : List (Event H)) :
    Sound H (beginning.after events).root :=
  afterRun_sound beginning.sound events

theorem afterRun_append (service : Service) (events more : List (Event H)) :
    afterRun service (events ++ more) = afterRun (afterRun service events) more := by
  simp only [afterRun, List.foldl_append]

variable {service : Service}

theorem afterRun_reaches (hsound : Sound H service.root) (events : List (Event H)) :
    Reaches H service.root (afterRun service events).root := by
  induction events generalizing service with
  | nil => exact .refl
  | cons event events ih =>
      have hfirst := event.reaches hsound.keyed
      exact hfirst.trans (ih (hfirst.sound hsound))

/-! ## Where an activation comes from -/

/-- A receipt that a call has opened answers for the registry that the call found. -/
theorem Opening.answers {α : Type} {root root' : StateRoot} {ran : Ran Service Refusal α}
    {prepared receipt : ActivationReceipt} {content : Content} (h : Opening H root ran prepared content)
    (hmem : root' ∈ root :: openingRoots root prepared content) (hnone : root.receipts.get activationId = none)
    (hget : root'.receipts.get activationId = some receipt) :
    ∃ live, readLive H root = .ok live ∧ readRollback H root' receipt = .ok live := by
  obtain ⟨live, hlive, hrollback⟩ := h.opens.answers
  refine ⟨live, hlive, ?_⟩
  rcases List.mem_cons.mp hmem with rfl | hmem
  · rw [hnone] at hget
    cases hget
  · have hreaches := reaches_of_chain (List.isChain_cons_cons.mp h.chain).2 root' hmem
    have hfollows : Follows prepared receipt := by
      have hpending : Follows prepared (prepared.moved .pending) :=
        ⟨.pending, rfl, by rw [h.opens.state]; exact .pending⟩
      have hopened (hset : (root.receipts.set prepared.activationId prepared).get activationId = some receipt) :
          receipt = prepared := by
        rw [Mapping.get_set] at hset
        split at hset
        · exact (Option.some.inj hset).symm
        · rw [hnone] at hset
          cases hset
      simp only [openingRoots, List.mem_cons, List.not_mem_nil, or_false] at hmem
      rcases hmem with rfl | rfl | rfl | rfl
      · rw [StateRoot.withRollback, hnone] at hget
        cases hget
      · rw [hopened hget]
        exact .refl prepared
      · rw [hopened hget]
        exact .refl prepared
      · rw [StateRoot.withReceipt, Mapping.get_set] at hget
        split at hget
        · cases hget
          exact hpending
        · rw [hopened hget]
          exact .refl prepared
    exact hreaches.succeeds.readRollback hfollows hrollback

/-- A receipt behind steps that open none was there before. -/
theorem moves_receipt {root : StateRoot} {roots : List StateRoot} (h : List.IsChain (Move H) (root :: roots)) :
    ∀ other ∈ root :: roots, ∀ activationId receipt', other.receipts.get activationId = some receipt' →
      ∃ receipt, root.receipts.get activationId = some receipt ∧ Follows receipt receipt' := by
  induction roots generalizing root with
  | nil =>
      intro other hmem activationId receipt' hget
      rw [List.mem_singleton.mp hmem] at hget
      exact ⟨receipt', hget, .refl receipt'⟩
  | cons next roots ih =>
      rw [List.isChain_cons_cons] at h
      intro other hmem activationId receipt' hget
      rcases List.mem_cons.mp hmem with rfl | hmem
      · exact ⟨receipt', hget, .refl receipt'⟩
      · obtain ⟨receipt, hnext, hfollows⟩ := ih h.2 other hmem activationId receipt' hget
        obtain ⟨before, hbefore, hfollows'⟩ := h.1.receipt hnext
        exact ⟨before, hbefore, hfollows'.trans hfollows⟩

/-- The call that leaves the first receipt of an activation keeps the registry it found. -/
theorem Event.origin (hkeyed : Keyed service.root) (event : Event H)
    (hnone : service.root.receipts.get activationId = none)
    (hget : (event.after service).root.receipts.get activationId = some receipt) :
    ∃ live, readLive H service.root = .ok live ∧ readRollback H (event.after service).root receipt = .ok live := by
  have hmem := event.after_root hkeyed
  rcases Call.acts hkeyed event.call with htrail | ⟨prepared, content, hopening⟩
  · obtain ⟨before, hbefore, -⟩ := moves_receipt htrail.chain _ hmem activationId receipt hget
    rw [hnone] at hbefore
    cases hbefore
  · rw [hopening.steps] at hmem
    exact hopening.answers hmem hnone hget

/-- A receipt that is there was left by one of the calls. -/
theorem exists_first_event {events : List (Event H)} (hnone : service.root.receipts.get activationId = none)
    (hget : (afterRun service events).root.receipts.get activationId = some receipt) :
    ∃ earlier first later, events = earlier ++ first :: later ∧
      (afterRun service earlier).root.receipts.get activationId = none ∧
        ∃ opened, (first.after (afterRun service earlier)).root.receipts.get activationId = some opened := by
  induction events generalizing service with
  | nil =>
      rw [afterRun, List.foldl_nil, hnone] at hget
      cases hget
  | cons event events ih =>
      cases hopened : (event.after service).root.receipts.get activationId with
      | some opened => exact ⟨[], event, events, rfl, hnone, opened, hopened⟩
      | none =>
          obtain ⟨earlier, first, later, rfl, hbefore, hafter⟩ := ih hopened hget
          exact ⟨event :: earlier, first, later, rfl, hbefore, hafter⟩

/-- The live registry behind a restore is the one that the receipt answers for. -/
theorem restore_live (hkeyed : Keyed service.root) {expected : Store.Digest} {value : ActivationReceipt}
    (h : (restore H activationId expected service).result = .ok value) :
    ∃ receipt rollback, service.root.receipts.get activationId = some receipt ∧
      readRollback H service.root receipt = .ok rollback ∧
      readLive H (restore H activationId expected service).state.root = .ok rollback := by
  rcases restore_cases hkeyed activationId expected with hrefuses | ⟨receipt, rollback, content, hrestorable⟩
  · obtain ⟨refusal, hrefusal⟩ := hrefuses.result
    rw [hrefusal] at h
    cases h
  · refine ⟨receipt, rollback, hrestorable.get, hrestorable.readable, ?_⟩
    obtain ⟨kept, -, hread, -⟩ := readRollback_eq_ok.mp hrestorable.readable
    have hfinal := (restore_of hkeyed hrestorable).final
    rw [hfinal]
    exact (liveDigest_withRegistry service.root (readContent_isNormal hread) hrestorable.canonical).1

/-- The ledger of activations, in every run: one receipt at most is unconfirmed, each answers for a registry
that can be read, its state goes on and the rest of it stays, and an activation that is put back leaves the
registry that was live before its first attempt. -/
theorem activation_ledger (beginning : Beginning H) (events : List (Event H)) :
    let service := beginning.after events
    (∀ activationId activationId' receipt receipt', service.root.receipts.get activationId = some receipt →
      service.root.receipts.get activationId' = some receipt' → receipt.isUnconfirmed → receipt'.isUnconfirmed →
        activationId = activationId') ∧
    (∀ activationId receipt, service.root.receipts.get activationId = some receipt →
      ∃ content rollback, service.root.rollbacks.get receipt.rollbackFile = some content ∧
        readContent H "activation rollback" content = .ok rollback ∧
        registryDigest H rollback = .ok receipt.previousRegistryDigest) ∧
    (∀ call : Call H, List.IsChain Succeeds (service.root :: (call.command service).steps.map Service.root)) ∧
    (∀ more, Succeeds service.root (beginning.after (events ++ more)).root) ∧
    ∀ activationId expected value, (restore H activationId expected service).result = .ok value →
      ∃ earlier first later live, events = earlier ++ first :: later ∧
        (beginning.after earlier).root.receipts.get activationId = none ∧
        ((first.after (beginning.after earlier)).root.receipts.get activationId).isSome ∧
        readLive H (beginning.after earlier).root = .ok live ∧
        readLive H (restore H activationId expected service).state.root = .ok live := by
  intro service
  have hsound : Sound H service.root := beginning.after_sound events
  refine ⟨hsound.single, ?_, ?_, ?_, ?_⟩
  · intro activationId receipt hget
    obtain ⟨rollback, hrollback⟩ := hsound.answers activationId receipt hget
    obtain ⟨content, hkept⟩ := readRollback_eq_ok.mp hrollback
    exact ⟨content, rollback, hkept⟩
  · intro call
    exact (Call.trail hsound.keyed call).chain.imp fun _ _ hchange ↦ hchange.succeeds
  · intro more
    rw [Beginning.after, afterRun_append]
    exact (afterRun_reaches hsound more).succeeds
  · intro activationId expected value hrestored
    obtain ⟨receipt, rollback, hget, hrollback, hlive⟩ := restore_live hsound.keyed hrestored
    obtain ⟨earlier, first, later, rfl, hbefore, opened, hopened⟩ :=
      exists_first_event (by rfl) hget
    have hearlier := beginning.after_sound earlier
    obtain ⟨live, hfound, hanswers⟩ := first.origin hearlier.keyed hbefore hopened
    have hfirst := (first.reaches hearlier.keyed).sound hearlier
    have hlater : service = afterRun (first.after (beginning.after earlier)) later := by
      rw [show service = beginning.after (earlier ++ first :: later) from rfl, Beginning.after, afterRun_append]
      rfl
    have hsucceeds := (afterRun_reaches hfirst later).succeeds
    rw [← hlater] at hsucceeds
    obtain ⟨receipt', hget', hfollows⟩ := hsucceeds.receipts activationId opened hopened
    rw [hget] at hget'
    cases hget'
    have hlasting := hsucceeds.readRollback hfollows hanswers
    rw [hrollback] at hlasting
    cases hlasting
    exact ⟨earlier, first, later, rollback, rfl, hbefore, by rw [hopened]; rfl, hfound, hlive⟩

end WorkStack.Connection
