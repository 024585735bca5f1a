import WorkStack.Connection.Ledger

/-!
# Runs of the mutation service

Any number of calls, one after the other under the lock, where a call may stop behind any of its file
steps: because the process ends, and with it its proofs, or because a file could not be written. Every
step is one of the ledger, so the receipts stay sound in every state that a run passes through.
-/

open WorkStack.Python WorkStack.Python.Decoding WorkStack.Effect WorkStack.Effect.Refusing

namespace WorkStack.Connection

variable (H : Host)

/-! ## Calls -/

inductive Call where
  | saveMetadata (registry : Json) (expected : Store.Digest)
  | issueProof (profile : ConnectionProfile) (result : ProfileTestResult) (base : Store.Digest) (proofId : String)
      (now ttl : ℤ)
  | activate (registry : Json) (profileId proofId : String) (expected : Store.Digest) (activationId : DrawnId H)
      (now : ℤ)
  | reconcile (expected : Store.Digest) (expectedKept : Option String)
  | restore (activationId : String) (expected : Store.Digest)
  | confirm (activationId : String) (expected : Store.Digest)

inductive Answer where
  | saved (registry : ConnectionRegistry) (digest : Store.Digest)
  | issued (proof : ProfileTestProof)
  | receipt (receipt : ActivationReceipt)
  | reconciled (outcome : ReconciliationOutcome)

variable {H}

def Call.command : Call H → Command Answer
  | .saveMetadata registry expected => (Connection.saveMetadata H registry expected).mapped fun saved ↦ .saved saved.1 saved.2
  | .issueProof profile result base proofId now ttl =>
      (issueSuccessfulTestProof H profile result base proofId now ttl).mapped .issued
  | .activate registry profileId proofId expected activationId now =>
      (Connection.activate H registry profileId proofId expected activationId now).mapped .receipt
  | .reconcile expected expectedKept => (reconcileActivations H expected expectedKept).mapped .reconciled
  | .restore activationId expected => (Connection.restore H activationId expected).mapped .receipt
  | .confirm activationId expected => (Connection.confirm H activationId expected).mapped .receipt

/-! ## The steps of a call -/

/-- A computation that takes steps of one kind only. -/
structure Trail {α : Type} (R : StateRoot → StateRoot → Prop) (root : StateRoot) (ran : Ran Service Refusal α) :
    Prop where
  chain : List.IsChain R (root :: ran.steps.map Service.root)
  final : ran.state.root = (root :: ran.steps.map Service.root).getLast (List.cons_ne_nil _ _)

variable {α : Type} {root : StateRoot} {R : StateRoot → StateRoot → Prop} {ran : Ran Service Refusal α}

theorem Refuses.trail (h : Refuses root ran) : Trail R root ran := by
  constructor
  · rw [h.steps]
    exact List.isChain_singleton root
  · simp only [h.steps, h.final, List.getLast_singleton]

theorem Goes.trail {roots : List StateRoot} {value : α} (h : Goes root roots value ran)
    (hchain : List.IsChain R (root :: roots)) :
    Trail R root ran := by
  constructor
  · rw [h.steps]
    exact hchain
  · simp only [h.steps, h.final]

variable {service : Service}

theorem Trail.mapped {β : Type} {m : Command α} (h : Trail R root (m service)) (f : α → β) :
    Trail R root (m.mapped f service) :=
  ⟨h.chain, h.final⟩

theorem Trail.imp {R S : StateRoot → StateRoot → Prop} (h : Trail R root ran)
    (himp : ∀ ⦃root root'⦄, R root root' → S root root') : Trail S root ran :=
  ⟨h.chain.imp himp, h.final⟩

theorem Move.trail {root root' : StateRoot} (h : Move H root root') : List.IsChain (Move H) [root, root'] :=
  List.isChain_cons_cons.mpr ⟨h, List.isChain_singleton _⟩

variable {expected : Store.Digest} {candidate : ConnectionRegistry} {receipts : List ActivationReceipt}
  {content : Content} {prepared : ActivationReceipt}

theorem Attempts.normal {registry : Json} {activationId : String}
    (h : Attempts H root registry expected activationId prepared candidate content receipts) : candidate.IsNormal H :=
  readRegistry_isNormal h.prepares.reads

/-- The receipt that is opened behind the rollback. -/
theorem Attempts.opens {registry : Json} {activationId : DrawnId H}
    (h : Attempts H root registry expected activationId.val prepared candidate content receipts)
    (hclosed : ∀ receipt ∈ receipts, receipt.isUnconfirmed = false)
    (hfresh : root.receipts.get activationId.val = none) :
    Opens H (root.withRollback prepared.rollbackFile root.registry) prepared where
  free := by
    rw [h.prepares.drawn]
    exact hfresh
  canonicalId := by
    rw [h.prepares.drawn]
    exact activationId.property
  closed := by
    intro key other hget
    exact hclosed other (((activationReceipts_eq_ok h.listed).2 other).mpr ⟨key, hget⟩)
  named := by rw [h.prepares.named, h.prepares.drawn]
  kept := Mapping.get_set_self ..
  previous := by
    rw [h.prepares.previous]
    exact h.live
  state := h.prepares.state

theorem Opens.opening (hfree : root.rollbacks.get prepared.rollbackFile = none) (hnormal : candidate.IsNormal H)
    (hcanonical : canonicalRegistry H candidate = .ok content)
    (h : Opens H (root.withRollback prepared.rollbackFile root.registry) prepared) :
    List.IsChain (Change H) (root :: openingRoots root prepared content) := by
  have hleads : prepared.state.Leads .pending := by
    rw [h.state]
    exact .pending
  apply List.isChain_cons_cons.mpr
  refine ⟨.move (.rollback hfree), List.isChain_cons_cons.mpr ⟨.receipt h, List.isChain_cons_cons.mpr
    ⟨.move (.registry hnormal hcanonical), List.isChain_cons_cons.mpr
      ⟨.move (.moved ?_ hleads), List.isChain_singleton _⟩⟩⟩⟩
  exact Mapping.get_set_self ..

variable {receipt : ActivationReceipt}

theorem resuming_chain (hnormal : candidate.IsNormal H) (hcanonical : canonicalRegistry H candidate = .ok content)
    (hget : root.receipts.get receipt.activationId = some receipt) :
    List.IsChain (Move H) (root :: resumingRoots root receipt content expected) := by
  have hselect : Move H root (root.withRegistry content) := .registry hnormal hcanonical
  unfold resumingRoots
  by_cases hdigest : expected = receipt.activatedRegistryDigest
  · by_cases hstate : receipt.state = .prepared
    · simp only [hdigest, hstate, ne_eq, not_true_eq_false, if_false, if_true, List.nil_append]
      exact Move.trail (.moved hget (by rw [hstate]; exact .pending))
    · simp [hdigest, hstate]
  · by_cases hstate : receipt.state = .prepared
    · simp only [hdigest, hstate, ne_eq, not_false_eq_true, if_true, List.cons_append, List.nil_append]
      exact List.isChain_cons_cons.mpr ⟨hselect, Move.trail (.moved hget (by rw [hstate]; exact .pending))⟩
    · simp only [hdigest, hstate, ne_eq, not_false_eq_true, if_true, if_false, List.append_nil]
      exact hselect.trail

/-- What a call that opens a receipt does: it has kept the live registry, and the receipt answers for it. -/
structure Opening {α : Type} (H : Host) (root : StateRoot) (ran : Ran Service Refusal α) (prepared : ActivationReceipt)
    (content : Content) : Prop where
  chain : List.IsChain (Change H) (root :: openingRoots root prepared content)
  opens : Opens H (root.withRollback prepared.rollbackFile root.registry) prepared
  steps : ran.steps.map Service.root = openingRoots root prepared content
  final : ran.state.root = (root :: openingRoots root prepared content).getLast (List.cons_ne_nil _ _)

/-- What a call does to the files: it opens a receipt, or takes steps that open none. -/
def Acts {α : Type} (H : Host) (root : StateRoot) (ran : Ran Service Refusal α) : Prop :=
  Trail (Move H) root ran ∨ ∃ prepared content, Opening H root ran prepared content

theorem Activates.acts {registry : Json} {activationId : DrawnId H} {ran : Ran Service Refusal ActivationReceipt}
    (h : Activates H root registry expected activationId.val ran) :
    Acts H root ran := by
  cases h with
  | refused h => exact .inl h.trail
  | @strayed prepared candidate content receipts found closed free steps final result =>
      have hsteps : ran.steps.map Service.root = [root.withRollback prepared.rollbackFile root.registry] := steps
      left
      constructor
      · rw [hsteps]
        exact Move.trail (.rollback free)
      · simp only [hsteps, final, List.getLast_cons_cons, List.getLast_singleton]
  | @opened prepared candidate content receipts found closed free fresh goes =>
      have hopens := found.opens closed fresh
      exact .inr ⟨prepared, content, hopens.opening free found.normal found.prepares.canonical, hopens, goes.steps,
        goes.final⟩
  | resumed found unconfirmed continues get goes =>
      exact .inl (goes.trail (resuming_chain found.normal found.prepares.canonical get))

theorem Restorable.chain {activationId : String} {rollback : ConnectionRegistry} (hkeyed : Keyed root)
    (h : Restorable H root activationId expected receipt rollback content) :
    List.IsChain (Move H) (root :: restoringRoots root receipt content) := by
  obtain ⟨kept, -, hread, -⟩ := readRollback_eq_ok.mp h.readable
  have hget := h.get
  rw [← hkeyed activationId receipt h.get] at hget
  exact List.isChain_cons_cons.mpr ⟨.registry (readContent_isNormal hread) h.canonical,
    Move.trail (.moved hget (.closed h.unconfirmed rfl))⟩

theorem supersede_cases (receipt : ActivationReceipt) (service : Service) :
    (∃ refusal, replaceReceiptIfDigest (receipt.moved .superseded) receipt service = ⟨[], service, .error refusal⟩) ∨
      service.root.receipts.get receipt.activationId = some receipt := by
  cases hread : (do
      let current ← readReceipt service.root receipt.activationId
      check (current = receipt) (.conflict "Activation receipt changed before transition") : Checked Unit) with
  | error refusal => exact .inl ⟨refusal, look_error hread⟩
  | ok current =>
      right
      simp only [bind_eq_ok, readReceipt_eq_ok, check_eq_ok, decide_eq_true_eq] at hread
      obtain ⟨current, hcurrent, rfl⟩ := hread
      exact hcurrent

/-- An unconfirmed receipt is superseded. -/
inductive Supersedes (root : StateRoot) : StateRoot → Prop
  | closes {receipt : ActivationReceipt} (get : root.receipts.get receipt.activationId = some receipt)
      (unconfirmed : receipt.isUnconfirmed) : Supersedes root (root.withReceipt (receipt.moved .superseded))

theorem Supersedes.move {root root' : StateRoot} (h : Supersedes root root') : Move H root root' := by
  cases h with
  | closes get unconfirmed => exact .moved get (.closed unconfirmed rfl)

theorem supersedeAll_step (hget : service.root.receipts.get receipt.activationId = some receipt)
    (targets : List ActivationReceipt) :
    supersedeAll (receipt :: targets) service =
      let next := service.changed (.withReceipt (receipt.moved .superseded))
      ⟨next :: (supersedeAll targets next).steps, (supersedeAll targets next).state,
        (supersedeAll targets next).result⟩ := by
  have hsame : service.root.receipts.get (receipt.moved .superseded).activationId = some receipt := hget
  have hstep := replaceReceipt_apply service hsame
  rw [supersedeAll, Stepwise.bind_of_step (a := some ())]
  · rfl
  · simp only [Stepwise.attempt, hstep]
    rfl

theorem supersedeAll_trail {targets : List ActivationReceipt} (hopen : ∀ receipt ∈ targets, receipt.isUnconfirmed)
    (service : Service) : Trail Supersedes service.root (supersedeAll targets service) := by
  induction targets generalizing service with
  | nil => exact ⟨List.isChain_singleton _, rfl⟩
  | cons receipt targets ih =>
      rcases supersede_cases receipt service with ⟨refusal, hrefused⟩ | hget
      · have hran : supersedeAll (receipt :: targets) service = ⟨[], service, .ok ()⟩ := by
          rw [supersedeAll, Stepwise.bind_of_ok (a := none)]
          · simp only [Stepwise.attempt, hrefused]
            rfl
          · simp only [Stepwise.attempt, hrefused]
            rfl
        rw [hran]
        exact ⟨List.isChain_singleton _, rfl⟩
      · have hrest := ih (fun other hother ↦ hopen other (List.mem_cons_of_mem _ hother))
          (service.changed (.withReceipt (receipt.moved .superseded)))
        rw [supersedeAll_step hget]
        constructor
        · exact List.isChain_cons_cons.mpr
            ⟨.closes hget (hopen receipt (List.mem_cons_self ..)), hrest.chain⟩
        · exact hrest.final

theorem sortReceipts_mem {current : Store.Digest} {receipts keep supersede : List ActivationReceipt}
    (h : sortReceipts current receipts = some (keep, supersede)) :
    (∀ receipt, receipt ∈ keep ↔ receipt ∈ receipts ∧ receipt.isUnconfirmed = true ∧
        receipt.activatedRegistryDigest = current ∧ receipt.previousRegistryDigest ≠ current) ∧
      ∀ receipt, receipt ∈ supersede ↔
        receipt ∈ receipts ∧ receipt.isUnconfirmed = true ∧ receipt.previousRegistryDigest = current := by
  induction receipts generalizing keep supersede with
  | nil =>
      simp only [sortReceipts, Option.some.injEq, Prod.mk.injEq] at h
      obtain ⟨rfl, rfl⟩ := h
      simp
  | cons first receipts ih =>
      unfold sortReceipts at h
      split at h
      · next hopen =>
          split at h
          · next hkeep =>
              rw [Option.map_eq_some_iff] at h
              obtain ⟨⟨keep', supersede'⟩, hrest, heq⟩ := h
              cases heq
              obtain ⟨hkeeps, hsupersedes⟩ := ih hrest
              constructor
              · intro receipt
                rw [List.mem_cons, hkeeps, List.mem_cons]
                grind
              · intro receipt
                rw [hsupersedes, List.mem_cons]
                grind
          · split at h
            · next hprevious =>
                rw [Option.map_eq_some_iff] at h
                obtain ⟨⟨keep', supersede'⟩, hrest, heq⟩ := h
                cases heq
                obtain ⟨hkeeps, hsupersedes⟩ := ih hrest
                constructor
                · intro receipt
                  rw [hkeeps, List.mem_cons]
                  grind
                · intro receipt
                  rw [List.mem_cons, hsupersedes, List.mem_cons]
                  grind
            · cases h
      · next hclosed =>
          obtain ⟨hkeeps, hsupersedes⟩ := ih h
          constructor
          · intro receipt
            rw [hkeeps, List.mem_cons]
            grind
          · intro receipt
            rw [hsupersedes, List.mem_cons]
            grind

theorem planReconciliation_eq_ok {current : Store.Digest} {plan : ReconciliationPlan}
    (h : planActivationReconciliation receipts current = .ok plan) :
    ∃ keep, sortReceipts current receipts = some (keep, plan.supersede) ∧ plan.keep = keep.head? := by
  unfold planActivationReconciliation at h
  split at h
  · next keep supersede hsort =>
      rw [ite_eq_ok, Except.ok.injEq] at h
      obtain ⟨-, rfl⟩ := h
      exact ⟨keep, hsort, rfl⟩
  · cases h

theorem reconciliationTarget_eq_ok {receipt target : ActivationReceipt}
    (h : reconciliationTarget H root receipt = .ok target) : target = receipt := by
  simp only [reconciliationTarget, bind_eq_ok, pure_eq_ok] at h
  obtain ⟨-, -, -, -, -, -, rfl⟩ := h
  rfl

theorem reconciliationEvidence_eq_ok {expectedKept : Option String} {plan : ReconciliationPlan}
    {targets : List ActivationReceipt} (h : reconciliationEvidence H root expected expectedKept = .ok (plan, targets)) :
    liveDigest H root = .ok expected ∧ targets = plan.supersede ∧
      ∃ receipts, activationReceipts root = .ok receipts ∧ planActivationReconciliation receipts expected = .ok plan := by
  simp only [reconciliationEvidence, bind_eq_ok, pure_eq_ok, requireDigest_eq_ok, Prod.mk.injEq] at h
  obtain ⟨current, hcurrent, -, hdigest, receipts, hreceipts, plan', hplan, targets', htargets, rfl, rfl⟩ := h
  refine ⟨liveDigest_eq_ok.mpr ⟨current, hcurrent, hdigest⟩, ?_, receipts, hreceipts, hplan⟩
  simp only [reconciliationTargets, bind_eq_ok, mapM_eq_ok] at htargets
  obtain ⟨-, -, -, -, hmap⟩ := htargets
  rw [← List.forall₂_eq_eq_eq]
  exact hmap.flip.imp fun target receipt htarget ↦ reconciliationTarget_eq_ok htarget

theorem reconcile_trail (expected : Store.Digest) (expectedKept : Option String) (service : Service) :
    Trail Supersedes service.root (reconcileActivations H expected expectedKept service) := by
  unfold reconcileActivations
  cases hevidence : reconciliationEvidence H service.root expected expectedKept with
  | error refusal =>
      rw [look_error (f := fun root ↦ reconciliationEvidence H root expected expectedKept) hevidence]
      exact ⟨List.isChain_singleton _, rfl⟩
  | ok evidence =>
      rw [look_ok (f := fun root ↦ reconciliationEvidence H root expected expectedKept) hevidence]
      obtain ⟨plan, targets⟩ := evidence
      obtain ⟨-, rfl, receipts, -, hplan⟩ := reconciliationEvidence_eq_ok hevidence
      obtain ⟨keep, hsort, -⟩ := planReconciliation_eq_ok hplan
      have hopen : ∀ receipt ∈ plan.supersede, receipt.isUnconfirmed = true :=
        fun receipt hmem ↦ (((sortReceipts_mem hsort).2 receipt).mp hmem).2.1
      have hall := supersedeAll_trail hopen service
      cases hresult : (supersedeAll plan.supersede service).result with
      | error refusal =>
          simp only [Stepwise.bind_of_error hresult]
          exact ⟨hall.chain, hall.final⟩
      | ok done =>
          simp only [Stepwise.bind_of_ok hresult]
          have hend : ∀ root, (look (fun root ↦ (.ok (observeReconciliation root
              (plan.keep.map ActivationReceipt.activationId) [] [] plan.supersede) : Checked ReconciliationOutcome))
              root : Ran Service Refusal ReconciliationOutcome).steps = [] := fun _ ↦ rfl
          constructor
          · rw [hend, List.append_nil]
            exact hall.chain
          · simp only [hend, List.append_nil]
            exact hall.final

theorem Call.acts (hkeyed : Keyed service.root) (call : Call H) :
    Acts H service.root (call.command service) := by
  cases call with
  | saveMetadata registry expected =>
      left
      apply Trail.mapped
      rcases saveMetadata_cases registry expected service with hrefuses | ⟨candidate, content, hcandidate, hcanonical, hgoes⟩
      · exact hrefuses.trail
      · have hread := (metadataCandidate_eq_ok hcandidate).1
        exact hgoes.trail (Move.trail (.registry (readRegistry_isNormal hread) hcanonical))
  | issueProof profile result base proofId now ttl =>
      obtain ⟨hsteps, hroot⟩ := issueProof_roots (H := H) profile result base proofId now ttl service
      left
      constructor
      · simp only [Call.command, Stepwise.mapped, hsteps, List.map_nil]
        exact List.isChain_singleton _
      · simp only [Call.command, Stepwise.mapped, hsteps, List.map_nil, hroot, List.getLast_singleton]
  | activate registry profileId proofId expected activationId now =>
      rcases (activate_cases registry profileId proofId expected activationId now service).acts with
        htrail | ⟨prepared, content, hopening⟩
      · exact .inl (htrail.mapped _)
      · exact .inr ⟨prepared, content, hopening.chain, hopening.opens, hopening.steps, hopening.final⟩
  | reconcile expected expectedKept =>
      exact .inl (((reconcile_trail expected expectedKept service).imp fun _ _ h ↦ h.move).mapped _)
  | restore activationId expected =>
      left
      apply Trail.mapped
      rcases restore_cases hkeyed activationId expected with hrefuses | ⟨receipt, rollback, content, hrestorable⟩
      · exact hrefuses.trail
      · exact (restore_of hkeyed hrestorable).trail (hrestorable.chain hkeyed)
  | confirm activationId expected =>
      left
      apply Trail.mapped
      rcases confirm_cases hkeyed activationId expected with ⟨hrefuses, -⟩ | ⟨receipt, hevidence, hgoes⟩
      · exact hrefuses.trail
      · obtain ⟨⟨-, hget, hopen⟩, -, -⟩ := confirmEvidence_eq_ok.mp hevidence
        rw [← hkeyed activationId receipt hget] at hget
        exact hgoes.trail (Move.trail (.moved hget (.closed hopen rfl)))

/-- Every step that a call takes is one of the ledger. -/
theorem Call.trail (hkeyed : Keyed service.root) (call : Call H) :
    Trail (Change H) service.root (call.command service) := by
  rcases Call.acts hkeyed call with htrail | ⟨prepared, content, hopening⟩
  · exact htrail.imp fun _ _ h ↦ .move h
  · constructor
    · rw [hopening.steps]
      exact hopening.chain
    · simp only [hopening.steps, hopening.final]

/-! ## Runs -/

/-- A call that stops behind so many of its file steps: the process ends there, or a file cannot be written. -/
structure Stop where
  steps : ℕ
  ends : Bool

structure Event (H : Host) where
  call : Call H
  stop : Option Stop

/-- The service after an event; a process that ends takes its proofs with it. -/
def Event.after (event : Event H) (service : Service) : Service :=
  match event.stop with
  | none => (event.call.command service).state
  | some stop =>
      let reached := event.call.command.stopped service stop.steps
      if stop.ends then { reached with proofs := [] } else reached

/-- The service after a run. -/
def afterRun (service : Service) (events : List (Event H)) : Service :=
  events.foldl (fun service event ↦ event.after service) service

/-- What an event leaves is what one of the steps of its call has left. -/
theorem Event.after_root (hkeyed : Keyed service.root) (event : Event H) :
    (event.after service).root ∈ service.root :: (event.call.command service).steps.map Service.root := by
  have hfinal : (event.call.command service).state.root ∈
      service.root :: (event.call.command service).steps.map Service.root := by
    rw [(Call.trail hkeyed event.call).final]
    exact List.getLast_mem _
  unfold Event.after
  cases event.stop with
  | none => exact hfinal
  | some stop =>
      have hroot : (event.call.command.stopped service stop.steps).root ∈
          service.root :: (event.call.command service).steps.map Service.root := by
        rcases Stepwise.stopped_mem event.call.command service stop.steps with hstart | hmem | hend
        · rw [hstart]
          exact List.mem_cons_self ..
        · exact List.mem_cons_of_mem _ (List.mem_map_of_mem hmem)
        · rw [hend]
          exact hfinal
      simp only
      split
      · exact hroot
      · exact hroot

/-- The state roots that the steps of the ledger lead to. -/
abbrev Reaches (H : Host) : StateRoot → StateRoot → Prop := Relation.ReflTransGen (Change H)

theorem reaches_of_chain {roots : List StateRoot} (h : List.IsChain (Change H) (root :: roots)) :
    ∀ other ∈ root :: roots, Reaches H root other := by
  induction roots generalizing root with
  | nil =>
      intro other hmem
      rw [List.mem_singleton.mp hmem]
  | cons next roots ih =>
      rw [List.isChain_cons_cons] at h
      intro other hmem
      rcases List.mem_cons.mp hmem with rfl | hmem
      · exact .refl
      · exact .head h.1 (ih h.2 other hmem)

theorem Event.reaches (hkeyed : Keyed service.root) (event : Event H) :
    Reaches H service.root (event.after service).root :=
  reaches_of_chain (Call.trail hkeyed event.call).chain _ (event.after_root hkeyed)

theorem Reaches.sound {root root' : StateRoot} (h : Reaches H root root') (hsound : Sound H root) : Sound H root' := by
  induction h with
  | refl => exact hsound
  | tail _ hchange ih => exact ih.change hchange

theorem Reaches.succeeds {root root' : StateRoot} (h : Reaches H root root') : Succeeds root root' := by
  induction h with
  | refl => exact .refl root
  | tail _ hchange ih => exact ih.trans hchange.succeeds

theorem afterRun_sound (hsound : Sound H service.root) (events : List (Event H)) :
    Sound H (afterRun service events).root := by
  induction events generalizing service with
  | nil => exact hsound
  | cons event events ih => exact ih ((event.reaches hsound.keyed).sound hsound)

end WorkStack.Connection
