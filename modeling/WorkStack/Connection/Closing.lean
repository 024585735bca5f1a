import WorkStack.Connection.Recovery

/-!
# Ways out of an activation

An activation that is neither confirmed nor put back keeps every other one from being opened. The operations
that close it ask for a live registry that is the activated one or the one before it. An edit of metadata may
leave another, and then none of them is accepted.
-/

open WorkStack.Python WorkStack.Python.Decoding WorkStack.Effect WorkStack.Effect.Refusing

namespace WorkStack.Connection

variable {H : Host}

/-! ## Closing calls -/

/-- The calls that close an activation, with the digest of the live registry. -/
inductive IsClosing (activationId : String) (digest : Store.Digest) : Call H → Prop
  | confirm : IsClosing activationId digest (.confirm activationId digest)
  | restore : IsClosing activationId digest (.restore activationId digest)
  | reconcile (expectedKept : Option String) : IsClosing activationId digest (.reconcile digest expectedKept)

/-- One of these calls is accepted, and it closes the activation. -/
def CanClose (H : Host) (service : Service) (activationId : String) : Prop :=
  ∃ digest, liveDigest H service.root = .ok digest ∧
    ∃ call : Call H, IsClosing activationId digest call ∧ (∃ answer, (call.command service).result = .ok answer) ∧
      ∃ closed, (call.command service).state.root.receipts.get activationId = some closed ∧
        closed.isUnconfirmed = false

/-- The live registry is the activated one, or the one before it where the evidence can be read. -/
def HasWayOut (H : Host) (root : StateRoot) (receipt : ActivationReceipt) : Prop :=
  liveDigest H root = .ok receipt.activatedRegistryDigest ∨
    liveDigest H root = .ok receipt.previousRegistryDigest ∧ root.entries ≤ maxActivationRecords

variable {service : Service}

theorem result_mapped {α β : Type} {m : Command α} {f : α → β} {answer : β}
    (h : (m.mapped f service).result = .ok answer) : ∃ value, (m service).result = .ok value := by
  change (m service).result.map f = .ok answer at h
  cases hresult : (m service).result with
  | error refusal =>
      rw [hresult] at h
      cases h
  | ok value => exact ⟨value, rfl⟩

/-! ## Reconciliation -/

variable {receipts : List ActivationReceipt}

theorem sortReceipts_sorts {current : Store.Digest} {sorted : List ActivationReceipt × List ActivationReceipt}
    (h : sortReceipts current receipts = some sorted) :
    ∀ receipt ∈ receipts, receipt.isUnconfirmed →
      receipt.activatedRegistryDigest = current ∨ receipt.previousRegistryDigest = current := by
  obtain ⟨keep, supersede⟩ := sorted
  induction receipts generalizing keep supersede with
  | nil =>
      intro receipt hmem
      cases hmem
  | cons first receipts ih =>
      have hrest : (∃ sorted, sortReceipts current receipts = some sorted) ∧ (first.isUnconfirmed →
          first.activatedRegistryDigest = current ∨ first.previousRegistryDigest = current) := by
        unfold sortReceipts at h
        split at h
        · split at h
          · next hkeep =>
              rw [Option.map_eq_some_iff] at h
              obtain ⟨sorted, hsorted, -⟩ := h
              exact ⟨⟨sorted, hsorted⟩, fun _ ↦ .inl hkeep.1⟩
          · split at h
            · next hprevious =>
                rw [Option.map_eq_some_iff] at h
                obtain ⟨sorted, hsorted, -⟩ := h
                exact ⟨⟨sorted, hsorted⟩, fun _ ↦ .inr hprevious⟩
            · cases h
        · next hclosed => exact ⟨⟨_, h⟩, fun hopen ↦ absurd hopen hclosed⟩
      obtain ⟨⟨sorted, hsorted⟩, hfirst⟩ := hrest
      intro receipt hmem
      rcases List.mem_cons.mp hmem with rfl | hmem
      · exact hfirst
      · exact ih sorted.1 sorted.2 hsorted receipt hmem

theorem sortReceipts_superseding {current : Store.Digest}
    (h : ∀ receipt ∈ receipts, receipt.isUnconfirmed → receipt.previousRegistryDigest = current) :
    sortReceipts current receipts = some ([], receipts.filter ActivationReceipt.isUnconfirmed) := by
  induction receipts with
  | nil => rfl
  | cons first receipts ih =>
      have hrest := ih fun receipt hmem ↦ h receipt (List.mem_cons_of_mem _ hmem)
      unfold sortReceipts
      by_cases hopen : first.isUnconfirmed
      · have hprevious := h first (List.mem_cons_self ..) hopen
        rw [if_pos hopen, if_neg (fun hand ↦ hand.2 hprevious), if_pos hprevious, hrest,
          List.filter_cons_of_pos hopen]
        rfl
      · rw [if_neg hopen, hrest, List.filter_cons_of_neg hopen]

variable {expected : Store.Digest}

/-- What a reconciliation that was accepted has found. -/
theorem reconcile_accepted {expectedKept : Option String} {outcome : ReconciliationOutcome}
    (h : (reconcileActivations H expected expectedKept service).result = .ok outcome) :
    ∃ receipts sorted, activationReceipts service.root = .ok receipts ∧ sortReceipts expected receipts = some sorted := by
  cases hevidence : reconciliationEvidence H service.root expected expectedKept with
  | error refusal =>
      rw [reconcileActivations,
        look_error (f := fun root ↦ reconciliationEvidence H root expected expectedKept) hevidence] at h
      cases h
  | ok evidence =>
      obtain ⟨plan, targets⟩ := evidence
      obtain ⟨-, -, receipts, hlisted, hplan⟩ := reconciliationEvidence_eq_ok hevidence
      obtain ⟨keep, hsort, -⟩ := planReconciliation_eq_ok hplan
      exact ⟨receipts, _, hlisted, hsort⟩

variable {activationId : String} {receipt : ActivationReceipt}

/-- Where the registry before the activation is live, a reconciliation supersedes it. -/
theorem reconcile_supersedes (hsound : Sound H service.root)
    (hget : service.root.receipts.get activationId = some receipt) (hopen : receipt.isUnconfirmed)
    (hlive : liveDigest H service.root = .ok receipt.previousRegistryDigest)
    (hentries : service.root.entries ≤ maxActivationRecords) :
    let ran := reconcileActivations H receipt.previousRegistryDigest none service
    (∃ outcome, ran.result = .ok outcome) ∧ ran.state.root = service.root.withReceipt (receipt.moved .superseded) := by
  intro ran
  obtain ⟨receipts, hlisted⟩ := activationReceipts_of_entries hentries
  obtain ⟨current, hcurrent, hdigest⟩ := liveDigest_eq_ok.mp hlive
  obtain ⟨rollback, hrollback⟩ := hsound.answers activationId receipt hget
  rw [← hsound.keyed activationId receipt hget] at hget
  have hsole := unconfirmed_eq_singleton hsound hlisted hget hopen
  have hsort : sortReceipts receipt.previousRegistryDigest receipts = some ([], [receipt]) := by
    rw [← hsole]
    apply sortReceipts_superseding
    intro other hmem hunconfirmed
    have hother : other ∈ receipts.filter ActivationReceipt.isUnconfirmed := List.mem_filter.mpr ⟨hmem, hunconfirmed⟩
    rw [hsole, List.mem_singleton] at hother
    rw [hother]
  have hplan : planActivationReconciliation receipts receipt.previousRegistryDigest = .ok ⟨none, [receipt]⟩ := by
    unfold planActivationReconciliation
    rw [hsort]
    rfl
  have htarget : reconciliationTarget H service.root receipt = .ok receipt := by
    simp only [reconciliationTarget, bind_eq_ok, pure_eq_ok, readReceipt_eq_ok, check_eq_ok]
    exact ⟨receipt, hget, (), by simp, rollback, hrollback, trivial⟩
  have hevidence : reconciliationEvidence H service.root receipt.previousRegistryDigest none =
      .ok (⟨none, [receipt]⟩, [receipt]) := by
    simp only [reconciliationEvidence, reconciliationTargets, bind_eq_ok, pure_eq_ok, requireDigest_eq_ok]
    refine ⟨current, hcurrent, (), hdigest, receipts, hlisted, _, hplan, [receipt], ⟨(), rfl, (), rfl, ?_⟩, rfl⟩
    simp only [List.mapM_cons, List.mapM_nil, htarget]
    rfl
  have hran : ran = _ :=
    look_ok (f := fun root ↦ reconciliationEvidence H root receipt.previousRegistryDigest none) hevidence
  rw [hran]
  have hstep := supersedeAll_step hget []
  simp only [Stepwise.bind_of_ok (congrArg Ran.result hstep)]
  rw [hstep]
  exact ⟨⟨_, rfl⟩, rfl⟩

/-! ## States with a way out -/

theorem canClose_iff (hsound : Sound H service.root) (hget : service.root.receipts.get activationId = some receipt)
    (hopen : receipt.isUnconfirmed) : CanClose H service activationId ↔ HasWayOut H service.root receipt := by
  constructor
  · rintro ⟨digest, hlive, call, hcloses, ⟨answer, hanswer⟩, -⟩
    cases hcloses with
    | confirm =>
        obtain ⟨value, hresult⟩ := result_mapped hanswer
        rcases confirm_cases hsound.keyed activationId digest with ⟨hrefuses, -⟩ | ⟨receipt', hevidence, -⟩
        · obtain ⟨refusal, hrefusal⟩ := hrefuses.result
          rw [hrefusal] at hresult
          cases hresult
        · obtain ⟨⟨-, hget', -⟩, -, hactivated⟩ := confirmEvidence_eq_ok.mp hevidence
          rw [hget] at hget'
          cases hget'
          left
          rw [hactivated]
          exact hlive
    | restore =>
        obtain ⟨value, hresult⟩ := result_mapped hanswer
        rcases restore_cases hsound.keyed activationId digest with hrefuses | ⟨receipt', rollback, content, h⟩
        · obtain ⟨refusal, hrefusal⟩ := hrefuses.result
          rw [hrefusal] at hresult
          cases hresult
        · have hget' := h.get
          rw [hget] at hget'
          cases hget'
          left
          rw [h.activated]
          exact hlive
    | reconcile expectedKept =>
        obtain ⟨value, hresult⟩ := result_mapped hanswer
        obtain ⟨receipts, sorted, hlisted, hsort⟩ := reconcile_accepted hresult
        obtain ⟨hentries, hmem⟩ := activationReceipts_eq_ok hlisted
        rcases sortReceipts_sorts hsort receipt ((hmem receipt).mpr ⟨activationId, hget⟩) hopen with
          hactivated | hprevious
        · left
          rw [hactivated]
          exact hlive
        · right
          rw [hprevious]
          exact ⟨hlive, hentries⟩
  · rintro (hlive | ⟨hlive, hentries⟩)
    · refine ⟨_, hlive, .confirm activationId _, .confirm, ?_⟩
      have hid := hsound.canonicalId activationId receipt hget
      have hevidence := confirmEvidence_eq_ok.mpr ⟨⟨hid, hget, hopen⟩, hlive, rfl⟩
      rcases confirm_cases hsound.keyed activationId receipt.activatedRegistryDigest with
        ⟨-, refusal, hrefusal⟩ | ⟨receipt', hevidence', hgoes⟩
      · rw [hevidence] at hrefusal
        cases hrefusal
      · rw [hevidence] at hevidence'
        cases hevidence'
        refine ⟨⟨.receipt _, congrArg (Except.map Answer.receipt) hgoes.result⟩, receipt.moved .confirmed, ?_, rfl⟩
        have hfinal := hgoes.final
        change (confirm H activationId receipt.activatedRegistryDigest service).state.root.receipts.get activationId = _
        rw [hfinal, ← hsound.keyed activationId receipt hget]
        exact Mapping.get_set_self ..
    · refine ⟨_, hlive, .reconcile _ none, .reconcile none, ?_⟩
      obtain ⟨⟨outcome, hresult⟩, hfinal⟩ := reconcile_supersedes hsound hget hopen hlive hentries
      refine ⟨⟨.reconciled outcome, congrArg (Except.map Answer.reconciled) hresult⟩, receipt.moved .superseded, ?_, rfl⟩
      change (reconcileActivations H receipt.previousRegistryDigest none service).state.root.receipts.get activationId = _
      rw [hfinal, ← hsound.keyed activationId receipt hget]
      exact Mapping.get_set_self ..

/-! ## Careful runs -/

/-- A call that gets behind so many of its steps. -/
def Event.Passes (event : Event H) (k : ℕ) : Prop := ∀ stop, event.stop = some stop → k ≤ stop.steps

/-- A call that stops there. -/
def Event.StopsAt (event : Event H) (k : ℕ) : Prop := ∃ stop, event.stop = some stop ∧ stop.steps = k

/-- A call that keeps the way out: it edits no metadata into a registry that an unconfirmed activation does not
know, and it does not stop between the receipt and the registry of evidence that cannot be read again. -/
def Event.IsCareful (event : Event H) (root : StateRoot) : Prop :=
  match event.call with
  | .saveMetadata registry expected => event.Passes 1 → ∀ candidate digest activationId receipt,
      metadataCandidate H root registry expected = .ok candidate → registryDigest H candidate = .ok digest →
        root.receipts.get activationId = some receipt → receipt.isUnconfirmed →
          digest = receipt.activatedRegistryDigest ∨
            digest = receipt.previousRegistryDigest ∧ root.entries ≤ maxActivationRecords
  | .activate registry _ _ expected _ _ => event.StopsAt 2 → ∀ candidate digest,
      readRegistry H registry = .ok candidate → registryDigest H candidate = .ok digest →
        root.entries + 2 ≤ maxActivationRecords ∨ HasUnconfirmed root ∨ digest = expected
  | _ => True

/-- Every unconfirmed activation has a way out. -/
def AllHaveWayOut (H : Host) (root : StateRoot) : Prop :=
  ∀ activationId receipt, root.receipts.get activationId = some receipt → receipt.isUnconfirmed →
    HasWayOut H root receipt

variable {root : StateRoot}

theorem allHaveWayOut_of_closed (h : ¬HasUnconfirmed root) : AllHaveWayOut H root := by
  intro activationId receipt hget hopen
  exact absurd ⟨activationId, receipt, hget, hopen⟩ h

/-- One way out is enough where only one activation is unconfirmed. -/
theorem allHaveWayOut_of_one (hsound : Sound H root) (hget : root.receipts.get activationId = some receipt)
    (hopen : receipt.isUnconfirmed) (h : HasWayOut H root receipt) : AllHaveWayOut H root := by
  intro otherId other hother hunconfirmed
  have hid := hsound.single otherId activationId other receipt hother hget hunconfirmed hopen
  rw [hid, hget] at hother
  cases hother
  exact h

/-- No activation is unconfirmed once the only one is closed. -/
theorem closed_of_moved (hsound : Sound H root) {state : ActivationState}
    (hget : root.receipts.get receipt.activationId = some receipt) (hopen : receipt.isUnconfirmed)
    (hclosed : state.isUnconfirmed = false) :
    ¬HasUnconfirmed (root.withReceipt (receipt.moved state)) := by
  rintro ⟨otherId, other, hother, hunconfirmed⟩
  rw [StateRoot.withReceipt, Mapping.get_set] at hother
  split at hother
  · cases hother
    change state.isUnconfirmed = true at hunconfirmed
    rw [hclosed] at hunconfirmed
    cases hunconfirmed
  · next hne =>
      have hid := hsound.single otherId receipt.activationId other receipt hother hget hunconfirmed hopen
      exact hne hid.symm

/-- The files behind a call that goes through, wherever it stops. -/
theorem Event.after_goes {α : Type} {event : Event H} {m : Command α} {f : α → Answer} {roots : List StateRoot}
    {value : α} (hcommand : event.call.command = m.mapped f) (h : Goes service.root roots value (m service)) :
    (event.after service).root =
      match event.stop with
      | none => (service.root :: roots).getLast (List.cons_ne_nil _ _)
      | some stop => ((service.root :: roots)[stop.steps]?).getD
          ((service.root :: roots).getLast (List.cons_ne_nil _ _)) := by
  have hmapped : Goes service.root roots (f value) (event.call.command service) := by
    rw [hcommand]
    exact ⟨h.steps, h.final, congrArg (Except.map f) h.result⟩
  unfold Event.after
  cases hstop : event.stop with
  | none => exact hmapped.final
  | some stop =>
      simp only
      rw [← hmapped.stopped_root stop.steps]
      split
      · rfl
      · rfl

theorem Event.after_refuses {α : Type} {event : Event H} {m : Command α} {f : α → Answer} (hkeyed : Keyed service.root)
    (hcommand : event.call.command = m.mapped f) (h : Refuses service.root (m service)) :
    (event.after service).root = service.root := by
  have hmem := event.after_root hkeyed
  have hsteps : (event.call.command service).steps.map Service.root = [] := by
    rw [hcommand]
    exact h.steps
  rw [hsteps] at hmem
  exact List.mem_singleton.mp hmem

variable {stop : Option Stop} {registry : Json}

theorem saveMetadata_keeps (hsound : Sound H service.root) (h : AllHaveWayOut H service.root)
    (hcareful : Event.IsCareful (H := H) ⟨.saveMetadata registry expected, stop⟩ service.root) :
    AllHaveWayOut H (Event.after (H := H) ⟨.saveMetadata registry expected, stop⟩ service).root := by
  let event : Event H := ⟨.saveMetadata registry expected, stop⟩
  change AllHaveWayOut H (event.after service).root
  rcases saveMetadata_cases (H := H) registry expected service with
    hrefuses | ⟨candidate, content, hcandidate, hcanonical, hgoes⟩
  · rw [event.after_refuses hsound.keyed rfl hrefuses]
    exact h
  · have hread := (metadataCandidate_eq_ok hcandidate).1
    obtain ⟨-, hlive⟩ := liveDigest_withRegistry service.root (readRegistry_isNormal hread) hcanonical
    have hselected (hpasses : event.Passes 1) : AllHaveWayOut H (service.root.withRegistry content) := by
      intro activationId receipt hget hopen
      have hknown := hcareful hpasses candidate _ activationId receipt hcandidate
        (registryDigest_eq_ok.mpr ⟨content, hcanonical, rfl⟩) hget hopen
      rcases hknown with hactivated | ⟨hprevious, hentries⟩
      · left
        rw [← hactivated]
        exact hlive
      · right
        rw [← hprevious]
        exact ⟨hlive, hentries⟩
    rw [event.after_goes rfl hgoes]
    cases hstop : event.stop with
    | none => exact hselected fun stop hsome ↦ by rw [hstop] at hsome; cases hsome
    | some stop =>
        obtain ⟨steps, ends⟩ := stop
        match steps with
        | 0 => exact h
        | 1 => exact hselected fun stop hsome ↦ by rw [hstop] at hsome; cases hsome; exact le_refl 1
        | steps + 2 => exact hselected fun stop hsome ↦ by rw [hstop] at hsome; cases hsome; exact Nat.le_add_left 1 _

theorem issueProof_keeps {profile : ConnectionProfile} {result : ProfileTestResult} {base : Store.Digest}
    {proofId : String} {now ttl : ℤ} (hsound : Sound H service.root) :
    (Event.after (H := H) ⟨.issueProof profile result base proofId now ttl, stop⟩ service).root = service.root := by
  let event : Event H := ⟨.issueProof profile result base proofId now ttl, stop⟩
  have hmem := event.after_root hsound.keyed
  have hsteps : (event.call.command service).steps.map Service.root = [] := by
    have hnone := (issueProof_roots (H := H) profile result base proofId now ttl service).1
    simp only [event, Call.command, Stepwise.mapped, hnone, List.map_nil]
  rw [hsteps] at hmem
  exact List.mem_singleton.mp hmem

theorem supersedes_closed {root root' : StateRoot} (hsound : Sound H root) (h : Supersedes root root') :
    ¬HasUnconfirmed root' := by
  cases h with
  | closes get unconfirmed => exact closed_of_moved hsound get unconfirmed rfl

theorem supersedes_chain {roots : List StateRoot} (hsound : Sound H root)
    (h : List.IsChain Supersedes (root :: roots)) :
    ∀ other ∈ root :: roots, other = root ∨ ¬HasUnconfirmed other := by
  induction roots generalizing root with
  | nil =>
      intro other hmem
      exact .inl (List.mem_singleton.mp hmem)
  | cons next roots ih =>
      rw [List.isChain_cons_cons] at h
      have hnext := supersedes_closed hsound h.1
      intro other hmem
      rcases List.mem_cons.mp hmem with rfl | hmem
      · exact .inl rfl
      · rcases ih (hsound.change (.move h.1.move)) h.2 other hmem with rfl | hclosed
        · exact .inr hnext
        · exact .inr hclosed

theorem reconcile_keeps {expectedKept : Option String} (hsound : Sound H service.root)
    (h : AllHaveWayOut H service.root) :
    AllHaveWayOut H (Event.after (H := H) ⟨.reconcile expected expectedKept, stop⟩ service).root := by
  let event : Event H := ⟨.reconcile expected expectedKept, stop⟩
  have hchain := (reconcile_trail (H := H) expected expectedKept service).chain
  rcases supersedes_chain hsound hchain _ (event.after_root hsound.keyed) with hsame | hclosed
  · change AllHaveWayOut H (event.after service).root
    rw [hsame]
    exact h
  · exact allHaveWayOut_of_closed hclosed

theorem restore_keeps (hsound : Sound H service.root) (h : AllHaveWayOut H service.root) :
    AllHaveWayOut H (Event.after (H := H) ⟨.restore activationId expected, stop⟩ service).root := by
  let event : Event H := ⟨.restore activationId expected, stop⟩
  change AllHaveWayOut H (event.after service).root
  rcases restore_cases (H := H) hsound.keyed activationId expected with hrefuses | ⟨receipt, rollback, content, hrestorable⟩
  · rw [event.after_refuses hsound.keyed rfl hrefuses]
    exact h
  · have hentries := ((restorable_iff hsound hrestorable.get hrestorable.unconfirmed expected).mp
      ⟨rollback, content, hrestorable⟩).2.2
    obtain ⟨kept, -, hread, hprevious⟩ := readRollback_eq_ok.mp hrestorable.readable
    have hnormal := readContent_isNormal hread
    obtain ⟨hlive, -⟩ := liveDigest_withRegistry service.root hnormal hrestorable.canonical
    have hsound' : Sound H (service.root.withRegistry content) :=
      hsound.change (.move (.registry hnormal hrestorable.canonical))
    have hselected : AllHaveWayOut H (service.root.withRegistry content) :=
      allHaveWayOut_of_one hsound' hrestorable.get hrestorable.unconfirmed
        (.inr ⟨liveDigest_eq_ok.mpr ⟨rollback, hlive, hprevious⟩, hentries⟩)
    have hrestored : AllHaveWayOut H ((service.root.withRegistry content).withReceipt (receipt.moved .restored)) := by
      have hget := hrestorable.get
      rw [← hsound.keyed activationId receipt hget] at hget
      exact allHaveWayOut_of_closed (closed_of_moved hsound' hget hrestorable.unconfirmed rfl)
    rw [event.after_goes rfl (restore_of hsound.keyed hrestorable)]
    cases event.stop with
    | none => exact hrestored
    | some stop =>
        obtain ⟨steps, ends⟩ := stop
        match steps with
        | 0 => exact h
        | 1 => exact hselected
        | 2 => exact hrestored
        | steps + 3 => exact hrestored

theorem confirm_keeps (hsound : Sound H service.root) (h : AllHaveWayOut H service.root) :
    AllHaveWayOut H (Event.after (H := H) ⟨.confirm activationId expected, stop⟩ service).root := by
  let event : Event H := ⟨.confirm activationId expected, stop⟩
  change AllHaveWayOut H (event.after service).root
  rcases confirm_cases (H := H) hsound.keyed activationId expected with ⟨hrefuses, -⟩ | ⟨receipt, hevidence, hgoes⟩
  · rw [event.after_refuses hsound.keyed rfl hrefuses]
    exact h
  · obtain ⟨⟨-, hget, hopen⟩, -, -⟩ := confirmEvidence_eq_ok.mp hevidence
    rw [← hsound.keyed activationId receipt hget] at hget
    have hconfirmed : AllHaveWayOut H (service.root.withReceipt (receipt.moved .confirmed)) :=
      allHaveWayOut_of_closed (closed_of_moved hsound hget hopen rfl)
    rw [event.after_goes rfl hgoes]
    cases event.stop with
    | none => exact hconfirmed
    | some stop =>
        obtain ⟨steps, ends⟩ := stop
        match steps with
        | 0 => exact h
        | 1 => exact hconfirmed
        | steps + 2 => exact hconfirmed

variable {candidate : ConnectionRegistry} {content : Content}

/-- An attempt that is continued selects the registry that the receipt knows. -/
theorem resuming_live {prepared receipt : ActivationReceipt}
    (found : Attempts H root registry expected activationId prepared candidate content receipts)
    (continues : continuesAttempt (attemptOf prepared) receipt = true) :
    ∀ other ∈ root :: resumingRoots root receipt content expected,
      other = root ∨ liveDigest H other = .ok receipt.activatedRegistryDigest := by
  intro other hmem
  rcases List.mem_cons.mp hmem with rfl | hmem
  · exact .inl rfl
  · right
    unfold resumingRoots at hmem
    by_cases hdigest : expected = receipt.activatedRegistryDigest
    · have hlive := found.live
      rw [hdigest] at hlive
      simp only [hdigest, ne_eq, not_true_eq_false, if_false, List.nil_append, List.mem_ite_nil_right,
        List.mem_singleton] at hmem
      rw [hmem.2]
      exact hlive
    · have hlive : liveDigest H (root.withRegistry content) = .ok receipt.activatedRegistryDigest := by
        rw [(liveDigest_withRegistry root found.normal found.prepares.canonical).2, (continues_eq continues).1]
        exact congrArg Except.ok found.prepares.activated.symm
      simp only [hdigest, ne_eq, not_false_eq_true, if_true, List.mem_append, List.mem_singleton,
        List.mem_ite_nil_right] at hmem
      rcases hmem with rfl | ⟨-, rfl⟩
      · exact hlive
      · exact hlive

theorem resuming_keeps {prepared receipt : ActivationReceipt} (hsound : Sound H root) (h : AllHaveWayOut H root)
    (found : Attempts H root registry expected activationId prepared candidate content receipts)
    (unconfirmed : receipt.isUnconfirmed = true) (continues : continuesAttempt (attemptOf prepared) receipt = true)
    (get : root.receipts.get receipt.activationId = some receipt) :
    ∀ other ∈ root :: resumingRoots root receipt content expected, AllHaveWayOut H other := by
  intro other hmem
  rcases resuming_live found continues other hmem with rfl | hlive
  · exact h
  · have hchain : List.IsChain (Move H) (root :: resumingRoots root receipt content expected) :=
      resuming_chain found.normal found.prepares.canonical get
    intro otherId receipt' hget' hopen'
    obtain ⟨before, hbefore, hfollows⟩ := moves_receipt hchain other hmem otherId receipt' hget'
    have hid := hsound.single otherId receipt.activationId before receipt hbefore get (hfollows.isUnconfirmed hopen')
      unconfirmed
    rw [hid, get] at hbefore
    cases hbefore
    obtain ⟨state, rfl, -⟩ := hfollows
    exact .inl hlive

/-- Evidence that is opened has a way out behind each of its steps, but for the second where there is no room. -/
theorem opening_keeps {activationId : DrawnId H} {prepared : ActivationReceipt} (hsound : Sound H root)
    (found : Attempts H root registry expected activationId.val prepared candidate content receipts)
    (closed : ∀ receipt ∈ receipts, receipt.isUnconfirmed = false)
    (free : root.rollbacks.get prepared.rollbackFile = none) (fresh : root.receipts.get activationId.val = none)
    {k : ℕ}
    (hcareful : k = 2 → ∀ candidate digest, readRegistry H registry = .ok candidate →
      registryDigest H candidate = .ok digest →
        root.entries + 2 ≤ maxActivationRecords ∨ HasUnconfirmed root ∨ digest = expected) :
    AllHaveWayOut H (((root :: openingRoots root prepared content)[k]?).getD
      ((root :: openingRoots root prepared content).getLast (List.cons_ne_nil _ _))) := by
  have hopens := found.opens closed fresh
  have hclosed := not_hasUnconfirmed found.listed closed
  have hreaches := reaches_of_chain (hopens.opening free found.normal found.prepares.canonical)
  have haccepts := opened_accepts found closed free fresh
  have hlast : AllHaveWayOut H ((root :: openingRoots root prepared content).getLast (List.cons_ne_nil _ _)) :=
    allHaveWayOut_of_one ((hreaches _ (List.getLast_mem _)).sound hsound) haccepts.get haccepts.unconfirmed
      (.inl haccepts.live)
  let kept := root.withRollback prepared.rollbackFile root.registry
  have hget : (kept.withReceipt prepared).receipts.get prepared.activationId = some prepared := Mapping.get_set_self ..
  have hopen : prepared.isUnconfirmed := by
    rw [ActivationReceipt.isUnconfirmed, found.prepares.state]
    rfl
  have hactivated : registryDigest H candidate = .ok prepared.activatedRegistryDigest :=
    registryDigest_eq_ok.mpr ⟨content, found.prepares.canonical, found.prepares.activated.symm⟩
  match k with
  | 0 => exact allHaveWayOut_of_closed hclosed
  | 1 => exact allHaveWayOut_of_closed hclosed
  | 2 =>
      have hopened : Sound H (kept.withReceipt prepared) := (hreaches _ (by simp [openingRoots, kept])).sound hsound
      have hlive : liveDigest H (kept.withReceipt prepared) = .ok expected := found.live
      have hfresh : kept.receipts.get prepared.activationId = none := hopens.free
      have hentries : (kept.withReceipt prepared).entries = root.entries + 2 := by
        rw [entries_withNewReceipt hfresh, entries_withRollback free]
      apply allHaveWayOut_of_one hopened hget hopen
      rcases hcareful rfl candidate _ found.prepares.reads hactivated with hroom | hunconfirmed | hsame
      · right
        rw [found.prepares.previous, hentries]
        exact ⟨hlive, hroom⟩
      · exact absurd hunconfirmed hclosed
      · left
        rw [hsame]
        exact hlive
  | 3 =>
      have hselected : Sound H ((kept.withReceipt prepared).withRegistry content) :=
        (hreaches _ (by simp [openingRoots, kept])).sound hsound
      apply allHaveWayOut_of_one hselected hget hopen
      left
      have hlive := (liveDigest_withRegistry (kept.withReceipt prepared) found.normal found.prepares.canonical).2
      rw [← found.prepares.activated] at hlive
      exact hlive
  | 4 => exact hlast
  | k + 5 => exact hlast

theorem activate_keeps {profileId proofId : String} {activationId : DrawnId H} {now : ℤ}
    (hsound : Sound H service.root) (h : AllHaveWayOut H service.root)
    (hcareful : Event.IsCareful (H := H) ⟨.activate registry profileId proofId expected activationId now, stop⟩
      service.root) :
    AllHaveWayOut H
      (Event.after (H := H) ⟨.activate registry profileId proofId expected activationId now, stop⟩ service).root := by
  let event : Event H := ⟨.activate registry profileId proofId expected activationId now, stop⟩
  change AllHaveWayOut H (event.after service).root
  cases activate_cases registry profileId proofId expected activationId now service with
  | refused hrefuses =>
      rw [event.after_refuses hsound.keyed rfl hrefuses]
      exact h
  | @strayed prepared candidate content receipts found closed free steps final result =>
      have hclosed := not_hasUnconfirmed found.listed closed
      have hmem := event.after_root hsound.keyed
      have hsteps : (event.call.command service).steps.map Service.root =
          [service.root.withRollback prepared.rollbackFile service.root.registry] := steps
      rw [hsteps] at hmem
      rcases List.mem_cons.mp hmem with hsame | hkept
      · rw [hsame]
        exact h
      · rw [List.mem_singleton.mp hkept]
        exact allHaveWayOut_of_closed hclosed
  | @opened prepared candidate content receipts found closed free fresh goes =>
      rw [event.after_goes rfl goes]
      cases hstop : event.stop with
      | none =>
          have hlast := opening_keeps (k := 4) hsound found closed free fresh (by omega)
          exact hlast
      | some stop =>
          apply opening_keeps hsound found closed free fresh
          intro hsteps
          exact hcareful ⟨stop, hstop, hsteps⟩
  | @resumed prepared candidate content receipts receipt found unconfirmed continues get goes =>
      apply resuming_keeps hsound h found unconfirmed continues get
      have hmem := event.after_root hsound.keyed
      have hsteps : (event.call.command service).steps.map Service.root =
          resumingRoots service.root receipt content expected := goes.steps
      rw [hsteps] at hmem
      exact hmem

/-- A careful call keeps every way out. -/
theorem Event.keeps (hsound : Sound H service.root) (h : AllHaveWayOut H service.root) (event : Event H)
    (hcareful : event.IsCareful service.root) : AllHaveWayOut H (event.after service).root := by
  obtain ⟨call, stop⟩ := event
  cases call with
  | saveMetadata registry expected => exact saveMetadata_keeps hsound h hcareful
  | issueProof profile result base proofId now ttl =>
      rw [issueProof_keeps hsound]
      exact h
  | activate registry profileId proofId expected activationId now => exact activate_keeps hsound h hcareful
  | reconcile expected expectedKept => exact reconcile_keeps hsound h
  | restore activationId expected => exact restore_keeps hsound h
  | confirm activationId expected => exact confirm_keeps hsound h

/-- A run whose calls are all careful. -/
def CarefulRun (beginning : Beginning H) (events : List (Event H)) : Prop :=
  ∀ earlier event later, events = earlier ++ event :: later → event.IsCareful (beginning.after earlier).root

theorem CarefulRun.allHaveWayOut {beginning : Beginning H} {events : List (Event H)} (h : CarefulRun beginning events) :
    AllHaveWayOut H (beginning.after events).root := by
  induction events using List.reverseRecOn with
  | nil =>
      intro activationId receipt hget
      exact absurd hget beginning.no_receipt
  | append_singleton events event ih =>
      have hearlier : CarefulRun beginning events := by
        intro earlier other later heq
        exact h earlier other (later ++ [event]) (by rw [heq, List.append_assoc, List.cons_append])
      rw [Beginning.after, afterRun_append]
      exact event.keeps (beginning.after_sound events) (ih hearlier) (h events event [] rfl)

/-- An activation is closed by one of the calls exactly where the live registry is the activated one, or the one
before it and the evidence can be read; and a run of careful calls never leaves these. -/
theorem canClose_of_careful (beginning : Beginning H) (events : List (Event H)) :
    let service := beginning.after events
    (∀ activationId receipt, service.root.receipts.get activationId = some receipt → receipt.isUnconfirmed →
      (CanClose H service activationId ↔ HasWayOut H service.root receipt)) ∧
    (CarefulRun beginning events → ∀ activationId receipt, service.root.receipts.get activationId = some receipt →
      receipt.isUnconfirmed → CanClose H service activationId) := by
  intro service
  have hsound : Sound H service.root := beginning.after_sound events
  constructor
  · intro activationId receipt hget hopen
    exact canClose_iff hsound hget hopen
  · intro hcareful activationId receipt hget hopen
    exact (canClose_iff hsound hget hopen).mpr (hcareful.allHaveWayOut activationId receipt hget hopen)

/-- The run of the desk is careful, and its activation can be closed. -/
theorem desk_canClose : CanClose posixHost (deskBeginning.after deskRun) deskActivationId.val := by
  apply (canClose_of_careful deskBeginning deskRun).2
  · intro earlier event later heq
    have hmem : event ∈ deskRun := by
      rw [heq]
      exact List.mem_append_right _ (List.mem_cons_self ..)
    simp only [deskRun, List.mem_cons, List.not_mem_nil, or_false] at hmem
    rcases hmem with rfl | rfl
    · exact trivial
    · rintro ⟨stop, hstop, -⟩
      cases hstop
  · exact desk_get
  · exact desk_accepts.unconfirmed

theorem desk_read : readLive posixHost (deskBeginning.after deskRun).root = .ok (deskRegistry "Desk" "/new") := by
  have hroot : (deskBeginning.after deskRun).root.registry = deskContent "Desk" "/new" := by
    rw [deskRun, Beginning.after_calls, desk_tested, activateDesk, activate_state, desk_activates.final]
    rfl
  obtain ⟨hreads, hsize⟩ := desk_reads ("Desk", "/new") (by simp)
  rw [readLive, hroot]
  exact readContent_eq_ok.mpr ⟨hsize, hreads⟩

/-- The label of the profile is edited while its activation is pending. -/
def editDesk : Event posixHost := ⟨.saveMetadata (deskRegistry "Home" "/new").json (deskDigest "Desk" "/new"), none⟩

theorem saved_root (hcandidate : metadataCandidate H service.root registry expected = .ok candidate)
    (hcontent : canonicalRegistry H candidate = .ok content) :
    (afterRun service [⟨Call.saveMetadata (H := H) registry expected, none⟩]).root =
      service.root.withRegistry content :=
  (saveMetadata_goes hcandidate hcontent).final

theorem receipts_withRegistry (root : StateRoot) (content : Content) :
    (root.withRegistry content).receipts = root.receipts := rfl

theorem desk_edited : (deskBeginning.after (deskRun ++ [editDesk])).root =
    (deskBeginning.after deskRun).root.withRegistry (deskContent "Home" "/new") := by
  have hmetadata : requireMetadataOnlyChange posixHost (deskRegistry "Desk" "/new") (deskRegistry "Home" "/new") =
      .ok () := by
    decide
  obtain ⟨hreads, -⟩ := desk_reads ("Home", "/new") (by simp)
  have hcandidate : metadataCandidate posixHost (deskBeginning.after deskRun).root (deskRegistry "Home" "/new").json
      (deskDigest "Desk" "/new") = .ok (deskRegistry "Home" "/new") := by
    simp only [metadataCandidate, bind_eq_ok, requireDigest_eq_ok, pure_eq_ok]
    exact ⟨_, hreads, _, desk_read, (), desk_registryDigest (by simp), (), hmetadata, rfl⟩
  rw [Beginning.after, afterRun_append, editDesk]
  exact saved_root hcandidate (desk_canonical (by simp))

/-- An edit of the label leaves a registry that the pending activation does not know, and no call closes it. -/
theorem edited_desk_cannot_close :
    (deskBeginning.after (deskRun ++ [editDesk])).root.receipts.get deskActivationId.val = some deskPending ∧
      deskPending.isUnconfirmed ∧
      ¬CanClose posixHost (deskBeginning.after (deskRun ++ [editDesk])) deskActivationId.val := by
  have hget : (deskBeginning.after (deskRun ++ [editDesk])).root.receipts.get deskActivationId.val =
      some deskPending := by
    rw [desk_edited, receipts_withRegistry]
    exact desk_get
  have hlive : liveDigest posixHost (deskBeginning.after (deskRun ++ [editDesk])).root =
      .ok (deskDigest "Home" "/new") := by
    obtain ⟨hreads, -⟩ := desk_reads ("Home", "/new") (by simp)
    rw [desk_edited, deskDigest]
    exact (liveDigest_withRegistry _ (readRegistry_isNormal hreads) (desk_canonical (by simp))).2
  have hopen := desk_accepts.unconfirmed
  refine ⟨hget, hopen, ?_⟩
  rw [canClose_iff (deskBeginning.after_sound _) hget hopen, HasWayOut, hlive, deskPending_activated,
    deskPending_previous]
  have hdiffer := desk_digests_differ
  simp only [List.nodup_cons, List.mem_cons, List.not_mem_nil, or_false, not_or] at hdiffer
  obtain ⟨⟨-, hold⟩, hnew, -⟩ := hdiffer
  rintro (hactivated | ⟨hprevious, -⟩)
  · exact hnew (Except.ok.inj hactivated).symm
  · exact hold (Except.ok.inj hprevious).symm

end WorkStack.Connection
