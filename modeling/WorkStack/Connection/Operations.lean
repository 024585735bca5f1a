import WorkStack.Connection.Mutations

/-!
# What an operation does to the files

Every operation refuses before its first step, or takes the steps that are named here. The checks that it
makes once more behind its first step find what it has written itself.
-/

open WorkStack.Python WorkStack.Python.Decoding WorkStack.Effect WorkStack.Effect.Refusing

namespace WorkStack.Connection

variable {H : Host}

/-! ## Canonical contents -/

variable {registry : ConnectionRegistry} {digest : Store.Digest}

theorem registryDigest_eq_ok :
    registryDigest H registry = .ok digest ↔
      ∃ content, canonicalRegistry H registry = .ok content ∧ H.sha256 (payload content.value) = digest := by
  simp only [registryDigest, bind_eq_ok, pure_eq_ok]

variable {content : Content}

/-- The canonical content of a registry in normal form is read back as that registry. -/
theorem readContent_canonical (hnormal : registry.IsNormal H) (h : canonicalRegistry H registry = .ok content)
    (description : String) :
    readContent H description content = .ok registry := by
  simp only [canonicalRegistry, registryToDocument, bind_eq_ok, check_eq_ok, pure_eq_ok] at h
  obtain ⟨-, ⟨registry', hread, rfl⟩, -, hsize, rfl⟩ := h
  cases readRegistry_json hnormal hread
  simp only [readContent, bind_eq_ok, check_eq_ok]
  exact ⟨(), hsize, by rw [hread]⟩

theorem readContent_eq_ok {description : String} :
    readContent H description content = .ok registry ↔
      content.size ≤ maxRegistryBytes ∧ readRegistry H content.value = .ok registry := by
  simp only [readContent, bind_eq_ok, check_eq_ok, decide_eq_true_eq]
  cases readRegistry H content.value <;> simp

theorem readContent_isNormal {description : String} (h : readContent H description content = .ok registry) :
    registry.IsNormal H :=
  readRegistry_isNormal (readContent_eq_ok.mp h).2

variable {root : StateRoot}

theorem liveDigest_eq_ok :
    liveDigest H root = .ok digest ↔
      ∃ current, readLive H root = .ok current ∧ registryDigest H current = .ok digest := by
  rw [liveDigest, bind_eq_ok]

variable {expected : Store.Digest}

theorem requireDigest_eq_ok {result : Unit} :
    requireDigest H registry expected = .ok result ↔ registryDigest H registry = .ok expected := by
  simp [requireDigest, bind_eq_ok, check_eq_ok]

/-! ## The steps -/

/-- A service whose files were changed. -/
def Service.changed (change : StateRoot → StateRoot) (service : Service) : Service :=
  { service with root := change service.root }

@[simp] theorem Service.root_changed (change : StateRoot → StateRoot) (service : Service) :
    (service.changed change).root = change service.root := rfl

theorem replaceRegistry_apply (service : Service) (hlive : liveDigest H service.root = .ok expected)
    (hcontent : canonicalRegistry H registry = .ok content) :
    replaceRegistryIfDigest H registry expected service =
      ⟨[service.changed (.withRegistry content)], service.changed (.withRegistry content), .ok ()⟩ := by
  obtain ⟨current, hcurrent, hdigest⟩ := liveDigest_eq_ok.mp hlive
  rw [replaceRegistryIfDigest, look_ok (a := content)]
  · rfl
  · simp only [bind_eq_ok]
    exact ⟨current, hcurrent, (), requireDigest_eq_ok.mpr hdigest, hcontent⟩

variable {service : Service}

theorem replaceRegistry_refused {refusal : Refusal} (hlive : liveDigest H service.root = .ok expected)
    (hcontent : canonicalRegistry H registry = .error refusal) :
    replaceRegistryIfDigest H registry expected service = ⟨[], service, .error refusal⟩ := by
  obtain ⟨current, hcurrent, hdigest⟩ := liveDigest_eq_ok.mp hlive
  have hrequire : requireDigest H current expected = .ok () := requireDigest_eq_ok.mpr hdigest
  rw [replaceRegistryIfDigest, look_error (e := refusal)]
  rw [hcurrent]
  change (requireDigest H current expected >>= fun _ ↦ canonicalRegistry H registry) = _
  rw [hrequire]
  exact hcontent

theorem replaceReceipt_apply (service : Service) {receipt expected : ActivationReceipt}
    (h : service.root.receipts.get receipt.activationId = some expected) :
    replaceReceiptIfDigest receipt expected service =
      ⟨[service.changed (.withReceipt receipt)], service.changed (.withReceipt receipt), .ok ()⟩ := by
  rw [replaceReceiptIfDigest, look_ok (a := ())]
  · rfl
  · simp only [readReceipt, h, bind_eq_ok, check_eq_ok]
    exact ⟨expected, rfl, by simp⟩

/-- What a command that refuses at once leaves: everything as it was, but for proofs that ran out. -/
structure Refuses {α : Type} (root : StateRoot) (ran : Ran Service Refusal α) : Prop where
  steps : ran.steps.map Service.root = []
  final : ran.state.root = root
  result : ∃ refusal, ran.result = .error refusal

/-- What a command that succeeds has gone through. -/
structure Goes {α : Type} (root : StateRoot) (roots : List StateRoot) (value : α) (ran : Ran Service Refusal α) :
    Prop where
  steps : ran.steps.map Service.root = roots
  final : ran.state.root = (root :: roots).getLast (List.cons_ne_nil _ _)
  result : ran.result = .ok value

/-! ## Metadata and proofs -/

theorem issueProof_apply {profile : ConnectionProfile} {result : ProfileTestResult} {base digest : Store.Digest}
    {now : ℤ} (h : testedDigest H service.root profile result base now = .ok digest) (proofId : String) (ttl : ℤ) :
    let proof : ProfileTestProof := ⟨proofId, profile.profileId, digest, base, now + ttl⟩
    issueSuccessfulTestProof H profile result base proofId now ttl service =
      ⟨[], { service with proofs := addProof proof (pruneProofs now service.proofs) }, .ok proof⟩ := by
  unfold issueSuccessfulTestProof
  rw [look_ok (f := fun root ↦ testedDigest H root profile result base now) h]
  rfl

theorem issueProof_roots (profile : ConnectionProfile) (result : ProfileTestResult) (base : Store.Digest)
    (proofId : String) (now ttl : ℤ) (service : Service) :
    (issueSuccessfulTestProof H profile result base proofId now ttl service).steps = [] ∧
      (issueSuccessfulTestProof H profile result base proofId now ttl service).state.root = service.root := by
  cases hdigest : testedDigest H service.root profile result base now with
  | error refusal =>
      unfold issueSuccessfulTestProof
      rw [look_error (f := fun root ↦ testedDigest H root profile result base now) hdigest]
      exact ⟨rfl, rfl⟩
  | ok digest =>
      rw [issueProof_apply hdigest]
      exact ⟨rfl, rfl⟩

variable {candidate : ConnectionRegistry}

theorem metadataCandidate_eq_ok {registry : Json} (h : metadataCandidate H root registry expected = .ok candidate) :
    readRegistry H registry = .ok candidate ∧ liveDigest H root = .ok expected := by
  simp only [metadataCandidate, bind_eq_ok, requireDigest_eq_ok, pure_eq_ok] at h
  obtain ⟨candidate, hread, current, hcurrent, -, hdigest, -, -, rfl⟩ := h
  exact ⟨hread, liveDigest_eq_ok.mpr ⟨current, hcurrent, hdigest⟩⟩

/-- An accepted edit of metadata replaces the registry. -/
theorem saveMetadata_goes {registry : Json}
    (hcandidate : metadataCandidate H service.root registry expected = .ok candidate)
    (hcontent : canonicalRegistry H candidate = .ok content) :
    Goes service.root [service.root.withRegistry content] (candidate, H.sha256 (payload content.value))
      (saveMetadata H registry expected service) := by
  have hreplace := replaceRegistry_apply service (metadataCandidate_eq_ok hcandidate).2 hcontent
  have hdigest : registryDigest H candidate = .ok (H.sha256 (payload content.value)) :=
    registryDigest_eq_ok.mpr ⟨content, hcontent, rfl⟩
  rw [saveMetadata, look_ok (f := fun root ↦ metadataCandidate H root registry expected) hcandidate,
    Stepwise.bind_of_step hreplace, look_ok (f := fun _ ↦ registryDigest H candidate) hdigest]
  exact ⟨rfl, rfl, rfl⟩

theorem saveMetadata_cases (registry : Json) (expected : Store.Digest) (service : Service) :
    Refuses service.root (saveMetadata H registry expected service) ∨
      ∃ candidate content, metadataCandidate H service.root registry expected = .ok candidate ∧
        canonicalRegistry H candidate = .ok content ∧
        Goes service.root [service.root.withRegistry content] (candidate, H.sha256 (payload content.value))
          (saveMetadata H registry expected service) := by
  cases hcandidate : metadataCandidate H service.root registry expected with
  | error refusal =>
      rw [saveMetadata, look_error (f := fun root ↦ metadataCandidate H root registry expected) hcandidate]
      exact .inl ⟨rfl, rfl, _, rfl⟩
  | ok candidate =>
      cases hcontent : canonicalRegistry H candidate with
      | error refusal =>
          left
          have hreplace := replaceRegistry_refused (metadataCandidate_eq_ok hcandidate).2 hcontent
          rw [saveMetadata, look_ok (f := fun root ↦ metadataCandidate H root registry expected) hcandidate,
            Stepwise.bind_of_refused hreplace]
          exact ⟨rfl, rfl, _, rfl⟩
      | ok content => exact .inr ⟨candidate, content, rfl, hcontent, saveMetadata_goes hcandidate hcontent⟩

/-! ## Opening new evidence -/

theorem writeNewRollback_cases (name : String) (content : Content) (service : Service) :
    service.root.rollbacks.get name ≠ none ∧
        (∃ refusal, writeNewRollback name content service = ⟨[], service, .error refusal⟩) ∨
      service.root.rollbacks.get name = none ∧
        writeNewRollback name content service =
          ⟨[service.changed (.withRollback name content)], service.changed (.withRollback name content), .ok ()⟩ := by
  cases hget : service.root.rollbacks.get name with
  | some other =>
      left
      refine ⟨Option.some_ne_none other, _, look_error (e := .conflict "activation rollback already exists") ?_⟩
      simp [Mapping.has, hget, check]
  | none =>
      right
      refine ⟨rfl, look_ok (a := ()) ?_⟩
      simp [Mapping.has, hget, check]

theorem writeNewReceipt_cases (receipt : ActivationReceipt) (service : Service) :
    service.root.receipts.get receipt.activationId ≠ none ∧
        (∃ refusal, writeNewReceipt receipt service = ⟨[], service, .error refusal⟩) ∨
      service.root.receipts.get receipt.activationId = none ∧
        writeNewReceipt receipt service =
          ⟨[service.changed (.withReceipt receipt)], service.changed (.withReceipt receipt), .ok ()⟩ := by
  cases hget : service.root.receipts.get receipt.activationId with
  | some other =>
      left
      refine ⟨Option.some_ne_none other, _, look_error (e := .conflict "activation receipt already exists") ?_⟩
      simp [Mapping.has, hget, check]
  | none =>
      right
      refine ⟨rfl, look_ok (a := ()) ?_⟩
      simp [Mapping.has, hget, check]

variable {receipt : ActivationReceipt}

theorem moveReceipt_apply (service : Service) (state : ActivationState)
    (h : service.root.receipts.get receipt.activationId = some receipt) :
    moveReceipt receipt state service =
      ⟨[service.changed (.withReceipt (receipt.moved state))],
        service.changed (.withReceipt (receipt.moved state)), .ok (receipt.moved state)⟩ :=
  Stepwise.bind_of_step (replaceReceipt_apply service h)

variable {prepared : ActivationReceipt}

theorem selectCandidate_apply (service : Service) (hlive : liveDigest H service.root = .ok expected)
    (hcontent : canonicalRegistry H candidate = .ok content)
    (h : service.root.receipts.get prepared.activationId = some prepared) :
    let selected := service.changed (.withRegistry content)
    let pending := selected.changed (.withReceipt (prepared.moved .pending))
    selectCandidate H prepared candidate expected service =
      ⟨[selected, pending], pending, .ok (prepared.moved .pending)⟩ := by
  intro selected pending
  have hpending : moveReceipt prepared .pending selected = ⟨[pending], pending, .ok (prepared.moved .pending)⟩ :=
    moveReceipt_apply selected .pending h
  have hran := Stepwise.bind_of_step (f := fun _ ↦ moveReceipt prepared .pending)
    (replaceRegistry_apply service hlive hcontent)
  exact hran.trans (by rw [hpending])

/-- The files behind each step that opens new evidence. -/
def openingRoots (root : StateRoot) (prepared : ActivationReceipt) (content : Content) : List StateRoot :=
  let kept := root.withRollback prepared.rollbackFile root.registry
  let opened := kept.withReceipt prepared
  let selected := opened.withRegistry content
  [kept, opened, selected, selected.withReceipt (prepared.moved .pending)]

theorem openActivation_cases (prepared : ActivationReceipt) (hlive : liveDigest H service.root = .ok expected)
    (hcontent : canonicalRegistry H candidate = .ok content) :
    let ran := openActivation H prepared candidate service.root.registry expected service
    service.root.rollbacks.get prepared.rollbackFile ≠ none ∧ Refuses service.root ran ∨
      service.root.rollbacks.get prepared.rollbackFile = none ∧
        (service.root.receipts.get prepared.activationId ≠ none ∧
            (ran.steps.map Service.root = (openingRoots service.root prepared content).take 1 ∧
            ran.state.root = service.root.withRollback prepared.rollbackFile service.root.registry ∧
            ∃ refusal, ran.result = .error refusal) ∨
          service.root.receipts.get prepared.activationId = none ∧
            Goes service.root (openingRoots service.root prepared content) (prepared.moved .pending) ran) := by
  intro ran
  rcases writeNewRollback_cases prepared.rollbackFile service.root.registry service with
    ⟨hkept, refusal, hkeep⟩ | ⟨hnone, hkeep⟩
  · left
    refine ⟨hkept, ?_⟩
    have hran : ran = ⟨[], service, .error refusal⟩ := Stepwise.bind_of_refused hkeep
    rw [hran]
    exact ⟨rfl, rfl, _, rfl⟩
  · right
    refine ⟨hnone, ?_⟩
    have hfirst := Stepwise.bind_of_step (f := fun _ ↦ do
      writeNewReceipt prepared
      selectCandidate H prepared candidate expected) hkeep
    rcases writeNewReceipt_cases prepared
        (service.changed (.withRollback prepared.rollbackFile service.root.registry)) with
      ⟨htaken, refusal, hopen⟩ | ⟨hfree, hopen⟩
    · left
      refine ⟨htaken, ?_⟩
      have hran := hfirst.trans (by rw [Stepwise.bind_of_refused hopen])
      change ran = _ at hran
      rw [hran]
      exact ⟨rfl, rfl, _, rfl⟩
    · right
      refine ⟨hfree, ?_⟩
      have hselect := selectCandidate_apply
        ((service.changed (.withRollback prepared.rollbackFile service.root.registry)).changed (.withReceipt prepared))
        hlive hcontent (Mapping.get_set_self ..)
      have hran := hfirst.trans (by rw [Stepwise.bind_of_step hopen, hselect])
      change ran = _ at hran
      rw [hran]
      exact ⟨rfl, rfl, rfl⟩

/-! ## Continuing an attempt -/

theorem readRollback_eq_ok {rollback : ConnectionRegistry} :
    readRollback H root receipt = .ok rollback ↔
      ∃ content, root.rollbacks.get receipt.rollbackFile = some content ∧
        readContent H "activation rollback" content = .ok rollback ∧
        registryDigest H rollback = .ok receipt.previousRegistryDigest := by
  unfold readRollback
  cases root.rollbacks.get receipt.rollbackFile with
  | none => simp
  | some content =>
      simp only [bind_eq_ok, check_eq_ok, pure_eq_ok, decide_eq_true_eq, Option.some.injEq, exists_eq_left']
      constructor
      · rintro ⟨rollback', hread, digest, hdigest, _, rfl, rfl⟩
        exact ⟨hread, hdigest⟩
      · rintro ⟨hread, hdigest⟩
        exact ⟨rollback, hread, _, hdigest, (), rfl, rfl⟩

variable {activationId : String}

theorem readReceipt_eq_ok :
    readReceipt root activationId = .ok receipt ↔ root.receipts.get activationId = some receipt := by
  unfold readReceipt
  cases root.receipts.get activationId <;> simp

theorem continuedReceipt_eq_ok {receipt persisted : ActivationReceipt}
    (h : continuedReceipt H root receipt = .ok persisted) :
    persisted = receipt ∧ root.receipts.get receipt.activationId = some receipt := by
  simp only [continuedReceipt, bind_eq_ok, check_eq_ok, pure_eq_ok, decide_eq_true_eq, readReceipt_eq_ok] at h
  obtain ⟨persisted', hread, _, hsame, -, -, rfl⟩ := h
  cases hsame
  exact ⟨rfl, hread⟩

theorem settlePending_apply (service : Service) (hopen : receipt.isUnconfirmed)
    (h : service.root.receipts.get receipt.activationId = some receipt) :
    settlePending receipt service =
      if receipt.state = .prepared then
        ⟨[service.changed (.withReceipt (receipt.moved .pending))],
          service.changed (.withReceipt (receipt.moved .pending)), .ok (receipt.moved .pending)⟩
      else ⟨[], service, .ok (receipt.moved .pending)⟩ := by
  unfold settlePending
  by_cases hstate : receipt.state = .prepared
  · rw [if_neg (not_not.mpr hstate), if_pos hstate]
    exact moveReceipt_apply service .pending h
  · rw [if_pos hstate, if_neg hstate]
    have hpending : receipt.moved .pending = receipt := by
      obtain ⟨id, state, previous, activated, profile, digest, proof, file⟩ := receipt
      cases state <;> simp_all [ActivationReceipt.moved, ActivationState.isUnconfirmed]
    rw [hpending]
    rfl

/-- The files behind each step that continues an attempt. -/
def resumingRoots (root : StateRoot) (receipt : ActivationReceipt) (content : Content) (expected : Store.Digest) :
    List StateRoot :=
  let selected := if expected ≠ receipt.activatedRegistryDigest then root.withRegistry content else root
  (if expected ≠ receipt.activatedRegistryDigest then [selected] else []) ++
    (if receipt.state = .prepared then [selected.withReceipt (receipt.moved .pending)] else [])

theorem continueActivation_cases (hopen : receipt.isUnconfirmed) (hlive : liveDigest H service.root = .ok expected)
    (hcontent : canonicalRegistry H candidate = .ok content) :
    let ran := continueActivation H receipt candidate expected service
    Refuses service.root ran ∨
      service.root.receipts.get receipt.activationId = some receipt ∧
        Goes service.root (resumingRoots service.root receipt content expected) (receipt.moved .pending) ran := by
  intro ran
  cases hpersisted : continuedReceipt H service.root receipt with
  | error refusal =>
      left
      have hran : ran = ⟨[], service, .error refusal⟩ :=
        look_error (f := fun root ↦ continuedReceipt H root receipt) hpersisted
      rw [hran]
      exact ⟨rfl, rfl, _, rfl⟩
  | ok persisted =>
      right
      obtain ⟨rfl, hget⟩ := continuedReceipt_eq_ok hpersisted
      refine ⟨hget, ?_⟩
      have hran := look_ok (f := fun root ↦ continuedReceipt H root persisted) (g := fun persisted ↦ do
        if expected ≠ persisted.activatedRegistryDigest then replaceRegistryIfDigest H candidate expected
        settlePending persisted) hpersisted
      change ran = _ at hran
      by_cases hdigest : expected = persisted.activatedRegistryDigest
      · rw [if_neg (not_not.mpr hdigest)] at hran
        have htail := hran.trans (settlePending_apply service hopen hget)
        rw [htail]
        by_cases hstate : persisted.state = .prepared
        · constructor <;> simp [hstate, hdigest, resumingRoots]
        · constructor <;> simp [hstate, hdigest, resumingRoots]
      · rw [if_pos hdigest] at hran
        have hselect := Stepwise.bind_of_step (f := fun _ ↦ settlePending persisted)
          (replaceRegistry_apply service hlive hcontent)
        have hsettle := settlePending_apply (service.changed (.withRegistry content)) hopen hget
        rw [hsettle] at hselect
        have htail := hran.trans hselect
        rw [htail]
        by_cases hstate : persisted.state = .prepared
        · constructor <;> simp [hstate, hdigest, resumingRoots]
        · constructor <;> simp [hstate, hdigest, resumingRoots]

/-! ## Activation -/

variable {receipts : List ActivationReceipt}

theorem classify_create {attempt : Attempt} (h : classifyActivationAttempt receipts attempt = .create) :
    ∀ receipt ∈ receipts, receipt.isUnconfirmed = false := by
  unfold classifyActivationAttempt at h
  simp only at h
  split at h
  · next hempty =>
      intro receipt hmem
      rw [List.isEmpty_iff, List.filter_eq_nil_iff] at hempty
      simpa using hempty receipt hmem
  · split at h
    · cases h
    · split at h
      · split at h <;> cases h
      · split at h <;> cases h

theorem classify_resume {attempt : Attempt} (h : classifyActivationAttempt receipts attempt = .resume receipt) :
    receipt ∈ receipts ∧ receipt.isUnconfirmed = true ∧ continuesAttempt attempt receipt = true := by
  unfold classifyActivationAttempt at h
  simp only at h
  split at h
  · cases h
  · split at h
    · cases h
    · split at h
      · split at h <;> cases h
      · split at h
        · next first rest hretries =>
            cases h
            have hmem : receipt ∈ (receipts.filter ActivationReceipt.isUnconfirmed).filter (continuesAttempt attempt) := by
              rw [hretries]
              exact List.mem_cons_self ..
            rw [List.mem_filter, List.mem_filter] at hmem
            exact ⟨hmem.1.1, hmem.1.2, hmem.2⟩
        · cases h

theorem activationReceipts_eq_ok (h : activationReceipts root = .ok receipts) :
    root.entries ≤ maxActivationRecords ∧
      ∀ receipt, receipt ∈ receipts ↔ ∃ activationId, root.receipts.get activationId = some receipt := by
  unfold activationReceipts at h
  rw [ite_eq_ok, Except.ok.injEq] at h
  obtain ⟨hentries, rfl⟩ := h
  refine ⟨not_lt.mp hentries, ?_⟩
  intro receipt
  rw [List.mem_insertionSort, List.mem_map]
  constructor
  · rintro ⟨⟨activationId, receipt'⟩, hmem, rfl⟩
    exact ⟨activationId, (Dict.get_eq_some_iff_mem root.receipts.nodup).mpr hmem⟩
  · rintro ⟨activationId, hget⟩
    exact ⟨(activationId, receipt), (Dict.get_eq_some_iff_mem root.receipts.nodup).mp hget, rfl⟩

/-- What an attempt has prepared before it looks at the files. -/
structure Prepares (H : Host) (registry : Json) (expected : Store.Digest) (activationId : String)
    (prepared : ActivationReceipt) (candidate : ConnectionRegistry) (content : Content) : Prop where
  reads : readRegistry H registry = .ok candidate
  canonical : canonicalRegistry H candidate = .ok content
  drawn : prepared.activationId = activationId
  state : prepared.state = .prepared
  previous : prepared.previousRegistryDigest = expected
  activated : prepared.activatedRegistryDigest = H.sha256 (payload content.value)
  named : prepared.rollbackFile = rollbackName activationId

/-- What an attempt that has come to its decision has found. -/
structure Attempts (H : Host) (root : StateRoot) (registry : Json) (expected : Store.Digest) (activationId : String)
    (prepared : ActivationReceipt) (candidate : ConnectionRegistry) (content : Content)
    (receipts : List ActivationReceipt) : Prop where
  prepares : Prepares H registry expected activationId prepared candidate content
  live : liveDigest H root = .ok expected
  listed : activationReceipts root = .ok receipts

/-- What `activate` comes to. -/
inductive Activates (H : Host) (root : StateRoot) (registry : Json) (expected : Store.Digest) (activationId : String)
    (ran : Ran Service Refusal ActivationReceipt) : Prop where
  | refused (h : Refuses root ran)
  /-- The rollback was kept, but there is another receipt under this id. -/
  | strayed {prepared : ActivationReceipt} {candidate : ConnectionRegistry} {content : Content}
      {receipts : List ActivationReceipt}
      (found : Attempts H root registry expected activationId prepared candidate content receipts)
      (closed : ∀ receipt ∈ receipts, receipt.isUnconfirmed = false)
      (free : root.rollbacks.get prepared.rollbackFile = none)
      (steps : ran.steps.map Service.root = (openingRoots root prepared content).take 1)
      (final : ran.state.root = root.withRollback prepared.rollbackFile root.registry)
      (result : ∃ refusal, ran.result = .error refusal)
  | opened {prepared : ActivationReceipt} {candidate : ConnectionRegistry} {content : Content}
      {receipts : List ActivationReceipt}
      (found : Attempts H root registry expected activationId prepared candidate content receipts)
      (closed : ∀ receipt ∈ receipts, receipt.isUnconfirmed = false)
      (free : root.rollbacks.get prepared.rollbackFile = none)
      (fresh : root.receipts.get activationId = none)
      (goes : Goes root (openingRoots root prepared content) (prepared.moved .pending) ran)
  | resumed {prepared : ActivationReceipt} {candidate : ConnectionRegistry} {content : Content}
      {receipts : List ActivationReceipt} {receipt : ActivationReceipt}
      (found : Attempts H root registry expected activationId prepared candidate content receipts)
      (unconfirmed : receipt.isUnconfirmed = true) (continues : continuesAttempt (attemptOf prepared) receipt = true)
      (get : root.receipts.get receipt.activationId = some receipt)
      (goes : Goes root (resumingRoots root receipt content expected) (receipt.moved .pending) ran)

theorem attemptDecision_eq_ok {decision : ActivationAttemptDecision × Content}
    (h : attemptDecision H root prepared expected = .ok decision) :
    liveDigest H root = .ok expected ∧ ∃ receipts, activationReceipts root = .ok receipts ∧
      decision = (classifyActivationAttempt receipts (attemptOf prepared), root.registry) := by
  simp only [attemptDecision, bind_eq_ok, requireDigest_eq_ok, pure_eq_ok] at h
  obtain ⟨current, hcurrent, -, hdigest, receipts, hreceipts, rfl⟩ := h
  exact ⟨liveDigest_eq_ok.mpr ⟨current, hcurrent, hdigest⟩, receipts, hreceipts, rfl⟩

theorem provenReceipt_eq_ok {registry : Json} {proofs : List ProfileTestProof} {target : ConnectionProfile}
    {profileId proofId activationId : String} {now : ℤ} (hreads : readRegistry H registry = .ok candidate)
    (h : provenReceipt H proofs candidate target profileId proofId expected activationId now = .ok prepared) :
    ∃ content, Prepares H registry expected activationId prepared candidate content := by
  simp only [provenReceipt, preparedReceipt, bind_eq_ok, registryDigest_eq_ok, pure_eq_ok] at h
  obtain ⟨-, -, activated, ⟨content, hcontent, rfl⟩, digest, -, rfl⟩ := h
  exact ⟨content, hreads, hcontent, rfl, rfl, rfl, rfl, rfl⟩

theorem activationTarget_eq_ok {registry : Json} {profileId proofId : String}
    {target : ConnectionRegistry × ConnectionProfile} (h : activationTarget H registry profileId proofId = .ok target) :
    readRegistry H registry = .ok target.1 := by
  simp only [activationTarget, bind_eq_ok] at h
  obtain ⟨candidate, hcandidate, -, -, -, -, -, -, h⟩ := h
  split at h
  · simp only [bind_eq_ok, pure_eq_ok] at h
    obtain ⟨-, -, rfl⟩ := h
    exact hcandidate
  · cases h

theorem activateLocked_cases (service : Service) {registry : Json}
    (h : Prepares H registry expected activationId prepared candidate content) :
    Activates H service.root registry expected activationId (activateLocked H prepared candidate expected service) := by
  unfold activateLocked
  cases hdecision : attemptDecision H service.root prepared expected with
  | error refusal =>
      rw [look_error (f := fun root ↦ attemptDecision H root prepared expected) hdecision]
      exact .refused ⟨rfl, rfl, _, rfl⟩
  | ok decision =>
      rw [look_ok (f := fun root ↦ attemptDecision H root prepared expected) hdecision]
      obtain ⟨hlive, receipts, hreceipts, rfl⟩ := attemptDecision_eq_ok hdecision
      have found : Attempts H service.root registry expected activationId prepared candidate content receipts :=
        ⟨h, hlive, hreceipts⟩
      cases hclassify : classifyActivationAttempt receipts (attemptOf prepared) with
      | refuse code => exact .refused ⟨rfl, rfl, _, rfl⟩
      | resume receipt =>
          obtain ⟨-, hopen, hcontinues⟩ := classify_resume hclassify
          rcases continueActivation_cases hopen hlive h.canonical with hrefuses | ⟨hget, hgoes⟩
          · exact .refused hrefuses
          · exact .resumed found hopen hcontinues hget hgoes
      | create =>
          have hclosed := classify_create hclassify
          rcases openActivation_cases prepared hlive h.canonical with
            ⟨-, hrefuses⟩ | ⟨hfree, ⟨-, hsteps, hfinal, hresult⟩ | ⟨hfresh, hgoes⟩⟩
          · exact .refused hrefuses
          · exact .strayed found hclosed hfree hsteps hfinal hresult
          · rw [h.drawn] at hfresh
            exact .opened found hclosed hfree hfresh hgoes

/-- What is left to do behind the critical section does not touch the files. -/
theorem Activates.congr {registry : Json} {ran ran' : Ran Service Refusal ActivationReceipt}
    (h : Activates H root registry expected activationId ran)
    (hsteps : ran'.steps.map Service.root = ran.steps.map Service.root) (hfinal : ran'.state.root = ran.state.root)
    (hresult : ran'.result = ran.result) : Activates H root registry expected activationId ran' := by
  cases h with
  | refused h => exact .refused ⟨hsteps.trans h.steps, hfinal.trans h.final, by rw [hresult]; exact h.result⟩
  | strayed found closed free steps final result =>
      exact .strayed found closed free (hsteps.trans steps) (hfinal.trans final) (by rw [hresult]; exact result)
  | opened found closed free fresh goes =>
      exact .opened found closed free fresh
        ⟨hsteps.trans goes.steps, hfinal.trans goes.final, hresult.trans goes.result⟩
  | resumed found unconfirmed continues get goes =>
      exact .resumed found unconfirmed continues get
        ⟨hsteps.trans goes.steps, hfinal.trans goes.final, hresult.trans goes.result⟩

theorem activate_cases (registry : Json) (profileId proofId : String) (expected : Store.Digest)
    (activationId : DrawnId H) (now : ℤ) (service : Service) :
    Activates H service.root registry expected activationId.val
      (activate H registry profileId proofId expected activationId now service) := by
  unfold activate
  cases htarget : activationTarget H registry profileId proofId with
  | error refusal =>
      rw [look_error (f := fun _ ↦ .error refusal) rfl]
      exact .refused ⟨rfl, rfl, _, rfl⟩
  | ok target =>
      rw [look_ok (f := fun _ ↦ .ok target) rfl]
      have hreads := activationTarget_eq_ok htarget
      obtain ⟨candidate, profile⟩ := target
      simp only [rememberProofs, Stepwise.remember_bind]
      cases hproven : provenReceipt H (pruneProofs now service.proofs) candidate profile profileId proofId expected
          activationId.val now with
      | error refusal =>
          rw [Stepwise.read_bind_error (f := fun service : Service ↦ provenReceipt H service.proofs candidate profile
            profileId proofId expected activationId.val now) hproven]
          exact .refused ⟨rfl, rfl, _, rfl⟩
      | ok prepared =>
          rw [Stepwise.read_bind_ok (f := fun service : Service ↦ provenReceipt H service.proofs candidate profile
            profileId proofId expected activationId.val now) hproven]
          obtain ⟨content, hprepares⟩ := provenReceipt_eq_ok hreads hproven
          have hlocked := activateLocked_cases { service with proofs := pruneProofs now service.proofs } hprepares
          cases hresult : (activateLocked H prepared candidate expected
              { service with proofs := pruneProofs now service.proofs }).result with
          | error refusal =>
              rw [Stepwise.bind_of_error hresult]
              exact hlocked.congr rfl rfl hresult.symm
          | ok pending =>
              rw [Stepwise.bind_of_ok hresult]
              refine hlocked.congr ?_ rfl hresult.symm
              simp [Stepwise.remember_bind]

theorem classify_closed (h : ∀ receipt ∈ receipts, receipt.isUnconfirmed = false) (attempt : Attempt) :
    classifyActivationAttempt receipts attempt = .create := by
  have hnone : receipts.filter ActivationReceipt.isUnconfirmed = [] := by
    rw [List.filter_eq_nil_iff]
    intro receipt hmem
    rw [h receipt hmem]
    exact Bool.false_ne_true
  simp [classifyActivationAttempt, hnone]

/-- A tested candidate is activated where no other activation is unconfirmed and its id is new. -/
theorem activate_opens {registry : Json} {profileId proofId : String} {activationId : DrawnId H} {now : ℤ}
    {target : ConnectionProfile} (htarget : activationTarget H registry profileId proofId = .ok (candidate, target))
    (hproven : provenReceipt H (pruneProofs now service.proofs) candidate target profileId proofId expected
      activationId.val now = .ok prepared)
    (hlive : liveDigest H service.root = .ok expected) (hcanonical : canonicalRegistry H candidate = .ok content)
    (hlisted : activationReceipts service.root = .ok receipts)
    (hclosed : ∀ receipt ∈ receipts, receipt.isUnconfirmed = false)
    (hfree : service.root.rollbacks.get prepared.rollbackFile = none)
    (hfresh : service.root.receipts.get prepared.activationId = none) :
    Goes service.root (openingRoots service.root prepared content) (prepared.moved .pending)
      (activate H registry profileId proofId expected activationId now service) := by
  let pruned : Service := { service with proofs := pruneProofs now service.proofs }
  have hdecision : attemptDecision H pruned.root prepared expected = .ok (.create, pruned.root.registry) := by
    obtain ⟨current, hcurrent, hdigest⟩ := liveDigest_eq_ok.mp hlive
    simp only [attemptDecision, bind_eq_ok, pure_eq_ok]
    exact ⟨current, hcurrent, (), requireDigest_eq_ok.mpr hdigest, receipts, hlisted, by rw [classify_closed hclosed]⟩
  have hlocked : Goes service.root (openingRoots service.root prepared content) (prepared.moved .pending)
      (activateLocked H prepared candidate expected pruned) := by
    rw [activateLocked, look_ok (f := fun root ↦ attemptDecision H root prepared expected) hdecision]
    have hlivePruned : liveDigest H pruned.root = .ok expected := hlive
    rcases openActivation_cases prepared hlivePruned hcanonical with
      ⟨hkept, -⟩ | ⟨-, ⟨htaken, -⟩ | ⟨-, hgoes⟩⟩
    · exact absurd hfree hkept
    · exact absurd hfresh htaken
    · exact hgoes
  rw [activate, look_ok (f := fun _ ↦ activationTarget H registry profileId proofId) htarget]
  simp only [rememberProofs, Stepwise.remember_bind]
  rw [Stepwise.read_bind_ok (f := fun service : Service ↦ provenReceipt H service.proofs candidate target
    profileId proofId expected activationId.val now) hproven, Stepwise.bind_of_ok hlocked.result]
  constructor
  · simp [Stepwise.remember_bind, hlocked.steps]
  · exact hlocked.final
  · rfl

/-! ## Closing an activation -/

/-- Receipts are kept under their own id. -/
def Keyed (root : StateRoot) : Prop :=
  ∀ activationId receipt, root.receipts.get activationId = some receipt → receipt.activationId = activationId

theorem unconfirmedReceipt_eq_ok {activationId message : String} :
    unconfirmedReceipt H root activationId message = .ok receipt ↔
      H.isCanonicalUuid activationId ∧ root.receipts.get activationId = some receipt ∧ receipt.isUnconfirmed := by
  simp only [unconfirmedReceipt, bind_eq_ok, check_eq_ok, pure_eq_ok, readReceipt_eq_ok]
  constructor
  · rintro ⟨-, hcanonical, receipt', hget, -, hopen, rfl⟩
    exact ⟨hcanonical, hget, hopen⟩
  · rintro ⟨hcanonical, hget, hopen⟩
    exact ⟨(), hcanonical, receipt, hget, (), hopen, rfl⟩

/-- The sole receipt that answers for the live registry. -/
def IsSolePending (root : StateRoot) (activationId : String) (digest : Store.Digest) : Prop :=
  ∃ pending, pendingActivationForRegistry root digest = .ok (some pending) ∧ pending.activationId = activationId

theorem solePending_eq_ok {result : Unit} :
    solePending root activationId digest = .ok result ↔ IsSolePending root activationId digest := by
  unfold solePending IsSolePending
  cases pendingActivationForRegistry root digest with
  | error refusal => simp
  | ok pending => cases pending <;> simp [check_eq_ok]

theorem pendingActivation_eq_some {pending : ActivationReceipt}
    (h : pendingActivationForRegistry root digest = .ok (some pending)) :
    root.entries ≤ maxActivationRecords ∧ (∃ key, root.receipts.get key = some pending) ∧
      pending.activatedRegistryDigest = digest := by
  simp only [pendingActivationForRegistry, bind_eq_ok, pure_eq_ok] at h
  obtain ⟨receipts, hreceipts, -, -, hhead⟩ := h
  have hmem := List.mem_of_mem_head? hhead
  rw [List.mem_filter] at hmem
  obtain ⟨hentries, hlisted⟩ := activationReceipts_eq_ok hreceipts
  refine ⟨hentries, (hlisted pending).mp hmem.1, ?_⟩
  have hmatches := hmem.2
  simp only [Bool.and_eq_true, decide_eq_true_eq] at hmatches
  exact hmatches.2

/-- What `restore` has found where it goes on. -/
structure Restorable (H : Host) (root : StateRoot) (activationId : String) (expected : Store.Digest)
    (receipt : ActivationReceipt) (rollback : ConnectionRegistry) (content : Content) : Prop where
  canonicalId : H.isCanonicalUuid activationId
  get : root.receipts.get activationId = some receipt
  unconfirmed : receipt.isUnconfirmed
  live : liveDigest H root = .ok expected
  sole : IsSolePending root activationId expected
  activated : receipt.activatedRegistryDigest = expected
  readable : readRollback H root receipt = .ok rollback
  canonical : canonicalRegistry H rollback = .ok content

/-- The files behind each step of `restore`. -/
def restoringRoots (root : StateRoot) (receipt : ActivationReceipt) (content : Content) : List StateRoot :=
  [root.withRegistry content, (root.withRegistry content).withReceipt (receipt.moved .restored)]

theorem restoreEvidence_eq_ok {evidence : RestoreEvidence} :
    restoreEvidence H root activationId expected = .ok evidence ↔
      (H.isCanonicalUuid activationId ∧ root.receipts.get activationId = some evidence.receipt ∧
        evidence.receipt.isUnconfirmed) ∧
      liveDigest H root = .ok expected ∧ evidence.currentDigest = expected ∧ IsSolePending root activationId expected ∧
      readRollback H root evidence.receipt = .ok evidence.rollback := by
  simp only [restoreEvidence, bind_eq_ok, check_eq_ok, pure_eq_ok, unconfirmedReceipt_eq_ok, solePending_eq_ok,
    decide_eq_true_eq, liveDigest_eq_ok]
  constructor
  · rintro ⟨receipt, hreceipt, current, hcurrent, digest, hdigest, _, rfl, _, hsole, rollback, hrollback, rfl⟩
    exact ⟨hreceipt, ⟨current, hcurrent, hdigest⟩, rfl, hsole, hrollback⟩
  · obtain ⟨receipt, rollback, digest⟩ := evidence
    rintro ⟨hreceipt, ⟨current, hcurrent, hdigest⟩, rfl, hsole, hrollback⟩
    exact ⟨receipt, hreceipt, current, hcurrent, _, hdigest, (), rfl, (), hsole, rollback, hrollback, rfl⟩

theorem restore_of {rollback : ConnectionRegistry} (hkeyed : Keyed service.root)
    (h : Restorable H service.root activationId expected receipt rollback content) :
    Goes service.root (restoringRoots service.root receipt content) (receipt.moved .restored)
      (restore H activationId expected service) := by
  have hevidence : restoreEvidence H service.root activationId expected = .ok ⟨receipt, rollback, expected⟩ :=
    restoreEvidence_eq_ok.mpr ⟨⟨h.canonicalId, h.get, h.unconfirmed⟩, h.live, rfl, h.sole, h.readable⟩
  have hid := hkeyed activationId receipt h.get
  have hactivated : liveDigest H service.root = .ok receipt.activatedRegistryDigest := by
    rw [h.activated]
    exact h.live
  have hran := look_ok (f := fun root ↦ restoreEvidence H root activationId expected) (g := fun evidence ↦ do
    if evidence.currentDigest = evidence.receipt.activatedRegistryDigest then
      replaceRegistryIfDigest H evidence.rollback evidence.receipt.activatedRegistryDigest
    else if evidence.currentDigest ≠ evidence.receipt.previousRegistryDigest then
      Stepwise.refuse (.conflict "Connection registry is neither the activated nor rollback state")
    moveReceipt evidence.receipt .restored) hevidence
  change restore H activationId expected service = _ at hran
  simp only [if_pos h.activated.symm] at hran
  have hreplace := Stepwise.bind_of_step (f := fun _ ↦ moveReceipt receipt .restored)
    (replaceRegistry_apply service hactivated h.canonical)
  rw [moveReceipt_apply (service.changed (.withRegistry content)) .restored (by rw [hid]; exact h.get)] at hreplace
  rw [hran.trans hreplace]
  exact ⟨rfl, rfl, rfl⟩

/-- Where the receipts are kept under their own ids, the receipt of the live registry is the one that is named. -/
theorem restore_cases (hkeyed : Keyed service.root) (activationId : String) (expected : Store.Digest) :
    Refuses service.root (restore H activationId expected service) ∨
      ∃ receipt rollback content, Restorable H service.root activationId expected receipt rollback content := by
  cases hevidence : restoreEvidence H service.root activationId expected with
  | error refusal =>
      left
      rw [restore, look_error (f := fun root ↦ restoreEvidence H root activationId expected) hevidence]
      exact ⟨rfl, rfl, _, rfl⟩
  | ok evidence =>
      right
      obtain ⟨⟨hid, hget, hopen⟩, hlive, -, hsole, hrollback⟩ := restoreEvidence_eq_ok.mp hevidence
      obtain ⟨pending, hpending, hname⟩ := hsole
      obtain ⟨-, ⟨key, hkey⟩, hactivated⟩ := pendingActivation_eq_some hpending
      have hsame : pending = evidence.receipt := by
        rw [← hkeyed key pending hkey, hname, hget] at hkey
        exact (Option.some.inj hkey).symm
      obtain ⟨-, -, -, hdigest⟩ := readRollback_eq_ok.mp hrollback
      obtain ⟨content, hcontent, -⟩ := registryDigest_eq_ok.mp hdigest
      exact ⟨evidence.receipt, evidence.rollback, content, hid, hget, hopen, hlive, ⟨pending, hpending, hname⟩,
        hsame ▸ hactivated, hrollback, hcontent⟩

theorem confirmEvidence_eq_ok :
    confirmEvidence H root activationId expected = .ok receipt ↔
      (H.isCanonicalUuid activationId ∧ root.receipts.get activationId = some receipt ∧ receipt.isUnconfirmed) ∧
        liveDigest H root = .ok expected ∧ receipt.activatedRegistryDigest = expected := by
  simp only [confirmEvidence, bind_eq_ok, check_eq_ok, pure_eq_ok, unconfirmedReceipt_eq_ok, Bool.and_eq_true,
    decide_eq_true_eq]
  constructor
  · rintro ⟨receipt, hreceipt, digest, hdigest, _, ⟨rfl, hactivated⟩, rfl⟩
    exact ⟨hreceipt, hdigest, hactivated.symm⟩
  · rintro ⟨hreceipt, hdigest, hactivated⟩
    exact ⟨receipt, hreceipt, expected, hdigest, (), ⟨rfl, hactivated.symm⟩, rfl⟩

theorem confirm_cases (hkeyed : Keyed service.root) (activationId : String) (expected : Store.Digest) :
    (Refuses service.root (confirm H activationId expected service) ∧
        ∃ refusal, confirmEvidence H service.root activationId expected = .error refusal) ∨
      ∃ receipt, confirmEvidence H service.root activationId expected = .ok receipt ∧
        Goes service.root [service.root.withReceipt (receipt.moved .confirmed)] (receipt.moved .confirmed)
          (confirm H activationId expected service) := by
  cases hevidence : confirmEvidence H service.root activationId expected with
  | error refusal =>
      left
      rw [confirm, look_error (f := fun root ↦ confirmEvidence H root activationId expected) hevidence]
      exact ⟨⟨rfl, rfl, _, rfl⟩, _, rfl⟩
  | ok receipt =>
      right
      obtain ⟨⟨-, hget, -⟩, -, -⟩ := confirmEvidence_eq_ok.mp hevidence
      refine ⟨receipt, rfl, ?_⟩
      have hid := hkeyed activationId receipt hget
      rw [confirm, look_ok (f := fun root ↦ confirmEvidence H root activationId expected) hevidence,
        moveReceipt_apply service .confirmed (by rw [hid]; exact hget)]
      exact ⟨rfl, rfl, rfl⟩

end WorkStack.Connection
