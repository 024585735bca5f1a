import WorkStack.Connection.ActivationRuns

/-!
# Putting an activation back

An activation that was accepted can be put back as long as the activation directory holds no more than it
may: the count is taken before the evidence is opened, and again when it is read. A restore writes the
registry before the receipt, and behind the first of the two the receipt no longer answers for the registry
that is live.
-/

open WorkStack.Python WorkStack.Python.Decoding WorkStack.Effect WorkStack.Effect.Refusing

namespace WorkStack.Connection

variable {H : Host}

/-! ## The unconfirmed receipt -/

variable {root : StateRoot} {receipts : List ActivationReceipt}

theorem activationReceipts_nodup (hkeyed : Keyed root) (h : activationReceipts root = .ok receipts) :
    receipts.Nodup := by
  unfold activationReceipts at h
  rw [ite_eq_ok, Except.ok.injEq] at h
  obtain ⟨-, rfl⟩ := h
  rw [(List.perm_insertionSort ..).nodup_iff]
  apply List.Nodup.of_map ActivationReceipt.activationId
  have hids : (root.receipts.items.map Prod.snd).map ActivationReceipt.activationId =
      Dict.keys root.receipts.items := by
    rw [List.map_map, Dict.keys]
    apply List.map_congr_left
    rintro ⟨activationId, receipt⟩ hmem
    exact hkeyed activationId receipt ((Dict.get_eq_some_iff_mem root.receipts.nodup).mpr hmem)
  rw [hids]
  exact root.receipts.nodup

theorem activationReceipts_of_entries (h : root.entries ≤ maxActivationRecords) :
    ∃ receipts, activationReceipts root = .ok receipts :=
  ⟨_, if_neg (not_lt.mpr h)⟩

variable {receipt : ActivationReceipt} {activationId : String}

/-- Where a receipt is unconfirmed, it is the only one. -/
theorem unconfirmed_eq_singleton (hsound : Sound H root) (hlisted : activationReceipts root = .ok receipts)
    (hget : root.receipts.get activationId = some receipt) (hopen : receipt.isUnconfirmed) :
    receipts.filter ActivationReceipt.isUnconfirmed = [receipt] := by
  rw [← List.perm_singleton, List.perm_ext_iff_of_nodup
    ((activationReceipts_nodup hsound.keyed hlisted).filter _) (List.nodup_singleton _)]
  intro other
  rw [List.mem_filter, List.mem_singleton, (activationReceipts_eq_ok hlisted).2 other]
  constructor
  · rintro ⟨⟨otherId, hother⟩, hunconfirmed⟩
    have hid := hsound.single otherId activationId other receipt hother hget hunconfirmed hopen
    rw [hid, hget] at hother
    exact (Option.some.inj hother).symm
  · rintro rfl
    exact ⟨⟨activationId, hget⟩, hopen⟩

theorem isSolePending_of (hsound : Sound H root) (hget : root.receipts.get activationId = some receipt)
    (hopen : receipt.isUnconfirmed) (hentries : root.entries ≤ maxActivationRecords) :
    IsSolePending root activationId receipt.activatedRegistryDigest := by
  obtain ⟨receipts, hlisted⟩ := activationReceipts_of_entries hentries
  have hsole : receipts.filter (fun other ↦ other.isUnconfirmed &&
      decide (other.activatedRegistryDigest = receipt.activatedRegistryDigest)) = [receipt] := by
    calc receipts.filter (fun other ↦ other.isUnconfirmed &&
          decide (other.activatedRegistryDigest = receipt.activatedRegistryDigest))
        = (receipts.filter ActivationReceipt.isUnconfirmed).filter fun other ↦
            decide (other.activatedRegistryDigest = receipt.activatedRegistryDigest) := by
          rw [List.filter_filter]
          simp only [Bool.and_comm]
      _ = [receipt] := by
          rw [unconfirmed_eq_singleton hsound hlisted hget hopen]
          simp
  refine ⟨receipt, ?_, hsound.keyed activationId receipt hget⟩
  simp only [pendingActivationForRegistry, bind_eq_ok, pure_eq_ok, check_eq_ok]
  exact ⟨receipts, hlisted, (), by rw [hsole]; rfl, by rw [hsole]; rfl⟩

/-- When an unconfirmed receipt can be put back. -/
theorem restorable_iff (hsound : Sound H root) (hget : root.receipts.get activationId = some receipt)
    (hopen : receipt.isUnconfirmed) (expected : Store.Digest) :
    (∃ rollback content, Restorable H root activationId expected receipt rollback content) ↔
      liveDigest H root = .ok expected ∧ receipt.activatedRegistryDigest = expected ∧
        root.entries ≤ maxActivationRecords := by
  constructor
  · rintro ⟨rollback, content, h⟩
    obtain ⟨pending, hpending, -⟩ := h.sole
    exact ⟨h.live, h.activated, (pendingActivation_eq_some hpending).1⟩
  · rintro ⟨hlive, hactivated, hentries⟩
    obtain ⟨rollback, hrollback⟩ := hsound.answers activationId receipt hget
    obtain ⟨-, -, -, hdigest⟩ := readRollback_eq_ok.mp hrollback
    obtain ⟨content, hcontent, -⟩ := registryDigest_eq_ok.mp hdigest
    have hsole := isSolePending_of hsound hget hopen hentries
    rw [hactivated] at hsole
    exact ⟨rollback, content, hsound.canonicalId activationId receipt hget, hget, hopen, hlive, hsole, hactivated,
      hrollback, hcontent⟩

/-! ## Counting -/

theorem entries_withReceipt {receipt other : ActivationReceipt}
    (h : root.receipts.get receipt.activationId = some other) : (root.withReceipt receipt).entries = root.entries := by
  unfold StateRoot.entries StateRoot.withReceipt
  rw [Mapping.length_set_of_get_some root.receipts h]

theorem entries_withNewReceipt (h : root.receipts.get receipt.activationId = none) :
    (root.withReceipt receipt).entries = root.entries + 1 := by
  simp only [StateRoot.entries, StateRoot.withReceipt]
  rw [Mapping.length_set_of_get_none root.receipts h]
  omega

theorem entries_withRollback {name : String} (h : root.rollbacks.get name = none) (content : Content) :
    (root.withRollback name content).entries = root.entries + 1 := by
  simp only [StateRoot.entries, StateRoot.withRollback]
  rw [Mapping.length_set_of_get_none root.rollbacks h]
  omega

/-! ## Accepted activations -/

/-- Some activation is prepared or pending. -/
def HasUnconfirmed (root : StateRoot) : Prop :=
  ∃ activationId receipt, root.receipts.get activationId = some receipt ∧ receipt.isUnconfirmed

theorem not_hasUnconfirmed (hlisted : activationReceipts root = .ok receipts)
    (hclosed : ∀ receipt ∈ receipts, receipt.isUnconfirmed = false) : ¬HasUnconfirmed root := by
  rintro ⟨activationId, receipt, hget, hopen⟩
  have hmem := ((activationReceipts_eq_ok hlisted).2 receipt).mpr ⟨activationId, hget⟩
  rw [hclosed receipt hmem] at hopen
  cases hopen

theorem continues_eq {attempt : Attempt} (h : continuesAttempt attempt receipt = true) :
    receipt.activatedRegistryDigest = attempt.candidateRegistryDigest ∧
      (attempt.currentRegistryDigest = receipt.previousRegistryDigest ∨
        attempt.currentRegistryDigest = receipt.activatedRegistryDigest) := by
  simp only [continuesAttempt, Bool.and_eq_true, Bool.or_eq_true, decide_eq_true_eq] at h
  exact ⟨h.1.2, h.2⟩

/-- What an activation that was accepted leaves. -/
structure Accepts (H : Host) (root root' : StateRoot) (receipt : ActivationReceipt) : Prop where
  get : root'.receipts.get receipt.activationId = some receipt
  unconfirmed : receipt.isUnconfirmed
  live : liveDigest H root' = .ok receipt.activatedRegistryDigest
  listed : root.entries ≤ maxActivationRecords
  grown : HasUnconfirmed root ∧ root'.entries = root.entries ∨
    ¬HasUnconfirmed root ∧ root'.entries = root.entries + 2

variable {expected : Store.Digest} {content : Content}

theorem opened_accepts {registry : Json} {prepared : ActivationReceipt} {candidate : ConnectionRegistry}
    (found : Attempts H root registry expected activationId prepared candidate content receipts)
    (closed : ∀ receipt ∈ receipts, receipt.isUnconfirmed = false)
    (free : root.rollbacks.get prepared.rollbackFile = none) (fresh : root.receipts.get activationId = none) :
    Accepts H root ((root :: openingRoots root prepared content).getLast (List.cons_ne_nil _ _))
      (prepared.moved .pending) := by
  rw [← found.prepares.drawn] at fresh
  let kept := root.withRollback prepared.rollbackFile root.registry
  have hfresh : kept.receipts.get prepared.activationId = none := fresh
  have hopened : (kept.withReceipt prepared).entries = root.entries + 2 := by
    rw [entries_withNewReceipt hfresh, entries_withRollback free]
  constructor
  · exact Mapping.get_set_self ..
  · rfl
  · change liveDigest H ((kept.withReceipt prepared).withRegistry content) = .ok prepared.activatedRegistryDigest
    rw [(liveDigest_withRegistry _ found.normal found.prepares.canonical).2, found.prepares.activated]
  · exact (activationReceipts_eq_ok found.listed).1
  · right
    refine ⟨not_hasUnconfirmed found.listed closed, ?_⟩
    have hget : ((kept.withReceipt prepared).withRegistry content).receipts.get
        (prepared.moved .pending).activationId = some prepared := Mapping.get_set_self ..
    exact (entries_withReceipt hget).trans hopened

theorem resumed_accepts {registry : Json} {prepared receipt : ActivationReceipt} {candidate : ConnectionRegistry}
    (found : Attempts H root registry expected activationId prepared candidate content receipts)
    (unconfirmed : receipt.isUnconfirmed = true) (continues : continuesAttempt (attemptOf prepared) receipt = true)
    (get : root.receipts.get receipt.activationId = some receipt) :
    Accepts H root ((root :: resumingRoots root receipt content expected).getLast (List.cons_ne_nil _ _))
      (receipt.moved .pending) := by
  obtain ⟨hcandidate, -⟩ := continues_eq continues
  have hselected (root : StateRoot) : liveDigest H (root.withRegistry content) = .ok receipt.activatedRegistryDigest := by
    rw [(liveDigest_withRegistry root found.normal found.prepares.canonical).2, hcandidate]
    exact congrArg Except.ok found.prepares.activated.symm
  have hpending : receipt.state ≠ .prepared → receipt.moved .pending = receipt := by
    intro hstate
    obtain ⟨id, state, previous, activated, profile, digest, proof, file⟩ := receipt
    cases state <;> simp_all [ActivationReceipt.moved, ActivationState.isUnconfirmed]
  have hlisted := (activationReceipts_eq_ok found.listed).1
  have hopen : HasUnconfirmed root := ⟨receipt.activationId, receipt, get, unconfirmed⟩
  unfold resumingRoots
  by_cases hdigest : expected = receipt.activatedRegistryDigest
  · have hlive : liveDigest H root = .ok receipt.activatedRegistryDigest := by
      rw [← hdigest]
      exact found.live
    by_cases hstate : receipt.state = .prepared
    · simp only [hdigest, hstate, ne_eq, not_true_eq_false, if_false, if_true, List.nil_append,
        List.getLast_cons_cons, List.getLast_singleton]
      exact ⟨Mapping.get_set_self .., rfl, hlive, hlisted, .inl ⟨hopen, entries_withReceipt get⟩⟩
    · simp only [hdigest, hstate, ne_eq, not_true_eq_false, if_false, List.append_nil, List.getLast_singleton]
      rw [hpending hstate]
      exact ⟨get, unconfirmed, hlive, hlisted, .inl ⟨hopen, rfl⟩⟩
  · by_cases hstate : receipt.state = .prepared
    · simp only [hdigest, hstate, ne_eq, not_false_eq_true, if_true, List.cons_append, List.nil_append,
        List.getLast_cons_cons, List.getLast_singleton]
      have hget : (root.withRegistry content).receipts.get (receipt.moved .pending).activationId = some receipt := get
      exact ⟨Mapping.get_set_self .., rfl, hselected root, hlisted, .inl ⟨hopen, entries_withReceipt hget⟩⟩
    · simp only [hdigest, hstate, ne_eq, not_false_eq_true, if_true, if_false, List.append_nil,
        List.getLast_cons_cons, List.getLast_singleton]
      rw [hpending hstate]
      exact ⟨get, unconfirmed, hselected root, hlisted, .inl ⟨hopen, rfl⟩⟩

variable {service : Service}

theorem activate_accepts {registry : Json} {profileId proofId : String} {activationId : DrawnId H} {now : ℤ}
    (h : (activate H registry profileId proofId expected activationId now service).result = .ok receipt) :
    Accepts H service.root (activate H registry profileId proofId expected activationId now service).state.root
      receipt := by
  cases activate_cases registry profileId proofId expected activationId now service with
  | refused hrefuses =>
      obtain ⟨refusal, hrefusal⟩ := hrefuses.result
      rw [hrefusal] at h
      cases h
  | strayed found closed free steps final result =>
      obtain ⟨refusal, hrefusal⟩ := result
      rw [hrefusal] at h
      cases h
  | opened found closed free fresh goes =>
      rw [goes.result] at h
      cases h
      rw [goes.final]
      exact opened_accepts found closed free fresh
  | resumed found unconfirmed continues get goes =>
      rw [goes.result] at h
      cases h
      rw [goes.final]
      exact resumed_accepts found unconfirmed continues get

/-! ## Putting back -/

/-- The registry that a receipt answers for is live, and the receipt is restored. -/
structure PutBack (H : Host) (root : StateRoot) (receipt : ActivationReceipt) : Prop where
  live : ∃ rollback, readRollback H root receipt = .ok rollback ∧ readLive H root = .ok rollback
  restored : root.receipts.get receipt.activationId = some (receipt.moved .restored)

variable {rollback : ConnectionRegistry}

theorem restoringRoots_putBack (h : Restorable H root activationId expected receipt rollback content) :
    PutBack H ((root :: restoringRoots root receipt content).getLast (List.cons_ne_nil _ _)) receipt := by
  obtain ⟨kept, -, hread, -⟩ := readRollback_eq_ok.mp h.readable
  have hlive := (liveDigest_withRegistry root (readContent_isNormal hread) h.canonical).1
  exact ⟨⟨rollback, h.readable, hlive⟩, Mapping.get_set_self ..⟩

/-- Whether the receipt of an accepted activation can be put back. -/
theorem Accepts.restore_iff (hsound : Sound H service.root) (h : Accepts H root service.root receipt) :
    (let ran := restore H receipt.activationId receipt.activatedRegistryDigest service
     ran.result = .ok (receipt.moved .restored) ∧ PutBack H ran.state.root receipt) ↔
      HasUnconfirmed root ∨ root.entries + 2 ≤ maxActivationRecords := by
  have hiff := restorable_iff hsound h.get h.unconfirmed receipt.activatedRegistryDigest
  have hcount : service.root.entries ≤ maxActivationRecords ↔
      HasUnconfirmed root ∨ root.entries + 2 ≤ maxActivationRecords := by
    have hlisted := h.listed
    rcases h.grown with ⟨hopen, hsame⟩ | ⟨hclosed, hmore⟩
    · rw [hsame]
      exact ⟨fun _ ↦ .inl hopen, fun _ ↦ hlisted⟩
    · rw [hmore]
      exact ⟨.inr, fun hor ↦ hor.resolve_left hclosed⟩
  rw [← hcount]
  constructor
  · rintro ⟨hresult, -⟩
    rcases restore_cases hsound.keyed receipt.activationId receipt.activatedRegistryDigest with
      hrefuses | ⟨receipt', rollback, content, hrestorable⟩
    · obtain ⟨refusal, hrefusal⟩ := hrefuses.result
      rw [hrefusal] at hresult
      cases hresult
    · have hsame := hrestorable.get
      rw [h.get] at hsame
      cases hsame
      exact (hiff.mp ⟨rollback, content, hrestorable⟩).2.2
  · intro hentries
    obtain ⟨rollback, content, hrestorable⟩ := hiff.mpr ⟨h.live, rfl, hentries⟩
    have hgoes := restore_of hsound.keyed hrestorable
    refine ⟨hgoes.result, ?_⟩
    rw [hgoes.final]
    exact restoringRoots_putBack hrestorable

/-! ## Trying again -/

/-- The files behind the first steps of a command that would go through. -/
theorem Goes.stopped_root {α : Type} {m : Command α} {roots : List StateRoot} {value : α}
    (h : Goes service.root roots value (m service)) (k : ℕ) :
    (m.stopped service k).root =
      ((service.root :: roots)[k]?).getD ((service.root :: roots).getLast (List.cons_ne_nil _ _)) := by
  have hlength : (m service).steps.length = roots.length := by
    rw [← h.steps, List.length_map]
  have hget : (service.root :: roots)[k]? = ((service :: (m service).steps)[k]?).map Service.root := by
    rw [← List.getElem?_map, List.map_cons, h.steps]
  unfold Stepwise.stopped
  rw [hget]
  by_cases hk : k ≤ (m service).steps.length
  · have hlt : k < (service :: (m service).steps).length := by
      rw [List.length_cons]
      omega
    rw [if_pos hk, List.getElem?_eq_getElem hlt]
    rfl
  · have hge : (service :: (m service).steps).length ≤ k := by
      rw [List.length_cons]
      omega
    rw [if_neg hk, List.getElem?_eq_none hge]
    exact h.final

/-- What is found behind each of the steps of a restore. -/
theorem restore_stopped (hkeyed : Keyed service.root)
    (h : Restorable H service.root activationId expected receipt rollback content) (k : ℕ) :
    ((restore H activationId expected).stopped service k).root =
      match k with
      | 0 => service.root
      | 1 => service.root.withRegistry content
      | _ => (service.root.withRegistry content).withReceipt (receipt.moved .restored) := by
  rw [(restore_of hkeyed h).stopped_root k]
  match k with
  | 0 => rfl
  | 1 => rfl
  | 2 => rfl
  | _ + 3 => rfl

theorem restore_unchanged (hsound : Sound H service.root)
    (hget : service.root.receipts.get activationId = some receipt)
    (hnot : ¬(receipt.isUnconfirmed ∧ receipt.activatedRegistryDigest = expected)) :
    (restore H activationId expected service).state.root = service.root := by
  rcases restore_cases hsound.keyed activationId expected with hrefuses | ⟨receipt', rollback, content, h⟩
  · exact hrefuses.final
  · have hsame := h.get
    rw [hget] at hsame
    cases hsame
    exact absurd ⟨h.unconfirmed, h.activated⟩ hnot

/-- A restore that stopped is completed by the next one, but for the one that stopped between its two files. -/
theorem restore_again_iff {expected digest : Store.Digest} {k : ℕ} (hsound : Sound H service.root)
    (h : Restorable H service.root activationId expected receipt rollback content)
    (hlive : liveDigest H ((restore H activationId expected).stopped service k).root = .ok digest) :
    PutBack H (restore H activationId digest ((restore H activationId expected).stopped service k)).state.root
        receipt ↔
      k ≠ 1 ∨ receipt.previousRegistryDigest = receipt.activatedRegistryDigest := by
  have hentries := ((restorable_iff hsound h.get h.unconfirmed expected).mp ⟨rollback, content, h⟩).2.2
  obtain ⟨kept, -, hread, hprevious⟩ := readRollback_eq_ok.mp h.readable
  have hnormal := readContent_isNormal hread
  obtain ⟨hselected, hselectedDigest⟩ := liveDigest_withRegistry service.root hnormal h.canonical
  have hselectedPrevious : liveDigest H (service.root.withRegistry content) = .ok receipt.previousRegistryDigest :=
    liveDigest_eq_ok.mpr ⟨rollback, hselected, hprevious⟩
  have hstopped := restore_stopped hsound.keyed h k
  have hid := hsound.keyed activationId receipt h.get
  have hsound' : Sound H (service.root.withRegistry content) := hsound.change (.move (.registry hnormal h.canonical))
  generalize (restore H activationId expected).stopped service k = stopped at hlive hstopped
  have hput (root : StateRoot) (hroot : stopped.root = root) (hsoundRoot : Sound H root)
      (hget : root.receipts.get activationId = some receipt) (hlist : root.entries ≤ maxActivationRecords)
      (hdigest : liveDigest H root = .ok receipt.activatedRegistryDigest) :
      PutBack H (restore H activationId digest stopped).state.root receipt := by
    rw [hroot, hdigest] at hlive
    cases hlive
    rw [← hroot] at hsoundRoot hget hlist hdigest
    obtain ⟨rollback', content', hrestorable⟩ :=
      (restorable_iff hsoundRoot hget h.unconfirmed _).mpr ⟨hdigest, rfl, hlist⟩
    rw [(restore_of hsoundRoot.keyed hrestorable).final]
    exact restoringRoots_putBack hrestorable
  match k with
  | 0 =>
      have hdigest : liveDigest H service.root = .ok receipt.activatedRegistryDigest := by
        rw [h.activated]
        exact h.live
      exact iff_of_true (hput service.root hstopped hsound h.get hentries hdigest) (.inl (by omega))
  | 1 =>
      simp only at hstopped
      by_cases hsame : receipt.previousRegistryDigest = receipt.activatedRegistryDigest
      · have hdigest : liveDigest H (service.root.withRegistry content) = .ok receipt.activatedRegistryDigest := by
          rw [← hsame]
          exact hselectedPrevious
        exact iff_of_true (hput _ hstopped hsound' h.get hentries hdigest) (.inr hsame)
      · apply iff_of_false
        · intro hput
          rw [hstopped, hselectedPrevious] at hlive
          cases hlive
          have hgetStopped : stopped.root.receipts.get activationId = some receipt := by
            rw [hstopped]
            exact h.get
          have hunchanged := restore_unchanged (by rw [hstopped]; exact hsound') hgetStopped
            fun hand ↦ hsame hand.2.symm
          have hrestored := hput.restored
          rw [hunchanged, hstopped, hid] at hrestored
          have hget : service.root.receipts.get activationId = some (receipt.moved .restored) := hrestored
          rw [h.get] at hget
          have hopen := h.unconfirmed
          rw [Option.some.inj hget] at hopen
          cases hopen
        · rintro (hne | heq)
          · exact hne rfl
          · exact hsame heq
  | k + 2 =>
      apply iff_of_true
      · have hput := restoringRoots_putBack h
        change PutBack H ((service.root.withRegistry content).withReceipt (receipt.moved .restored)) receipt at hput
        have hclosed : stopped.root.receipts.get activationId = some (receipt.moved .restored) := by
          rw [hstopped, ← hid]
          exact hput.restored
        have hsoundLast : Sound H stopped.root := by
          have hget : (service.root.withRegistry content).receipts.get receipt.activationId = some receipt := by
            rw [hid]
            exact h.get
          rw [hstopped]
          exact hsound'.change (.move (.moved hget (.closed h.unconfirmed rfl)))
        rw [restore_unchanged hsoundLast hclosed (by rintro ⟨hopen, -⟩; cases hopen), hstopped]
        exact hput
      · left
        omega

/-! ## Runs -/

/-- An accepted activation can be put back, and a restore that stopped can be completed, but for two cases:
evidence that was opened where the directory had no room for it to be read again, and a restore that stopped
between the registry and the receipt. -/
theorem put_back_iff (beginning : Beginning H) (events : List (Event H)) :
    let service := beginning.after events
    (∀ registry profileId proofId expected activationId now receipt,
      let ran := activate H registry profileId proofId expected activationId now service
      ran.result = .ok receipt →
      let restoring := restore H receipt.activationId receipt.activatedRegistryDigest ran.state
      (restoring.result = .ok (receipt.moved .restored) ∧ PutBack H restoring.state.root receipt ↔
        HasUnconfirmed service.root ∨ service.root.entries + 2 ≤ maxActivationRecords)) ∧
    ∀ activationId expected receipt value k digest, service.root.receipts.get activationId = some receipt →
      (restore H activationId expected service).result = .ok value →
      let stopped := (restore H activationId expected).stopped service k
      liveDigest H stopped.root = .ok digest →
      (PutBack H (restore H activationId digest stopped).state.root receipt ↔
        k ≠ 1 ∨ receipt.previousRegistryDigest = receipt.activatedRegistryDigest) := by
  intro service
  have hsound : Sound H service.root := beginning.after_sound events
  constructor
  · intro registry profileId proofId expected activationId now receipt ran hran
    let accepted : Event H := ⟨.activate registry profileId proofId expected activationId now, none⟩
    have hreaches : Reaches H service.root ran.state.root := accepted.reaches hsound.keyed
    exact (activate_accepts hran).restore_iff (hreaches.sound hsound)
  · intro activationId expected receipt value k digest hget hresult stopped hlive
    rcases restore_cases hsound.keyed activationId expected with hrefuses | ⟨receipt', rollback, content, hrestorable⟩
    · obtain ⟨refusal, hrefusal⟩ := hrefuses.result
      rw [hrefusal] at hresult
      cases hresult
    · have hsame := hrestorable.get
      rw [hget] at hsame
      cases hsame
      exact restore_again_iff hsound hrestorable hlive

/-! ## A run -/

theorem canonical_of_reads {registry : ConnectionRegistry} (hreads : readRegistry H registry.json = .ok registry)
    (hsize : (payload registry.json).length ≤ maxRegistryBytes) :
    canonicalRegistry H registry = .ok ⟨registry.json, (payload registry.json).length⟩ := by
  simp only [canonicalRegistry, registryToDocument, bind_eq_ok, check_eq_ok, pure_eq_ok, decide_eq_true_eq]
  exact ⟨registry.json, ⟨registry, hreads, rfl⟩, (), hsize, rfl⟩

/-- A machine whose paths are given in full already. -/
def posixHost : Host where
  toPlatform := asciiPlatform [] []
  isAbsolute path := path.toList.head? == some '/'
  normalPath := id
  pathTail := id
  normalPath_normalPath _ _ := rfl

def deskProfile (label dataDir : String) : ConnectionProfile :=
  ⟨"6f1c2b7e-9a54-4d3e-8f10-2b7c5a9d4e61", label, true, false, "0b9d6a1e-3c47-4f52-9a86-7d1e2c3b4f50",
    .localData dataDir⟩

def deskRegistry (label dataDir : String) : ConnectionRegistry :=
  ⟨some "6f1c2b7e-9a54-4d3e-8f10-2b7c5a9d4e61", [deskProfile label dataDir]⟩

@[irreducible] def deskDigest (label dataDir : String) : Store.Digest :=
  posixHost.sha256 (payload (deskRegistry label dataDir).json)

def deskContent (label dataDir : String) : Content :=
  ⟨(deskRegistry label dataDir).json, (payload (deskRegistry label dataDir).json).length⟩

theorem desk_reads : ∀ names ∈ [("Desk", "/old"), ("Desk", "/new"), ("Home", "/new")],
    readRegistry posixHost (deskRegistry names.1 names.2).json = .ok (deskRegistry names.1 names.2) ∧
      (payload (deskRegistry names.1 names.2).json).length ≤ maxRegistryBytes := by
  decide +kernel

/-- A desk whose registry was never changed. -/
def deskBeginning : Beginning posixHost where
  content := deskContent "Desk" "/old"
  registry := deskRegistry "Desk" "/old"
  reads := by
    obtain ⟨hreads, hsize⟩ := desk_reads ("Desk", "/old") (by simp)
    exact readContent_eq_ok.mpr ⟨hsize, hreads⟩

@[irreducible] def deskTested : Store.Digest :=
  posixHost.sha256 (Json.utf8 (Json.asciiText (sortedJson (deskProfile "Desk" "/new").json)))

theorem desk_profileDigest : profileDigest posixHost (deskProfile "Desk" "/new") = .ok deskTested := by
  have hdocument : profileDocument posixHost (deskProfile "Desk" "/new") = .ok (deskProfile "Desk" "/new") := by
    decide
  simp only [profileDigest, bind_eq_ok, pure_eq_ok]
  unfold deskTested
  exact ⟨_, hdocument, rfl⟩

theorem desk_canonical {label dataDir : String}
    (h : (label, dataDir) ∈ [("Desk", "/old"), ("Desk", "/new"), ("Home", "/new")]) :
    canonicalRegistry posixHost (deskRegistry label dataDir) = .ok (deskContent label dataDir) :=
  canonical_of_reads (desk_reads _ h).1 (desk_reads _ h).2

theorem desk_digests_differ :
    [deskDigest "Desk" "/old", deskDigest "Desk" "/new", deskDigest "Home" "/new"].Nodup := by
  decide +kernel

def deskProfileId : String := "6f1c2b7e-9a54-4d3e-8f10-2b7c5a9d4e61"

def deskProof : ProfileTestProof :=
  ⟨"1a6f0f2c-52c1-4b0d-9b1e-3d0a7c9b5e10", deskProfileId, deskTested, deskDigest "Desk" "/old", 60⟩

def deskResult : ProfileTestResult :=
  ⟨deskProfileId, "local", "ready", some "0b9d6a1e-3c47-4f52-9a86-7d1e2c3b4f50", some "1", some 1, true⟩

theorem desk_result : checkTestResult posixHost deskResult = .ok () ∧
    (deskResult.status == "ready" && deskResult.profileId == (deskProfile "Desk" "/new").profileId &&
      deskResult.kind == (deskProfile "Desk" "/new").endpoint.kind &&
      deskResult.actualWorkspaceId == some (deskProfile "Desk" "/new").expectedWorkspaceId) = true := by
  decide

theorem desk_target :
    activationTarget posixHost (deskRegistry "Desk" "/new").json deskProfileId deskProof.proofId =
      .ok (deskRegistry "Desk" "/new", deskProfile "Desk" "/new") := by
  decide

def deskActivationId : DrawnId posixHost := ⟨"c4d3b2a1-0f9e-4d8c-b7a6-5e4f3d2c1b0a", by decide⟩

/-- The profile is tested in its new directory. -/
def testDesk : Call posixHost :=
  .issueProof (deskProfile "Desk" "/new") deskResult (deskDigest "Desk" "/old") deskProof.proofId 0 60

def activateDesk : Call posixHost :=
  .activate (deskRegistry "Desk" "/new").json deskProfileId deskProof.proofId (deskDigest "Desk" "/old")
    deskActivationId 1

/-- The receipt that the activation opens. -/
def deskReceipt : ActivationReceipt :=
  ⟨deskActivationId.val, .prepared, deskDigest "Desk" "/old", deskDigest "Desk" "/new", deskProfileId, deskTested,
    posixHost.sha256 (Json.utf8 deskProof.proofId.toList), rollbackName deskActivationId.val⟩

theorem desk_registryDigest {label dataDir : String}
    (h : (label, dataDir) ∈ [("Desk", "/old"), ("Desk", "/new"), ("Home", "/new")]) :
    registryDigest posixHost (deskRegistry label dataDir) = .ok (deskDigest label dataDir) := by
  unfold deskDigest
  exact registryDigest_eq_ok.mpr ⟨_, desk_canonical h, rfl⟩

theorem addProof_nil (proof : ProfileTestProof) : addProof proof [] = [proof] := rfl

/-- The service behind the test. -/
def deskService : Service := ⟨deskBeginning.service.root, [deskProof]⟩

theorem desk_live : liveDigest posixHost deskService.root = .ok (deskDigest "Desk" "/old") :=
  liveDigest_eq_ok.mpr ⟨_, deskBeginning.reads, desk_registryDigest (by simp)⟩

theorem desk_tested : (testDesk.command deskBeginning.service).state = deskService := by
  have htested : testedDigest posixHost deskBeginning.service.root (deskProfile "Desk" "/new") deskResult
      (deskDigest "Desk" "/old") 0 = .ok deskTested := by
    simp only [testedDigest, bind_eq_ok, check_eq_ok, desk_profileDigest, and_true, requireDigest_eq_ok]
    exact ⟨_, deskBeginning.reads, (), desk_registryDigest (by simp), (), desk_result.1, (), desk_result.2, (), rfl⟩
  have hproof : (⟨deskProof.proofId, (deskProfile "Desk" "/new").profileId, deskTested, deskDigest "Desk" "/old",
      0 + 60⟩ : ProfileTestProof) = deskProof := by
    simp [deskProof, deskProfile, deskProfileId]
  have hnone : deskBeginning.service.proofs = [] := by
    simp only [Beginning.service]
  unfold testDesk
  simp only [Call.command, Stepwise.mapped, issueProof_apply htested, hproof, hnone, pruneProofs, List.filter_nil,
    addProof_nil]
  simp only [deskService]

theorem desk_proven :
    provenReceipt posixHost (pruneProofs 1 deskService.proofs) (deskRegistry "Desk" "/new")
      (deskProfile "Desk" "/new") deskProfileId deskProof.proofId (deskDigest "Desk" "/old") deskActivationId.val 1 =
        .ok deskReceipt := by
  have hcheck : checkProof posixHost [deskProof] deskProof.proofId deskProfileId (deskProfile "Desk" "/new")
      (deskDigest "Desk" "/old") 1 = .ok () := by
    simp only [checkProof, List.find?_cons, beq_self_eq_true, bind_eq_ok, check_eq_ok, desk_profileDigest]
    simp [deskProof]
  have hpruned : pruneProofs 1 deskService.proofs = [deskProof] := by
    simp [pruneProofs, deskService, deskProof]
  simp only [hpruned, provenReceipt, preparedReceipt, bind_eq_ok, pure_eq_ok, hcheck, desk_profileDigest]
  exact ⟨(), trivial, _, desk_registryDigest (by simp), deskTested, rfl, rfl⟩

theorem desk_activates :
    Goes deskService.root (openingRoots deskService.root deskReceipt (deskContent "Desk" "/new"))
      (deskReceipt.moved .pending)
      (activate posixHost (deskRegistry "Desk" "/new").json deskProfileId deskProof.proofId (deskDigest "Desk" "/old")
        deskActivationId 1 deskService) := by
  have htarget : activationTarget posixHost (deskRegistry "Desk" "/new").json deskProfileId deskProof.proofId =
      .ok (deskRegistry "Desk" "/new", deskProfile "Desk" "/new") := desk_target
  have hcandidate : canonicalRegistry posixHost (deskRegistry "Desk" "/new") = .ok (deskContent "Desk" "/new") :=
    desk_canonical (by simp)
  have hlisted : activationReceipts deskService.root = .ok [] := rfl
  apply activate_opens htarget desk_proven desk_live hcandidate hlisted
  · intro receipt hmem
    cases hmem
  · exact Mapping.get_empty _
  · exact Mapping.get_empty _

theorem Beginning.after_calls (beginning : Beginning H) (first second : Call H) :
    beginning.after [⟨first, none⟩, ⟨second, none⟩] =
      (second.command (first.command beginning.service).state).state := rfl

theorem activate_state (registry : Json) (profileId proofId : String) (expected : Store.Digest)
    (activationId : DrawnId H) (now : ℤ) (service : Service) :
    ((Call.activate registry profileId proofId expected activationId now).command service).state =
      (activate H registry profileId proofId expected activationId now service).state := rfl

def deskRun : List (Event posixHost) := [⟨testDesk, none⟩, ⟨activateDesk, none⟩]

def deskPending : ActivationReceipt := deskReceipt.moved .pending

theorem deskPending_activationId : deskPending.activationId = deskActivationId.val := rfl

theorem deskPending_previous : deskPending.previousRegistryDigest = deskDigest "Desk" "/old" := rfl

theorem deskPending_activated : deskPending.activatedRegistryDigest = deskDigest "Desk" "/new" := rfl

theorem desk_accepts : Accepts posixHost deskService.root (deskBeginning.after deskRun).root deskPending := by
  rw [deskRun, Beginning.after_calls, desk_tested, activateDesk, activate_state]
  exact activate_accepts desk_activates.result

theorem desk_entries : (deskBeginning.after deskRun).root.entries ≤ maxActivationRecords := by
  have hnone : deskService.root.entries = 0 := rfl
  have hgrown := desk_accepts.grown
  rw [hnone] at hgrown
  rcases hgrown with ⟨-, hsame⟩ | ⟨-, hmore⟩
  · rw [hsame]
    exact Nat.zero_le _
  · rw [hmore]
    exact Nat.le_of_ble_eq_true rfl

theorem desk_get : (deskBeginning.after deskRun).root.receipts.get deskActivationId.val = some deskPending := by
  rw [← deskPending_activationId]
  exact desk_accepts.get

theorem desk_liveDigest : liveDigest posixHost (deskBeginning.after deskRun).root = .ok (deskDigest "Desk" "/new") := by
  rw [← deskPending_activated]
  exact desk_accepts.live

theorem desk_restorable : ∃ rollback content, Restorable posixHost (deskBeginning.after deskRun).root
    deskActivationId.val (deskDigest "Desk" "/new") deskPending rollback content := by
  rw [restorable_iff (deskBeginning.after_sound deskRun) desk_get desk_accepts.unconfirmed]
  exact ⟨desk_liveDigest, deskPending_activated, desk_entries⟩

/-- The desk where its restore has stopped behind the registry. -/
def deskStopped : Service :=
  (restore posixHost deskActivationId.val (deskDigest "Desk" "/new")).stopped (deskBeginning.after deskRun) 1

/-- A restore that stopped behind the registry is not completed by the next one. -/
theorem restore_not_completed :
    (restore posixHost deskActivationId.val (deskDigest "Desk" "/new") (deskBeginning.after deskRun)).result =
        .ok (deskPending.moved .restored) ∧
      liveDigest posixHost deskStopped.root = .ok (deskDigest "Desk" "/old") ∧
      ¬PutBack posixHost
        (restore posixHost deskActivationId.val (deskDigest "Desk" "/old") deskStopped).state.root deskPending := by
  have hsound : Sound posixHost (deskBeginning.after deskRun).root := deskBeginning.after_sound deskRun
  obtain ⟨rollback, content, hrestorable⟩ := desk_restorable
  obtain ⟨kept, -, hread, hprevious⟩ := readRollback_eq_ok.mp hrestorable.readable
  have hlive : liveDigest posixHost deskStopped.root = .ok (deskDigest "Desk" "/old") := by
    rw [deskStopped, restore_stopped hsound.keyed hrestorable 1]
    have hselected := (liveDigest_withRegistry (deskBeginning.after deskRun).root (readContent_isNormal hread)
      hrestorable.canonical).1
    rw [deskPending_previous] at hprevious
    exact liveDigest_eq_ok.mpr ⟨rollback, hselected, hprevious⟩
  have hagain := restore_again_iff (k := 1) hsound hrestorable hlive
  have hfirst := (restore_of hsound.keyed hrestorable).result
  refine ⟨hfirst, hlive, ?_⟩
  unfold deskStopped
  rw [hagain, deskPending_previous, deskPending_activated, not_or]
  have hdiffer := desk_digests_differ
  rw [List.nodup_cons] at hdiffer
  exact ⟨not_not.mpr rfl, List.ne_of_not_mem_cons hdiffer.1⟩

end WorkStack.Connection
