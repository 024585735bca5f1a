import WorkStack.Effect.Answers
import WorkStack.Store.Adoption

/-!
# Repeating an adoption

An adoption makes its manifest durable first and its receipt afterwards, so a crash can fall between the
two. A repetition recognizes what was done by the receipt, or else by taking the committed manifest
for the candidate it would have been adopted from. The receipt is one file and holds one key: the key
of an adoption is refused for other coordinates for as long as its receipt is the one that is kept.
-/

namespace WorkStack.Store

open Effect

/-- The receipt of an adoption that published this manifest. -/
def adoptionReceipt (R : StoreRules) (idempotencyKey : Option String) (expectedGeneration : ℕ)
    (expectedManifestDigest : Digest) (manifest : Manifest) : AdoptionReceipt where
  version := 1
  idempotencyKey
  expectedGeneration
  expectedManifestDigest
  resultGeneration := manifest.generation
  resultManifestDigest := manifestDigest R manifest
  workspaceId := manifest.workspaceId

/-- A receipt that can be read back. -/
structure AdoptionReceipt.Readable (receipt : AdoptionReceipt) : Prop where
  version : receipt.version = 1
  key : receipt.idempotencyKey.all isAdoptionKey = true
  workspaceId : isCanonicalUuid receipt.workspaceId = true

/-- A receipt an adoption with this key and these coordinates has got past. -/
structure ReceiptAdmitted (idempotencyKey : Option String) (expectedGeneration : ℕ)
    (expectedManifestDigest : Digest) (receipt : Option AdoptionReceipt) : Prop where
  readable : ∀ known ∈ receipt, known.Readable
  guarded : guardAdoptionKey receipt idempotencyKey expectedGeneration expectedManifestDigest = .ok ()

/-- The manifest is the one a validation of these documents gives. -/
structure Faithful (R : StoreRules) (manifest : Manifest) (docs : Docs) : Prop where
  version : manifest.version = 1
  verdict : ∃ readiness, verdictOf R docs = .ok readiness ∧
    manifest.workspaceId = readiness.workspaceUid ∧ manifest.storeSchemaVersion = readiness.schemaVersion
  tasks : tasksOf R docs = .ok manifest.tasks

/-! ## The manifest an adoption made durable -/

abbrev Watch := (DocName → Bool) × Option Manifest

/-- Which documents are held, and the manifest that was committed. -/
def watched (R : StoreRules) : Recorder (machine R) Watch where
  own o disk t := ((held R).own o disk t.1, match o with
    | .writeManifest .committed manifest => some manifest
    | _ => t.2)
  env u v t := ((held R).env u v t.1, t.2)

theorem watched_after (R : StoreRules) (events : List (Event (machine R))) (t : Watch) :
    ((watched R).after events t).1 = (held R).after events t.1 := by
  induction events generalizing t with
  | nil => rfl
  | cons event events ih =>
      cases event with
      | env u v => exact ih _
      | own o u => exact ih _

section Contract

variable {R : StoreRules} {key : Option String} {e : ℕ} {d : Digest}

/-- No document was edited since the current candidate was first read. -/
def Undisturbed (u : Disk × Watch) : Prop := ∀ name, u.2.1 name = true

/-- What an adoption has to show: nothing is replaced once the manifest is committed, and a receipt is
the one of that manifest. -/
def retryContract (R : StoreRules) (key : Option String) (e : ℕ) (d : Digest) :
    Contract (watched R).machine where
  rely u v := Disk.ExternalEdit u.1 v.1 ∧ v.2.2 = u.2.2 ∧
    ∀ name, v.2.1 name = true → u.2.1 name = true ∧ u.1.docs name = v.1.docs name
  assume _ _ := True
  ensure o u := match o with
    | .writeManifest .committed manifest => u.2.2 = none ∧ u.1.journal = none ∧
        ReceiptAdmitted key e d u.1.receipt ∧ (Undisturbed u → Faithful R manifest u.1.docs)
    | .writeReceipt receipt => ∃ manifest, u.2.2 = some manifest ∧
        validateStoreManifest manifest = .ok () ∧ receipt = adoptionReceipt R key e d manifest
    | o => o.Reads ∨ u.2.2 = none
  rely_refl u := ⟨.refl u.1, rfl, fun _ h ↦ ⟨h, rfl⟩⟩
  rely_trans u v w h h' := ⟨.trans u.1 v.1 w.1 h.1 h'.1, h'.2.1.trans h.2.1, fun name hname ↦
    ⟨(h.2.2 name (h'.2.2 name hname).1).1, (h.2.2 name (h'.2.2 name hname).1).2.trans (h'.2.2 name hname).2⟩⟩

theorem retryContract_rely {u v : Disk × Watch} (edit : Disk.ExternalEdit u.1 v.1)
    (h : v.2 = (watched R).env u.1 v.1 u.2) : (retryContract R key e d).rely u v := by
  refine ⟨edit, by rw [h]; rfl, fun name hname ↦ ?_⟩
  rw [h] at hname
  exact ⟨(Bool.and_eq_true_iff.mp hname).1, of_decide_eq_true (Bool.and_eq_true_iff.mp hname).2⟩

theorem ensure_reads {o : DiskOp} (ho : o.Reads) (u : Disk × Watch) : (retryContract R key e d).ensure o u := by
  cases o <;> first | exact Or.inl ho | exact ho.elim

theorem watched_own_reads {o : DiskOp} (ho : o.Reads) (u : Disk) (t : Watch) :
    ((watched R).own o u t).2 = t.2 := by
  cases o <;> first | rfl | exact ho.elim

theorem watched_own_later {o : DiskOp} (ho : LaterRead o) (u : Disk) (t : Watch) :
    (watched R).own o u t = t := by
  apply Prod.ext
  · exact held_own_later (R := R) ho u t.1
  · exact watched_own_reads ho.1.1 u t

theorem perform_watched_later {o : DiskOp} (ho : LaterRead o) (u : Disk × Watch) :
    ((watched R).machine.perform o u).2 = u :=
  Prod.ext (Disk.perform_reads ho.1.1 u.1) (watched_own_later (R := R) ho u.1 u.2)

theorem retry_calms : Calms (retryContract R key e d) LaterRead Undisturbed where
  rely u v hrely hcalm := by
    have hdocs : u.1.docs = v.1.docs := funext fun name ↦ (hrely.2.2 name (hcalm name)).2
    have hheld : u.2.1 = v.2.1 := funext fun name ↦
      (hrely.2.2 name (hcalm name)).1.trans (hcalm name).symm
    obtain ⟨⟨hjournal, hmanifest, hreceipt⟩, hpublished, -⟩ := hrely
    exact Prod.ext (Disk.ext hdocs hjournal.symm hmanifest.symm hreceipt.symm)
      (Prod.ext hheld hpublished.symm)
  own o u ho hcalm := by
    exact perform_watched_later (R := R) ho u ▸ hcalm
  ensure o u ho := ensure_reads ho.1.1 u

end Contract

/-! ## Rules -/

section Rules

variable {R : StoreRules} {key : Option String} {e : ℕ} {d : Digest} {m : Process} {w : Disk × Watch}
variable {α : Type} {c : StoreCommand α}

/-- A statement about the files beside the documents and about the committed manifest. -/
def Besides (I : Option Journal → Option Manifest → Option AdoptionReceipt → Option Manifest → Prop)
    (u : Disk × Watch) : Prop := I u.1.journal u.1.manifest u.1.receipt u.2.2

variable {I : Option Journal → Option Manifest → Option AdoptionReceipt → Option Manifest → Prop}

theorem Besides.rely {u v : Disk × Watch} (h : Besides I u) (hrely : (retryContract R key e d).rely u v) :
    Besides I v := by
  obtain ⟨⟨hjournal, hmanifest, hreceipt⟩, hpublished, -⟩ := hrely
  unfold Besides
  rw [hjournal, hmanifest, hreceipt, hpublished]
  exact h

theorem Besides.reads {u : Disk × Watch} {o : DiskOp} (h : Besides I u) (ho : o.Reads) :
    Besides I ((watched R).machine.perform o u).2 := by
  change I (u.1.perform R.sha256 o).2.journal (u.1.perform R.sha256 o).2.manifest
    (u.1.perform R.sha256 o).2.receipt ((watched R).own o u.1 u.2).2
  rw [Disk.perform_reads ho, watched_own_reads ho]
  exact h

/-- Reads keep what is beside the documents. -/
theorem wp_retry_reads (hc : Command.Within (.any DiskOp.Reads) c) (hw : Besides I w) :
    Command.wp (retryContract R key e d) c (fun _ _ ↦ Besides I) (fun _ _ ↦ Besides I) m w := by
  have hwp := Command.Within.wp (C := retryContract R key e d) (I := Besides I) (m := m) (w := w) hc
    (fun _ _ h hrely ↦ h.rely hrely) (fun o u ho h _ ↦ ⟨ensure_reads ho u, h.reads ho⟩) hw
  exact Command.wp_mono hwp (fun _ _ _ h ↦ h.1) fun _ _ _ h ↦ h.1

/-- Before the manifest is committed, the store is inspected and recovered. -/
def Prepares : DiskOp → Prop
  | .writeManifest site _ => site ≠ .committed
  | .writeReceipt _ => False
  | _ => True

/-- Nothing was committed. -/
def Opened (u : Disk × Watch) : Prop := u.2.2 = none

theorem wp_retry_prepares (hc : Command.Within (.any Prepares) c) (hw : Opened w) :
    Command.wp (retryContract R key e d) c (fun _ _ ↦ Opened) (fun _ _ ↦ Opened) m w := by
  have hwp := Command.Within.wp (C := retryContract R key e d) (I := Opened) (m := m) (w := w) hc
    (fun _ _ h hrely ↦ hrely.2.1.trans h) ?_ hw
  · exact Command.wp_mono hwp (fun _ _ _ h ↦ h.1) fun _ _ _ h ↦ h.1
  · intro o u ho h _
    cases o with
    | writeManifest site manifest =>
        cases site with
        | committed => exact absurd rfl ho
        | _ => exact ⟨Or.inr h, h⟩
    | writeReceipt receipt => exact ho.elim
    | _ => exact ⟨Or.inr h, h⟩

/-- The same with the journal gone and the receipt as it is. -/
def Ready (receipt : Option AdoptionReceipt) (u : Disk × Watch) : Prop :=
  u.2.2 = none ∧ u.1.journal = none ∧ u.1.receipt = receipt

theorem Ready.rely {receipt : Option AdoptionReceipt} {u v : Disk × Watch} (h : Ready receipt u)
    (hrely : (retryContract R key e d).rely u v) : Ready receipt v :=
  ⟨hrely.2.1.trans h.1, hrely.1.1.trans h.2.1, hrely.1.2.2.trans h.2.2⟩

theorem wp_retry_inspects {receipt : Option AdoptionReceipt} (hc : Command.Within (.any PlainInspect) c)
    (hw : Ready receipt w) :
    Command.wp (retryContract R key e d) c (fun _ _ ↦ Ready receipt) (fun _ _ ↦ Ready receipt) m w := by
  have hwp := Command.Within.wp (C := retryContract R key e d) (I := Ready receipt) (m := m) (w := w) hc
    (fun _ _ h hrely ↦ h.rely hrely) ?_ hw
  · exact Command.wp_mono hwp (fun _ _ _ h ↦ h.1) fun _ _ _ h ↦ h.1
  · intro o u ho h _
    cases o with
    | writeManifest site manifest =>
        cases (show site = .ensured from ho.1)
        exact ⟨Or.inr h.1, h⟩
    | replaceDoc _ _ _ => exact ho.1.elim
    | writeJournal _ => exact ho.1.elim
    | unlinkJournal => exact ho.1.elim
    | writeReceipt _ => exact ho.1.elim
    | _ => exact ⟨Or.inl trivial, h⟩

theorem Within.prepares (hc : Command.Within (.any PlainInspect) c) : Command.Within (.any Prepares) c := by
  apply hc.any
  intro o ho
  cases o with
  | writeManifest site manifest =>
      rw [show site = .ensured from ho.1]
      exact fun hsite ↦ nomatch hsite
  | writeReceipt _ => exact ho.1.elim
  | _ => trivial

theorem Within.anyReads (hc : Command.Within (.same LaterRead) c) : Command.Within (.any DiskOp.Reads) c :=
  hc.any fun _ ho ↦ ho.1.1

end Rules

/-! ## Recovery -/

section Recovery

variable {R : StoreRules} {key : Option String} {e : ℕ} {d : Digest} {m : Process} {w : Disk × Watch}

/-- Nothing was committed, and no journal is left. -/
def Settled (u : Disk × Watch) : Prop := u.2.2 = none ∧ u.1.journal = none

theorem within_readManifest_prepares : Command.Within (.any Prepares) readManifest :=
  Within.prepares (Within.inspects (Within.reads within_readManifest))

theorem within_localBaseline_prepares (manifest : Manifest) (files : Files) (tasks : Tasks)
    (changedFiles : List DocName) :
    Command.Within (.any Prepares) (writeLocalBaseline manifest files tasks changedFiles) :=
  .bind (within_advanceGeneration _) fun _ ↦ .bind (within_step (fun h ↦ nomatch h)) fun _ ↦
    .bind (.remember fun _ ↦ trivial) fun _ ↦ (within_emitEvent _ _ _).any fun _ h ↦ h

theorem within_collectExpectations_prepares (writes : Writes) :
    Command.Within (.any Prepares) (collectExpectations R writes) := by
  apply (within_collectExpectations writes).any
  intro o ho
  cases o <;> trivial

theorem within_replaceDocuments_prepares (expectations : Expectations) (writes : Writes) :
    Command.Within (.any Prepares) (replaceDocuments expectations writes) :=
  .fold (fun _ _ ↦ .bind (within_step trivial) fun _ ↦ .ite (.pure _) (.throw _)) _ _

theorem within_finishRecovery_prepares (baseline : Option Manifest) (writes : Writes) :
    Command.Within (.any Prepares) (finishRecovery R baseline writes) := by
  cases baseline with
  | some manifest =>
      exact .bind (Within.prepares (Within.inspects (within_localBaselineTasks manifest _ _))) fun _ ↦
        .bind (within_localBaseline_prepares _ _ _ _) fun _ ↦ .bind (within_step trivial) fun _ ↦
          .bind (Within.prepares within_inspectSync) fun _ ↦ .remember fun _ ↦ trivial
  | none => exact .bind (within_step trivial) fun _ ↦ .remember fun _ ↦ trivial

theorem wp_retry_settledReads {α : Type} {c : StoreCommand α} (hc : Command.Within (.any PlainInspect) c)
    (hw : Settled w) :
    Command.wp (retryContract R key e d) c (fun _ _ ↦ Settled) (fun _ _ _ ↦ True) m w := by
  have hready : Ready w.1.receipt w := ⟨hw.1, hw.2, rfl⟩
  exact Command.wp_mono (wp_retry_inspects hc hready) (fun _ _ _ h ↦ ⟨h.1, h.2.1⟩) fun _ _ _ _ ↦ trivial

theorem wp_retry_unlinkJournal (hw : Opened w) :
    Command.wp (retryContract R key e d) (step .unlinkJournal) (fun _ _ ↦ Settled) (fun _ _ _ ↦ True) m w := by
  intro u hrely _
  have hu : u.2.2 = none := hrely.2.1.trans hw
  exact ⟨Or.inr hu, hu, rfl⟩

theorem wp_retry_finishRecovery (baseline : Option Manifest) (writes : Writes) (hw : Opened w) :
    Command.wp (retryContract R key e d) (finishRecovery R baseline writes) (fun _ _ ↦ Settled)
      (fun _ _ _ ↦ True) m w := by
  cases baseline with
  | some manifest =>
      rw [finishRecovery]
      apply Command.wp_seq (wp_retry_prepares
        (Within.prepares (Within.inspects (within_localBaselineTasks manifest _ _))) hw)
      · intro tasks n u hu
        apply Command.wp_seq (wp_retry_prepares (within_localBaseline_prepares manifest _ tasks _) hu)
        · intro _ n' v hv
          apply Command.wp_seq (wp_retry_unlinkJournal hv)
          · intro _ k x hx
            apply Command.wp_seq (wp_retry_settledReads within_inspectSync hx)
            · exact fun _ _ _ h ↦ h
            · exact fun _ _ _ _ ↦ trivial
          · exact fun _ _ _ _ ↦ trivial
        · exact fun _ _ _ _ ↦ trivial
      · exact fun _ _ _ _ ↦ trivial
  | none =>
      rw [finishRecovery]
      apply Command.wp_seq (wp_retry_unlinkJournal hw)
      · exact fun _ _ _ h ↦ h
      · exact fun _ _ _ _ ↦ trivial

theorem wp_retry_replayJournal (journal : Journal) (hw : Opened w) :
    Command.wp (retryContract R key e d) (replayJournal R journal) (fun _ _ ↦ Settled)
      (fun _ _ _ ↦ True) m w := by
  rw [replayJournal]
  apply Command.wp_seq (wp_retry_prepares (within_accept _) hw)
  · intro writes n u hu
    apply Command.wp_seq (wp_retry_prepares within_readManifest_prepares hu)
    · intro baseline n₁ u₁ hu₁
      apply Command.wp_seq (wp_retry_prepares (Within.prepares
        (Within.inspects (Within.reads (within_assertRecoveryTargetsSafe baseline writes)))) hu₁)
      · intro _ n₂ u₂ hu₂
        apply Command.wp_seq (wp_retry_prepares (within_collectExpectations_prepares writes) hu₂)
        · intro expectations n₃ u₃ hu₃
          apply Command.wp_seq (wp_retry_prepares (within_replaceDocuments_prepares expectations writes) hu₃)
          · exact fun _ _ _ h ↦ wp_retry_finishRecovery _ _ h
          · exact fun _ _ _ _ ↦ trivial
        · exact fun _ _ _ _ ↦ trivial
      · exact fun _ _ _ _ ↦ trivial
    · exact fun _ _ _ _ ↦ trivial
  · exact fun _ _ _ _ ↦ trivial

/-- A recovery that succeeds leaves no journal. -/
theorem wp_retry_recoverLocked (hw : Opened w) :
    Command.wp (retryContract R key e d) (recoverLocked R) (fun _ _ ↦ Settled) (fun _ _ _ ↦ True) m w := by
  rw [recoverLocked, Command.wp_bind]
  intro u hrely _
  have hu : Opened u := hrely.2.1.trans hw
  refine ⟨Or.inr hu, ?_⟩
  cases hjournal : u.1.journal with
  | none =>
      rw [show (watched R).machine.perform .journalExists u = (false, u) from
        Prod.ext (by change u.1.journal.isSome = _; rw [hjournal]; rfl) rfl]
      exact ⟨hu, hjournal⟩
  | some journal =>
      rw [show (watched R).machine.perform .journalExists u = (true, u) from
        Prod.ext (by change u.1.journal.isSome = _; rw [hjournal]; rfl) rfl]
      apply (Command.wp_bind _ _).mpr
      intro v hrely' _
      have hv : Opened v := hrely'.2.1.trans hu
      refine ⟨Or.inr hv, ?_⟩
      have hread : (watched R).machine.perform .readJournal v = (v.1.journal, v) := rfl
      rw [hread]
      cases v.1.journal with
      | none => trivial
      | some journal => exact wp_retry_replayJournal journal hv

end Recovery

/-! ## Publication -/

section Publication

variable {R : StoreRules} {key : Option String} {e : ℕ} {d : Digest} {m : Process} {w : Disk × Watch}

/-- The committed manifest is on disk. -/
def Published (u : Disk × Watch) : Prop := ∃ manifest, u.2.2 = some manifest ∧ u.1.manifest = some manifest

theorem Published.rely {u v : Disk × Watch} (h : Published u) (hrely : (retryContract R key e d).rely u v) :
    Published v := by
  obtain ⟨manifest, hcommitted, hmanifest⟩ := h
  exact ⟨manifest, hrely.2.1.trans hcommitted, hrely.1.2.1.trans hmanifest⟩

theorem wp_retry_publishedReads {α : Type} {c : StoreCommand α} (hc : Command.Within (.any DiskOp.Reads) c)
    (hw : Published w) :
    Command.wp (retryContract R key e d) c (fun _ _ ↦ Published) (fun _ _ _ ↦ True) m w := by
  obtain ⟨manifest, hcommitted, hmanifest⟩ := hw
  have hwp : Command.wp (retryContract R key e d) c _ _ m w := wp_retry_reads
    (I := fun _ stored _ committed ↦ committed = some manifest ∧ stored = some manifest) hc
    ⟨hcommitted, hmanifest⟩
  exact Command.wp_mono hwp (fun _ _ _ h ↦ ⟨manifest, h.1, h.2⟩) fun _ _ _ _ ↦ trivial

theorem wp_retry_readManifest (hw : Published w) :
    Command.wp (retryContract R key e d) readManifest
      (fun read _ u ↦ Published u ∧ read = u.2.2 ∧ ∀ manifest ∈ read, validateStoreManifest manifest = .ok ())
      (fun _ _ _ ↦ True) m w := by
  rw [readManifest, Command.wp_bind]
  intro u hrely _
  have hu : Published u := hw.rely hrely
  obtain ⟨manifest, hcommitted, hmanifest⟩ := hu
  refine ⟨Or.inl trivial, ?_⟩
  rw [show (watched R).machine.perform .readManifest u = (some manifest, u) from Prod.ext hmanifest rfl]
  apply (Command.wp_bind _ _).mpr
  refine Command.wp_ofExcept _ (fun _ hvalid ↦ ?_) fun _ _ ↦ trivial
  refine ⟨⟨manifest, hcommitted, hmanifest⟩, hcommitted.symm, fun known hknown ↦ ?_⟩
  cases hknown
  cases hcheck : validateStoreManifest manifest with
  | ok => rfl
  | error message =>
      rw [hcheck] at hvalid
      cases hvalid

/-- An inspection of a store with a manifest only reads. -/
theorem wp_retry_inspectPublished (hw : Published w) :
    Command.wp (retryContract R key e d) (inspectSync R) (fun _ _ ↦ Published) (fun _ _ _ ↦ True) m w := by
  rw [inspectSync]
  apply Command.wp_seq (P := fun _ _ ↦ Published)
  · rw [ensureSyncManifest]
    apply Command.wp_seq (wp_retry_readManifest hw)
    · rintro read n u ⟨hu, rfl, -⟩
      obtain ⟨manifest, hcommitted, hmanifest⟩ := hu
      rw [hcommitted]
      exact ⟨manifest, hcommitted, hmanifest⟩
    · exact fun _ _ _ _ ↦ trivial
  · intro manifest n u hu
    have hrest : Command.Within (.any DiskOp.Reads) (do
        Command.remember fun memory : Process ↦ { memory with
          generation := max memory.generation manifest.generation }
        let inspection ← inspectCandidate R manifest
        rememberInspection R inspection
        let digest ← candidateManifestDigest R manifest inspection
        pure (⟨syncInspectionState inspection.changedFiles inspection.validationError,
          syncInspectionState inspection.changedFiles inspection.validationError = .inSync,
          manifest.workspaceId, inspection.candidateWorkspaceId, manifest.storeSchemaVersion,
          manifest.generation, manifestDigest R manifest, manifest.files, inspection.changedFiles,
          inspection.validationError, digest⟩ : SyncStatus)) :=
      .bind (.remember fun _ ↦ trivial) fun _ ↦
        .bind ((within_inspectCandidate manifest).any fun _ ho ↦ ho.1) fun _ ↦
          .bind ((within_rememberInspection _).any fun _ ho ↦ ho) fun _ ↦
            .bind (Within.anyReads (within_candidateManifestDigest _ _)) fun _ ↦ .pure _
    exact wp_retry_publishedReads hrest hu
  · exact fun _ _ _ _ ↦ trivial

/-- What was shown of the documents stays shown while they are undisturbed. -/
theorem wp_retry_later {α : Type} {c : StoreCommand α} (Φ : Disk → Prop) {receipt : Option AdoptionReceipt}
    (hc : Command.Within (.same LaterRead) c) (hw : Ready receipt w ∧ (Undisturbed w → Φ w.1)) :
    Command.wp (retryContract R key e d) c
      (fun _ _ u ↦ Ready receipt u ∧ (Undisturbed u → Φ u.1)) (fun _ _ _ ↦ True) m w := by
  have hwp := Command.Within.wp (C := retryContract R key e d) (m := m) (w := w)
    (I := fun u : Disk × Watch ↦ Ready receipt u ∧ (Undisturbed u → Φ u.1)) hc ?_ ?_ hw
  · exact Command.wp_mono hwp (fun _ _ _ h ↦ h.1) fun _ _ _ _ ↦ trivial
  · intro u v hu hrely
    refine ⟨hu.1.rely hrely, fun hcalm ↦ ?_⟩
    have hsame : u = v := retry_calms.rely u v hrely hcalm
    exact hsame ▸ hu.2 (hsame ▸ hcalm)
  · intro o u ho hu _
    exact ⟨ensure_reads ho.1.1 u, (perform_watched_later (R := R) ho u).symm ▸ hu⟩

/-- What a reading command shows of the documents holds of them while they are undisturbed. -/
theorem wp_retry_observed {α : Type} {c : StoreCommand α} {g : Docs → Except StoreError α}
    (Φ : Docs → Prop) {receipt : Option AdoptionReceipt} (hc : Command.Within (.same LaterRead) c)
    (hobserves : Command.Observes (machine R) w.1 c m (g w.1.docs) m)
    (hw : Ready receipt w ∧ (Undisturbed w → Φ w.1.docs)) :
    Command.wp (retryContract R key e d) c
      (fun a _ u ↦ Ready receipt u ∧ (Undisturbed u → Φ u.1.docs ∧ g u.1.docs = .ok a))
      (fun _ _ _ ↦ True) m w := by
  have hbeside : Command.Observes (watched R).machine w c m (g w.1.docs) m :=
    (watched R).observes hobserves (hc m) (fun o u t ho ↦ watched_own_later ho u t) w.2
  have hcalm := (@retry_calms R key e d).wp_command hc (m := m)
    fun _ ↦ hbeside
  have hlater : Command.wp (retryContract R key e d) c _ _ m w := wp_retry_later
    (fun disk ↦ Φ disk.docs) hc hw
  apply Command.wp_mono (Command.wp_and hlater hcalm)
  · intro a _ u h
    refine ⟨h.1.1, fun hu ↦ ⟨h.1.2 hu, ?_⟩⟩
    obtain ⟨houtcome, rfl⟩ := h.2 hu
    exact houtcome
  · exact fun _ _ _ _ ↦ trivial

theorem wp_retry_writeCommittedManifest (changedFiles : List DocName) (eventType : String)
    {receipt : Option AdoptionReceipt} (hw : Ready receipt w) (hadmitted : ReceiptAdmitted key e d receipt) :
    Command.wp (retryContract R key e d) (writeCommittedManifest R changedFiles eventType none)
      (fun _ _ ↦ Published) (fun _ _ _ ↦ True) m w := by
  rw [writeCommittedManifest]
  apply Command.wp_seq (wp_retry_later (fun _ ↦ True) (within_laterHashes (by decide)) ⟨hw, fun _ ↦ trivial⟩)
  · rintro hashesBefore n₁ u₁ ⟨hu₁, -⟩
    rw [if_neg (by simp)]
    apply Command.wp_seq (wp_retry_later (fun _ ↦ True) within_taskSemanticsLocked ⟨hu₁, fun _ ↦ trivial⟩)
    · rintro tasksBefore n₂ u₂ ⟨hu₂, -⟩
      apply Command.wp_seq (wp_retry_observed (fun _ ↦ True) within_validateReadyState
        observes_validateReadyState ⟨hu₂, fun _ ↦ trivial⟩)
      · rintro readiness n₃ u₃ ⟨hu₃, hverdict⟩
        apply Command.wp_seq (wp_retry_later (fun disk ↦ verdictOf R disk.docs = .ok readiness)
          (within_laterHashes (by decide)) ⟨hu₃, fun hcalm ↦ (hverdict hcalm).2⟩)
        · intro hashesAfter n₄ u₄ hu₄
          apply Command.wp_seq (wp_retry_observed (fun docs ↦ verdictOf R docs = .ok readiness)
            within_taskSemanticsLocked observes_taskSemanticsLocked hu₄)
          · intro tasksAfter n₅ u₅ hu₅
            split_ifs with hchanged hexpected
            · trivial
            · simp at hexpected
            apply Command.wp_seq (wp_retry_later (fun disk ↦ verdictOf R disk.docs = .ok readiness ∧
              tasksOf R disk.docs = .ok tasksAfter) within_readManifest hu₅)
            · intro previous n₆ u₆ hu₆
              rw [advanceGeneration, Command.wp_bind, Command.wp_bind, Command.wp_memory, Command.wp_bind,
                Command.wp_remember, Command.wp_pure, Command.wp_bind]
              intro v hrely _
              have hv : Ready receipt v := hu₆.1.rely hrely
              refine ⟨⟨hv.1, hv.2.1, ?_, fun hcalm ↦ ?_⟩, ?_⟩
              · rw [hv.2.2]
                exact hadmitted
              · cases retry_calms.rely u₆ v hrely hcalm
                obtain ⟨hverdict, htasks⟩ := hu₆.2 hcalm
                exact ⟨rfl, ⟨readiness, hverdict, rfl, rfl⟩, htasks⟩
              · have hrest : Command.Within (.any DiskOp.Reads) (do
                    Command.remember fun memory ↦ { memory with readiness := some readiness }
                    rememberInSync
                    emitEvent eventType readiness.workspaceUid changedFiles) :=
                  .bind (.remember fun _ ↦ trivial) fun _ ↦ .bind (.remember fun _ ↦ trivial) fun _ ↦
                    .remember fun _ ↦ trivial
                exact wp_retry_publishedReads hrest ⟨_, rfl, rfl⟩
            · exact fun _ _ _ _ ↦ trivial
          · exact fun _ _ _ _ ↦ trivial
        · exact fun _ _ _ _ ↦ trivial
      · exact fun _ _ _ _ ↦ trivial
    · exact fun _ _ _ _ ↦ trivial
  · exact fun _ _ _ _ ↦ trivial

theorem wp_retry_adoptReviewed {status : SyncStatus} {receipt : Option AdoptionReceipt}
    (hw : Ready receipt w) (hadmitted : ReceiptAdmitted key e d receipt) :
    Command.wp (retryContract R key e d) (adoptReviewed R status key e d)
      (fun _ _ _ ↦ True) (fun _ _ _ ↦ True) m w := by
  rw [adoptReviewed]
  apply Command.wp_seq (wp_retry_inspects within_inspectSync hw)
  · intro current n u hu
    split_ifs with hchanged
    · trivial
    apply Command.wp_seq (wp_retry_writeCommittedManifest _ _ hu hadmitted)
    · intro _ n₁ u₁ hu₁
      apply Command.wp_seq (wp_retry_readManifest hu₁)
      · rintro read n₂ u₂ ⟨⟨manifest, hcommitted, hmanifest⟩, rfl, hvalid⟩
        rw [hcommitted]
        apply (Command.wp_bind _ _).mpr
        intro v hrely _
        have hv : v.2.2 = some manifest := hrely.2.1.trans hcommitted
        refine ⟨⟨manifest, hv, hvalid manifest hcommitted, rfl⟩, ?_⟩
        have hpublished : Published ((watched R).machine.perform
            (.writeReceipt (adoptionReceipt R key e d manifest)) v).2 :=
          ⟨manifest, hv, hrely.1.2.1.trans hmanifest⟩
        rw [syncStatus]
        apply Command.wp_seq (wp_retry_inspectPublished hpublished)
        · exact fun _ _ _ _ ↦ trivial
        · exact fun _ _ _ _ ↦ trivial
      · exact fun _ _ _ _ ↦ trivial
    · exact fun _ _ _ _ ↦ trivial
  · exact fun _ _ _ _ ↦ trivial

/-- A receipt that was read is readable. -/
theorem wp_retry_readAdoptionReceipt (hw : Settled w) :
    Command.wp (retryContract R key e d) readAdoptionReceipt
      (fun read _ u ↦ Ready read u ∧ ∀ receipt ∈ read, receipt.Readable) (fun _ _ _ ↦ True) m w := by
  rw [readAdoptionReceipt, Command.wp_bind]
  intro u hrely _
  have hu : Ready u.1.receipt u := ⟨hrely.2.1.trans hw.1, hrely.1.1.trans hw.2, rfl⟩
  refine ⟨Or.inl trivial, ?_⟩
  rw [show (watched R).machine.perform .readReceipt u = (u.1.receipt, u) from rfl]
  cases hreceipt : u.1.receipt with
  | none =>
      refine ⟨hreceipt ▸ hu, fun receipt hmem ↦ ?_⟩
      cases hmem
  | some receipt =>
      change Command.wp (retryContract R key e d)
        (if receipt.version ≠ 1 ∨ ¬receipt.idempotencyKey.all isAdoptionKey = true then
          Command.throw (StoreError.corrupt "sync adoption receipt is invalid")
        else if ¬isCanonicalUuid receipt.workspaceId = true then
          Command.throw (StoreError.corrupt "sync_adoption_receipt.workspace_id must be a canonical UUID string")
        else pure (some receipt) : StoreCommand (Option AdoptionReceipt)) _ _ m u
      split_ifs with hversion hworkspace
      · trivial
      · simp only [not_or, not_not] at hversion
        refine ⟨hreceipt ▸ hu, fun known hmem ↦ ?_⟩
        cases hmem
        exact ⟨hversion.1, hversion.2, hworkspace⟩
      · trivial

theorem wp_retry_adoptLocked (hw : Settled w) :
    Command.wp (retryContract R key e d) (adoptLocked R e d key)
      (fun _ _ _ ↦ True) (fun _ _ _ ↦ True) m w := by
  rw [adoptLocked]
  apply Command.wp_seq (wp_retry_settledReads within_inspectSync hw)
  · intro status n u hu
    apply Command.wp_seq (wp_retry_readAdoptionReceipt hu)
    · rintro receipt n₁ u₁ ⟨hu₁, hreadable⟩
      rw [Command.wp_bind]
      refine Command.wp_ofExcept _ (fun _ hguard ↦ ?_) fun _ _ ↦ trivial
      have hadmitted : ReceiptAdmitted key e d receipt := ⟨hreadable, hguard⟩
      apply Command.wp_seq (wp_retry_inspects
        (Within.inspects (Within.reads (within_adoptionReplay _ _ _ _))) hu₁)
      · intro replayed n₂ u₂ hu₂
        split_ifs with hreplayed hrefused
        · exact Command.wp_mono (wp_retry_inspects within_syncStatus hu₂) (fun _ _ _ _ ↦ trivial)
            fun _ _ _ _ ↦ trivial
        · trivial
        · exact wp_retry_adoptReviewed hu₂ hadmitted
      · exact fun _ _ _ _ ↦ trivial
    · exact fun _ _ _ _ ↦ trivial
  · exact fun _ _ _ _ ↦ trivial

theorem wp_retry_adoptExternalChange (hw : Opened w) :
    Command.wp (retryContract R key e d) (adoptExternalChange R e d key)
      (fun _ _ _ ↦ True) (fun _ _ _ ↦ True) m w := by
  rw [adoptExternalChange]
  split_ifs
  · rw [transaction]
    apply Command.wp_seq (wp_retry_recoverLocked hw)
    · exact fun _ _ _ h ↦ wp_retry_adoptLocked h
    · exact fun _ _ _ _ ↦ trivial
  · trivial

end Publication

/-! ## What is on disk afterwards -/

section Afterwards

variable {R : StoreRules} {key : Option String} {e : ℕ} {d : Digest} {manifest : Manifest}
variable {receipt : Option AdoptionReceipt}

/-- The manifest stays, and the receipt is what it was or the one of this manifest. -/
structure MadeDurable (R : StoreRules) (key : Option String) (e : ℕ) (d : Digest) (published : Manifest)
    (receipt : Option AdoptionReceipt) (u : Disk × Watch) : Prop where
  committed : u.2.2 = some published
  manifest : u.1.manifest = some published
  journal : u.1.journal = none
  receipt : u.1.receipt = receipt ∨ u.1.receipt = some (adoptionReceipt R key e d published)

theorem MadeDurable.env {u v : Disk × Watch} (h : MadeDurable R key e d manifest receipt u)
    (move : (watched R).Env Disk.ExternalEdit u v) : MadeDurable R key e d manifest receipt v := by
  obtain ⟨⟨hjournal, hmanifest, hreceipt⟩, hwatch⟩ := move
  constructor
  · rw [hwatch]
    exact h.committed
  · exact hmanifest.trans h.manifest
  · exact hjournal.trans h.journal
  · rw [hreceipt]
    exact h.receipt

theorem MadeDurable.own {o : DiskOp} {u : Disk × Watch} (h : MadeDurable R key e d manifest receipt u)
    (hensure : (retryContract R key e d).ensure o u) :
    MadeDurable R key e d manifest receipt ((watched R).machine.perform o u).2 := by
  have hopen : u.2.2 ≠ none := by simp [h.committed]
  have hreads : o.Reads → MadeDurable R key e d manifest receipt ((watched R).machine.perform o u).2 := by
    intro ho
    have hdisk : ((watched R).machine.perform o u).2.1 = u.1 := Disk.perform_reads ho u.1
    have hwatch : ((watched R).machine.perform o u).2.2.2 = u.2.2 := watched_own_reads ho u.1 u.2
    constructor
    · exact hwatch.trans h.committed
    · exact (congrArg Disk.manifest hdisk).trans h.manifest
    · exact (congrArg Disk.journal hdisk).trans h.journal
    · rw [hdisk]
      exact h.receipt
  cases o with
  | writeManifest site written =>
      cases site with
      | committed => exact absurd hensure.1 hopen
      | _ => exact absurd (hensure.resolve_left id) hopen
  | writeReceipt written =>
      obtain ⟨known, hknown, -, hwritten⟩ := hensure
      cases h.committed.symm.trans hknown
      exact ⟨h.committed, h.manifest, h.journal, Or.inr (congrArg some hwritten)⟩
  | replaceDoc _ _ _ => exact absurd (hensure.resolve_left id) hopen
  | writeJournal _ => exact absurd (hensure.resolve_left id) hopen
  | unlinkJournal => exact absurd (hensure.resolve_left id) hopen
  | _ => exact hreads trivial

theorem MadeDurable.run {α : Type} {p q : Prog diskSignature α} {u v : Disk × Watch}
    {events : List (Event (watched R).machine)} (h : MadeDurable R key e d manifest receipt u)
    (hrun : Run (watched R).machine ((watched R).Env Disk.ExternalEdit) p u events q v)
    (hensure : ∀ o x, .own o x ∈ events → (retryContract R key e d).ensure o x) :
    MadeDurable R key e d manifest receipt v :=
  hrun.keeps h (fun _ _ move h ↦ h.env move) fun o x hmem h ↦ h.own (hensure o x hmem)

/-- After its receipt was written, an adoption leaves that receipt. -/
theorem MadeDurable.receipted {α : Type} {p q : Prog diskSignature α} {u v : Disk × Watch}
    {events : List (Event (watched R).machine)} (h : MadeDurable R key e d manifest receipt u)
    (hrun : Run (watched R).machine ((watched R).Env Disk.ExternalEdit) p u events q v)
    (hensure : ∀ o x, .own o x ∈ events → (retryContract R key e d).ensure o x)
    {written : AdoptionReceipt} {x : Disk × Watch} (hmem : .own (.writeReceipt written) x ∈ events) :
    validateStoreManifest manifest = .ok () ∧
      v.1.receipt = some (adoptionReceipt R key e d manifest) := by
  obtain ⟨first, last, rfl⟩ := List.append_of_mem hmem
  obtain ⟨p', y, hfirst, hlast⟩ := hrun.split first
  have hy : MadeDurable R key e d manifest receipt y :=
    h.run hfirst fun o z hz ↦ hensure o z (List.mem_append_left _ hz)
  cases hlast with
  | own hlast =>
      obtain ⟨known, hknown, hvalid, rfl⟩ := hensure _ _ hmem
      cases hy.committed.symm.trans hknown
      have hafter : MadeDurable R key e d manifest (some (adoptionReceipt R key e d manifest))
          ((watched R).machine.perform (.writeReceipt (adoptionReceipt R key e d manifest)) x).2 :=
        ⟨hy.committed, hy.manifest, hy.journal, Or.inl rfl⟩
      have hv := hafter.run hlast fun o z hz ↦
        hensure o z (List.mem_append_right _ (List.mem_cons_of_mem _ hz))
      exact ⟨hvalid, hv.receipt.elim id id⟩

end Afterwards

/-! ## The repetition -/

section Repetition

variable {R : StoreRules} {key : Option String} {e : ℕ} {d : Digest} {manifest : Manifest}
variable {disk : Disk} {m : Process}

theorem observes_readAdoptionReceipt (hreadable : ∀ receipt ∈ disk.receipt, receipt.Readable) :
    Command.Observes (machine R) disk readAdoptionReceipt m (.ok disk.receipt) m := by
  have hread : Command.Observes (machine R) disk (step .readReceipt) m (.ok disk.receipt) m := ⟨rfl, rfl⟩
  apply Command.Observes.bind hread
  cases hreceipt : disk.receipt with
  | none => exact .pure none
  | some receipt =>
      obtain ⟨hversion, hkey, hworkspace⟩ := hreadable receipt hreceipt
      dsimp only
      rw [if_neg (by simp [hversion, hkey]), if_neg (by simp [hworkspace])]
      exact .pure (some receipt)

/-- A store whose manifest names its documents recognizes the adoption that published it. -/
structure Recognizes (R : StoreRules) (key : Option String) (e : ℕ) (d : Digest) (manifest : Manifest)
    (disk : Disk) : Prop where
  stored : disk.manifest = some manifest
  valid : validateStoreManifest manifest = .ok ()
  journal : disk.journal = none
  complete : Complete disk.docs
  files : manifest.files = hashesOf R disk.docs
  admitted : ReceiptAdmitted key e d disk.receipt
  adopted : (∃ receipt, disk.receipt = some receipt ∧ receiptMatches R receipt manifest e d = true) ∨
    (manifest.generation = e + 1 ∧ candidateDigest R (reconstructedCandidate manifest e) = d)

theorem Recognizes.observes_adoptionReplay (h : Recognizes R key e d manifest disk) {status : SyncStatus}
    (hstatus : status.status = .inSync) :
    Command.Observes (machine R) disk (adoptionReplay R disk.receipt status e d) m (.ok true) m := by
  rw [adoptionReplay, if_neg (not_not.mpr hstatus)]
  apply Command.Observes.bind (observes_readManifest h.stored h.valid)
  have hadopted : (disk.receipt.any (fun receipt ↦ receiptMatches R receipt manifest e d) ||
      (manifest.generation = e + 1 ∧
        candidateDigest R (reconstructedCandidate manifest e) = d : Bool)) = true := by
    rcases h.adopted with ⟨receipt, hreceipt, hmatches⟩ | hcandidate
    · simp [hreceipt, hmatches]
    · simp [hcandidate]
  dsimp only
  rw [hadopted]
  exact .pure true

/-- The repetition of an adoption that is recognized reports success and leaves everything as it is. -/
theorem Recognizes.observes_adoptExternalChange (h : Recognizes R key e d manifest disk)
    (hkey : key.all isAdoptionKey = true) :
    ∃ report n, Command.Observes (machine R) disk (adoptExternalChange R e d key) m (.ok report) n := by
  obtain ⟨status, hstatus, -, hinspect⟩ :=
    observes_inspectSync (m := m) h.stored h.valid h.complete h.files
  obtain ⟨again, -, -, hreport⟩ := observes_inspectSync (m := rememberedInSync m manifest)
    h.stored h.valid h.complete h.files
  have hguard : Command.Observes (machine R) disk
      (Command.ofExcept (guardAdoptionKey disk.receipt key e d)) (rememberedInSync m manifest) (.ok ())
      (rememberedInSync m manifest) := by
    rw [h.admitted.guarded]
    exact .pure ()
  have hreplayed : Command.Observes (machine R) disk (adoptionReplay R disk.receipt status e d)
      (rememberedInSync m manifest) (.ok true) (rememberedInSync m manifest) :=
    h.observes_adoptionReplay hstatus
  rw [adoptExternalChange, if_neg (not_not.mpr hkey)]
  exact ⟨_, _, .bind (recoverLocked_of_no_journal h.journal) (.bind hinspect
    (.bind (observes_readAdoptionReceipt h.admitted.readable) (.bind hguard
      (.bind hreplayed (.bind hreport (.pure _))))))⟩

end Repetition

/-! ## The same key for something else -/

section Conflict

variable {R : StoreRules} {key : String} {e : ℕ} {d : Digest} {m n : Process}
variable {disk after : Disk} {events : List (Event (machine R))}

theorem within_recoverLocked : Command.Within (.any Prepares) (recoverLocked R) := by
  apply Command.Within.bind (within_step trivial)
  intro present
  apply Command.Within.ite
  · apply Command.Within.bind (within_step trivial)
    intro journal
    cases journal with
    | none => exact .throw _
    | some journal =>
        apply Command.Within.bind (within_accept _)
        intro writes
        apply Command.Within.bind within_readManifest_prepares
        intro baseline
        apply Command.Within.bind (Within.prepares (Within.inspects (Within.reads
          (within_assertRecoveryTargetsSafe baseline writes))))
        intro _
        apply Command.Within.bind (within_collectExpectations_prepares writes)
        intro expectations
        exact .bind (within_replaceDocuments_prepares expectations writes) fun _ ↦
          within_finishRecovery_prepares _ _
  · exact .pure ()

/-- What only prepares an adoption leaves the receipt as it is. -/
theorem receipt_of_run {α : Type} {p q : Prog diskSignature α} (hprepares : ∀ o u, .own o u ∈ events → Prepares o)
    (hrun : Run (machine R) Disk.ExternalEdit p disk events q after) : after.receipt = disk.receipt := by
  apply hrun.keeps (I := fun u : Disk ↦ u.receipt = disk.receipt) rfl
  · exact fun u v move h ↦ move.2.2.trans h
  · intro o u hmem h
    have ho := hprepares o u hmem
    cases o with
    | writeReceipt _ => exact ho.elim
    | replaceDoc name expectation value =>
        change (u.perform R.sha256 (.replaceDoc name expectation value)).2.receipt = _
        rw [Disk.perform]
        split_ifs
        · exact h
        · exact h
    | _ => exact h

theorem prepares_of_run {α : Type} {c : StoreCommand α} {value : Except StoreError α × Process}
    (hc : Command.Within (.any Prepares) c)
    (hrun : Run (machine R) Disk.ExternalEdit (c m) disk events (.pure value) after) :
    (∀ o u, .own o u ∈ events → Prepares o) ∧ after.receipt = disk.receipt := by
  have hprepares : ∀ o u, .own o u ∈ events → Prepares o := (Prog.Within.run (hc m) hrun).1
  exact ⟨hprepares, receipt_of_run hprepares hrun⟩

theorem wp_editor_readAdoptionReceipt {receipt : AdoptionReceipt} (hreceipt : disk.receipt = some receipt)
    (hreadable : receipt.Readable) :
    Command.wp (besideEditor R) readAdoptionReceipt (fun read _ _ ↦ read = some receipt)
      (fun _ _ _ ↦ False) m disk := by
  rw [readAdoptionReceipt, Command.wp_bind]
  intro u hrely _
  refine ⟨trivial, ?_⟩
  rw [show (machine R).perform .readReceipt u = (some receipt, u) from
    Prod.ext (hrely.2.2.trans hreceipt) rfl]
  obtain ⟨hversion, hkey, hworkspace⟩ := hreadable
  change Command.wp (besideEditor R)
    (if receipt.version ≠ 1 ∨ ¬receipt.idempotencyKey.all isAdoptionKey = true then
      Command.throw (StoreError.corrupt "sync adoption receipt is invalid")
    else if ¬isCanonicalUuid receipt.workspaceId = true then
      Command.throw (StoreError.corrupt "sync_adoption_receipt.workspace_id must be a canonical UUID string")
    else pure (some receipt) : StoreCommand (Option AdoptionReceipt)) _ _ m u
  rw [if_neg (by simp [hversion, hkey]), if_neg (by simp [hworkspace])]
  rfl

/-- A receipt with this key for another candidate ends every call as a conflict, unless the recovery
or the inspection before it raises. -/
theorem run_adoption_conflict {receipt : AdoptionReceipt} {outcome : Except StoreError SyncReport}
    (hreceipt : disk.receipt = some receipt) (hreadable : receipt.Readable)
    (hkey : receipt.idempotencyKey = some key)
    (hother : receipt.expectedGeneration ≠ e ∨ receipt.expectedManifestDigest ≠ d)
    (hrun : Run (machine R) Disk.ExternalEdit (adoptExternalChange R e d (some key) m) disk events
      (.pure (outcome, n)) after) :
    after.receipt = disk.receipt ∧ (∀ u manifest, .own (.writeManifest .committed manifest) u ∉ events) ∧
      ((∃ message, outcome = .error (.adoptionConflict message)) ∨ ∃ error, outcome = .error error ∧
        Run (machine R) Disk.ExternalEdit (transaction R (inspectSync R) m) disk events
          (.pure (.error error, n)) after) := by
  have hadmitted : isAdoptionKey key = true := by
    have hall := hreadable.key
    rw [hkey] at hall
    exact hall
  have hnone : ∀ events : List (Event (machine R)), (∀ o u, .own o u ∈ events → Prepares o) →
      ∀ u manifest, .own (.writeManifest .committed manifest) u ∉ events :=
    fun events hevents u manifest hmem ↦ hevents _ _ hmem rfl
  rw [adoptExternalChange, if_neg (by simp [hadmitted])] at hrun
  rw [transaction] at hrun ⊢
  rcases Command.run_bind_cases hrun with ⟨error, rfl, hraised⟩ | ⟨_, m₁, u₁, first, rest, rfl, hfirst, hrest⟩
  · obtain ⟨hprepares, hkept⟩ := prepares_of_run within_recoverLocked hraised
    exact ⟨hkept, hnone _ hprepares, .inr ⟨error, rfl, Command.run_bind_of_error hraised⟩⟩
  obtain ⟨hprepares₁, hkept₁⟩ := prepares_of_run within_recoverLocked hfirst
  rcases Command.run_bind_cases hrest with ⟨error, rfl, hraised⟩ | ⟨status, m₂, u₂, second, last, rfl, hsecond, hlast⟩
  · obtain ⟨hprepares₂, hkept₂⟩ := prepares_of_run (Within.prepares within_inspectSync) hraised
    refine ⟨hkept₂.trans hkept₁, hnone _ ?_, .inr ⟨error, rfl, hfirst.bind hraised⟩⟩
    intro o u hmem
    exact (List.mem_append.mp hmem).elim (hprepares₁ o u) (hprepares₂ o u)
  obtain ⟨hprepares₂, hkept₂⟩ := prepares_of_run (Within.prepares within_inspectSync) hsecond
  have hreads : Command.Within (.any Prepares) readAdoptionReceipt :=
    Within.prepares (Within.inspects (Within.reads within_readAdoptionReceipt))
  have hwp := wp_editor_readAdoptionReceipt (R := R) (m := m₂)
    ((hkept₂.trans hkept₁).trans hreceipt) hreadable
  have hrefused : guardAdoptionKey (some receipt) (some key) e d =
      .error (.adoptionConflict "Idempotency-Key was already used for a different sync candidate") := by
    rw [guardAdoptionKey, if_pos]
    simp [hkey, hother]
  rcases Command.run_bind_cases hlast with
    ⟨error, rfl, hraised⟩ | ⟨read, m₃, u₃, third, final, rfl, hthird, hfinal⟩
  · obtain ⟨-, v, -, hfalse⟩ := wp_run hwp hraised (fun _ _ h ↦ h) fun _ _ _ ↦ trivial
    exact hfalse.elim
  · obtain ⟨hprepares₃, hkept₃⟩ := prepares_of_run hreads hthird
    obtain ⟨-, v, -, hread⟩ := wp_run hwp hthird (fun _ _ h ↦ h) fun _ _ _ ↦ trivial
    cases (show read = some receipt from hread)
    rw [hrefused] at hfinal
    obtain ⟨hquiet, houtcome⟩ := Prog.pure_of_run hfinal
    cases houtcome
    refine ⟨?_, hnone _ ?_, .inl ⟨_, rfl⟩⟩
    · rw [receipt_of_run (fun o u hmem ↦ absurd hmem (hquiet o u)) hfinal, hkept₃, hkept₂, hkept₁]
    · intro o u hmem
      simp only [List.mem_append] at hmem
      rcases hmem with h | h | h | h
      · exact hprepares₁ o u h
      · exact hprepares₂ o u h
      · exact hprepares₃ o u h
      · exact absurd h (hquiet o u)

end Conflict




/-! ## Idempotence -/

/-- Validation admits only canonical workspace ids and the Task ids and revisions a manifest may hold. -/
def AdmitsIdentities (R : StoreRules) : Prop :=
  ∀ docs readiness tasks, verdictOf R docs = .ok readiness → tasksOf R docs = .ok tasks →
    isCanonicalUuid readiness.workspaceUid = true ∧ validateStoreManifestTasks tasks = .ok ()

/-- The adoption wrote its receipt. -/
def Receipted {R : StoreRules} (events : List (Event (machine R))) : Prop :=
  ∃ receipt u, .own (.writeReceipt receipt) u ∈ events

/-- What is known when an adoption adopts the candidate that was reviewed: no document was edited since
its last inspection first read it, and the process was not ahead of the committed generation. -/
structure AdoptsReviewed (R : StoreRules) (m : Process) (disk u : Disk)
    (before : List (Event (machine R))) : Prop where
  held : ∀ name, (held R).after before (fun _ ↦ false) name = true
  notAhead : ∀ manifest, disk.manifest = some manifest → m.generation ≤ manifest.generation
  schema : disk.journal.isSome → ∀ manifest, disk.manifest = some manifest →
    manifest.storeSchemaVersion = storeSchemaVersion
  previous : ∀ manifest, u.manifest = some manifest → manifest.storeSchemaVersion = storeSchemaVersion

section Idempotence

variable {R : StoreRules} {key : Option String} {e : ℕ} {d : Digest} {m : Process}
variable {disk after u : Disk} {before rest : List (Event (machine R))} {manifest : Manifest}
variable {q : Prog diskSignature (Except StoreError SyncReport × Process)}

/-- What an adoption leaves behind from the moment its manifest is durable. -/
theorem committed_run
    (hrun : Run (machine R) Disk.ExternalEdit (adoptExternalChange R e d key m) disk
      (before ++ .own (.writeManifest .committed manifest) u :: rest) q after) :
    after.manifest = some manifest ∧ after.journal = none ∧ ReceiptAdmitted key e d u.receipt ∧
      (after.receipt = u.receipt ∨ after.receipt = some (adoptionReceipt R key e d manifest)) ∧
      (Receipted rest → validateStoreManifest manifest = .ok () ∧
        after.receipt = some (adoptionReceipt R key e d manifest)) ∧
      ((∀ name, (held R).after before (fun _ ↦ false) name = true) → Faithful R manifest u.docs) := by
  let start : Watch := (fun _ ↦ false, none)
  have hwp := @wp_retry_adoptExternalChange R key e d m (disk, start) rfl
  have hwatched := (watched R).run hrun start
  obtain ⟨hensure, -⟩ := wp_run hwp hwatched (fun u v h ↦ retryContract_rely h.1 h.2) fun _ _ _ ↦ trivial
  have hcommit := hensure _ _ ((watched R).own_mem_annotate before rest start)
  obtain ⟨hopen, hjournal, hadmitted, hfaithful⟩ := hcommit
  have hcalm : (∀ name, (held R).after before (fun _ ↦ false) name = true) → Undisturbed
      (u, (watched R).after before start) := by
    intro hheld name
    rw [watched_after]
    exact hheld name
  rw [Recorder.annotate_append] at hwatched hensure
  obtain ⟨p', x, -, hlast⟩ := hwatched.split _
  change Run (watched R).machine _ p' x (.own (.writeManifest .committed manifest)
    (u, (watched R).after before start) :: (watched R).annotate rest _) q _ at hlast
  cases hlast with
  | own hlast =>
      have hstart : MadeDurable R key e d manifest u.receipt ((watched R).machine.perform
          (.writeManifest .committed manifest) (u, (watched R).after before start)).2 :=
        ⟨rfl, rfl, hjournal, .inl rfl⟩
      have hrest : ∀ o x, .own o x ∈ (watched R).annotate rest _ → (retryContract R key e d).ensure o x :=
        fun o x hmem ↦ hensure o x (List.mem_append_right _ (List.mem_cons_of_mem _ hmem))
      have hdurable := hstart.run hlast hrest
      refine ⟨hdurable.manifest, hdurable.journal, hadmitted, hdurable.receipt, ?_, fun hheld ↦
        hfaithful (hcalm hheld)⟩
      rintro ⟨receipt, v, hmem⟩
      obtain ⟨first, last, rfl⟩ := List.append_of_mem hmem
      exact hstart.receipted hlast hrest ((watched R).own_mem_annotate first last _)

theorem Faithful.valid (hR : AdmitsIdentities R) {docs : Docs} (h : Faithful R manifest docs)
    (hfiles : ∀ name, (manifest.files name).isSome) : validateStoreManifest manifest = .ok () := by
  obtain ⟨readiness, hverdict, hworkspace, hschema⟩ := h.verdict
  obtain ⟨hcanonical, htasks⟩ := hR docs readiness manifest.tasks hverdict h.tasks
  apply validateStoreManifest_of_full h.version _ _ hfiles htasks
  · rw [hschema]
    exact schemaVersion_of_verdictOf hverdict
  · rw [hworkspace]
    exact hcanonical

/-- An adoption of what was reviewed publishes the next generation of the reviewed candidate. -/
theorem reviewed_run
    (hrun : Run (machine R) Disk.ExternalEdit (adoptExternalChange R e d key m) disk
      (before ++ .own (.writeManifest .committed manifest) u :: rest) q after)
    (hreviewed : AdoptsReviewed R m disk u before) (hfaithful : Faithful R manifest u.docs) :
    (∀ name, (manifest.files name).isSome) ∧ manifest.generation = e + 1 ∧
      candidateDigest R (reconstructedCandidate manifest e) = d := by
  have hwp := wp_adopt_adoptExternalChange (R := R) (e := e) (d := d) (m := m)
    (w := (disk, fun _ ↦ false)) key hreviewed.notAhead hreviewed.schema
  obtain ⟨hensure, -⟩ := wp_run hwp ((held R).run hrun fun _ ↦ false)
    (fun u v h ↦ adoptContract_rely h.1 h.2) fun _ _ _ ↦ trivial
  obtain ⟨previous, hprevious, hadopted⟩ :=
    hensure _ _ ((held R).own_mem_annotate before rest fun _ ↦ false) hreviewed.held
  obtain ⟨docs, hcomplete, hfiles, -⟩ := hadopted.bodies
  obtain ⟨readiness, hverdict, -, hschema⟩ := hfaithful.verdict
  refine ⟨fun name ↦ ?_, hadopted.generation, ?_⟩
  · obtain ⟨body, hbody⟩ := hcomplete name
    rw [hfiles, hashesOf, hbody]
    rfl
  · have hsame : previous.storeSchemaVersion = manifest.storeSchemaVersion := by
      rw [hreviewed.previous previous hprevious, hschema, schemaVersion_of_verdictOf hverdict]
    rw [← hadopted.reviewed, hsame]
    rfl

theorem receiptMatches_adoptionReceipt :
    receiptMatches R (adoptionReceipt R key e d manifest) manifest e d = true := by
  simp [receiptMatches, adoptionReceipt]

theorem guardAdoptionKey_adoptionReceipt :
    guardAdoptionKey (some (adoptionReceipt R key e d manifest)) key e d = .ok () := by
  rw [guardAdoptionKey, if_neg]
  simp [adoptionReceipt]

theorem adoptionReceipt_readable (hkey : key.all isAdoptionKey = true)
    (hvalid : validateStoreManifest manifest = .ok ()) :
    (adoptionReceipt R key e d manifest).Readable where
  version := rfl
  key := hkey
  workspaceId := by
    obtain ⟨roster, hheader, -⟩ := Outcome.bind_eq_ok.mp hvalid
    unfold validateStoreManifestHeader at hheader
    change isCanonicalUuid manifest.workspaceId = true
    cases hroster : versionRoster manifest.storeSchemaVersion with
    | none =>
        rw [hroster] at hheader
        split_ifs at hheader
    | some known =>
        rw [hroster] at hheader
        split_ifs at hheader with hversion hcanonical
        exact hcanonical

end Idempotence

section Sample

theorem valuesOf_eq {R : StoreRules} {docs : Docs} {values : DocName → Json}
    (h : valuesOf R docs = .ok values) (name : DocName) : jsonOf R docs name = .ok (values name) := by
  have hfold : ∀ (names : List DocName) (start : DocName → Json),
      names.foldlM (requiredJsonOf R docs) start = .ok values →
        (name ∈ names → jsonOf R docs name = .ok (values name)) ∧
        (name ∉ names → values name = start name) := by
    intro names
    induction names with
    | nil =>
        intro start hstart
        cases hstart
        exact ⟨fun hmem ↦ absurd hmem List.not_mem_nil, fun _ ↦ rfl⟩
    | cons head names ih =>
        intro start hstart
        rw [List.foldlM_cons] at hstart
        obtain ⟨next, hnext, hrest⟩ := Outcome.bind_eq_ok.mp hstart
        obtain ⟨hmem, hother⟩ := ih next hrest
        unfold requiredJsonOf at hnext
        cases hjson : jsonOf R docs head with
        | error error =>
            rw [hjson] at hnext
            cases error <;> cases hnext
        | ok value =>
            rw [hjson] at hnext
            cases hnext
            constructor
            · intro hname
              by_cases hlater : name ∈ names
              · exact hmem hlater
              · have hhead : name = head := (List.mem_cons.mp hname).resolve_right hlater
                rw [hother hlater, hhead, Function.update_self]
                exact hjson
            · intro hname
              rw [hother fun hlater ↦ hname (List.mem_cons_of_mem _ hlater)]
              exact Function.update_of_ne (fun heq ↦ hname (by simp [heq])) ..
  exact (hfold DocName.defaults _ h).1 (DocName.mem_defaults name)

/-- What the sample store can decode. -/
def reviewValues : List Json :=
  defaultFor sampleWorkspaceId .backlog ::
    (DocName.defaults.map (defaultFor sampleWorkspaceId) ++ [sampleBacklog, sampleNotes])

theorem mem_reviewValues {docs : Docs} {name : DocName} {value : Json}
    (h : jsonOf reviewRules docs name = .ok value) : value ∈ reviewValues := by
  unfold jsonOf at h
  cases hbody : docs name with
  | none =>
      rw [hbody] at h
      cases h
  | some body =>
      simp only [hbody] at h
      cases hloads : reviewRules.loads body with
      | none =>
          rw [hloads] at h
          cases h
      | some known =>
          simp only [hloads] at h
          split_ifs at h
          cases h
          have hfound : reviewValues.find? (fun known ↦ known.serializedJsonBytes = body) = some value :=
            hloads
          exact List.mem_of_find?_eq_some hfound

/-- A value whose id, where it is a text, is a canonical one. -/
def hasCanonicalId (value : Json) : Bool :=
  match value.get? "id" with
  | some (.str id) => isCanonicalUuid id
  | _ => true

/-- A value whose Tasks, where it has any, a manifest may name. -/
def hasValidTasks (value : Json) : Bool :=
  match taskSemantics reviewRules.sha256 value with
  | .ok tasks => (validateStoreManifestTasks tasks).toBool
  | .error _ => true

theorem reviewRules_admits : AdmitsIdentities reviewRules := by
  intro docs readiness tasks hverdict htasks
  obtain ⟨values, hvalues, hjudge⟩ := Outcome.bind_eq_ok.mp hverdict
  constructor
  · have hids : reviewValues.all hasCanonicalId = true := by decide
    have hworkspace := List.all_eq_true.mp hids _ (mem_reviewValues (valuesOf_eq hvalues .workspace))
    cases hadmission : admitShapes values with
    | error message =>
        rw [judgeDocumentValues, show reviewRules.validateDocumentValues values = _ from hadmission] at hjudge
        cases hjudge
    | ok admission =>
        rw [judgeDocumentValues, show reviewRules.validateDocumentValues values = _ from hadmission] at hjudge
        cases hjudge
        unfold admitShapes at hadmission
        split at hadmission
        · cases hadmission
        · split at hadmission
          · next hid _ =>
              cases hadmission
              rw [hasCanonicalId, hid] at hworkspace
              exact hworkspace
          · cases hadmission
  · have hbacklogs : reviewValues.all hasValidTasks = true := by decide
    obtain ⟨backlog, hbacklog, hsemantics⟩ := Outcome.bind_eq_ok.mp htasks
    have hchecked := List.all_eq_true.mp hbacklogs _ (mem_reviewValues hbacklog)
    cases hknown : taskSemantics reviewRules.sha256 backlog with
    | error message =>
        rw [hknown] at hsemantics
        cases hsemantics
    | ok known =>
        rw [hknown] at hsemantics
        rw [hasValidTasks, hknown] at hchecked
        cases hsemantics
        cases hvalid : validateStoreManifestTasks tasks with
        | ok => rfl
        | error message =>
            simp only [hvalid] at hchecked
            cases hchecked

def sampleKey : String := "adoption-1"

theorem sampleKey_admitted : Option.all isAdoptionKey (some sampleKey) = true := by decide

/-- The adoption of the reviewed notes, stopped when its manifest is durable. -/
theorem crash_before_receipt :
    ∃ before manifest q, Run (machine reviewRules) Disk.ExternalEdit
        (adoptExternalChange reviewRules 1 reviewedDigest (some sampleKey) .fresh) reviewedDisk
        (before ++ [.own (.writeManifest .committed manifest) reviewedDisk]) q
        { reviewedDisk with manifest := some manifest } ∧
      AdoptsReviewed reviewRules .fresh reviewedDisk reviewedDisk before ∧
      manifest.files = hashesOf reviewRules reviewedDisk.docs := by
  obtain ⟨readiness, hadmissible⟩ := reviewedDisk_admissible
  obtain ⟨before, rest, manifest, ⟨outcome, after, hrun, -⟩, hfiles, -, hreads, hquiet⟩ :=
    reviewedDisk_returns sampleKey_admitted (.refl reviewedDisk) reviewedDisk_complete
      hadmissible.verdict hadmissible.identity reviewedDisk_tasks (by decide +kernel)
  obtain ⟨p', x, hfirst, hlast⟩ := hrun.split before
  cases hlast with
  | own hlast =>
      refine ⟨before, manifest, _, hfirst.trans (.own (.refl _ _)), ⟨fun name ↦ ?_, ?_, nofun, ?_⟩, hfiles⟩
      · apply held_of_mem _ (hreads name)
        intro u v hmem
        rw [(hquiet u v hmem).1, (hquiet u v hmem).2]
      · exact fun _ _ ↦ Nat.zero_le _
      · intro previous hprevious
        cases hprevious
        rfl

/-- Without a receipt, a call for another candidate is refused as one that nobody reviewed. -/
theorem observes_stale_adoption {R : StoreRules} {key : Option String} {e : ℕ} {d : Digest} {m : Process}
    {manifest : Manifest} {disk : Disk} (hkey : key.all isAdoptionKey = true)
    (hmanifest : disk.manifest = some manifest) (hvalid : validateStoreManifest manifest = .ok ())
    (hjournal : disk.journal = none) (hreceipt : disk.receipt = none) (hcomplete : Complete disk.docs)
    (hfiles : manifest.files = hashesOf R disk.docs) (hgeneration : manifest.generation ≠ e + 1) :
    ∃ status n, Command.Observes (machine R) disk (adoptExternalChange R e d key) m
      (.error (.externalChange status)) n := by
  obtain ⟨status, hstatus, -, hinspect⟩ := observes_inspectSync (m := m) hmanifest hvalid hcomplete hfiles
  have hread := @observes_readAdoptionReceipt R disk (rememberedInSync m manifest)
    (by simp [hreceipt])
  rw [hreceipt] at hread
  have hreplay : Command.Observes (machine R) disk (adoptionReplay R none status e d)
      (rememberedInSync m manifest) (.ok false) (rememberedInSync m manifest) := by
    rw [adoptionReplay, if_neg (not_not.mpr hstatus)]
    apply Command.Observes.bind (observes_readManifest hmanifest hvalid)
    simp only [Option.any_none, hgeneration, false_and, decide_false, Bool.or_self]
    exact .pure false
  have hrefused : Command.Observes (machine R) disk (if status.status ≠ .externalChangeDetected ∨
      status.generation ≠ e ∨ status.candidateDigest.getD status.manifestDigest ≠ d then
        Command.throw (.externalChange status)
      else adoptReviewed R status key e d) (rememberedInSync m manifest) (.error (.externalChange status))
      (rememberedInSync m manifest) := by
    rw [if_pos (.inl (by simp [hstatus]))]
    exact .throw _
  rw [adoptExternalChange, if_neg (not_not.mpr hkey)]
  exact ⟨_, _, .bind (recoverLocked_of_no_journal hjournal) (.bind hinspect (.bind hread
    (.bind (.ofExcept (.ok ())) (.bind hreplay hrefused))))⟩

end Sample

end WorkStack.Store
