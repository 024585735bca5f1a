import WorkStack.Effect.Answers
import WorkStack.Store.Adoption
import WorkStack.Store.Rebind

/-!
# What a rebind publishes

A rebind takes the digests of its manifest from the bodies it captured, and the Task baselines from a
later read of the backlog. Another capture before the publication makes sure that the bodies are the
captured ones again, but not that they were so in between. As long as the backlog holds the captured
body when its Tasks are read, the manifest is that of the confirmed bodies.
-/

namespace WorkStack.Store

open Effect Effect.Outcome

/-- What a rebind has read so far: the bodies of its last capture, and whether the Tasks it read last were
those of the captured backlog. -/
structure Captured where
  bodies : DocName → Option Bytes
  untorn : Bool

def captured (R : RebindRules) : Recorder (rebindMachine R) Captured where
  own o u t := match o with
    | .readBody .capture name => { t with bodies := Function.update t.bodies name (u.store.docs name) }
    | .readTasks => { t with
        untorn := decide (t.bodies .backlog = none ∨ u.store.docs .backlog = t.bodies .backlog) }
    | _ => t
  env _ _ t := t

/-- The manifest is that of the bodies, and these are the ones the operator confirmed. -/
structure ReviewedBodies (R : RebindRules) (coordinate : RebindCoordinate) (bodies : DocName → Option Bytes)
    (manifest : Manifest) : Prop where
  complete : Complete bodies
  files : manifest.files = hashesOf R.toStoreRules bodies
  tasks : tasksOf R.toStoreRules bodies = .ok manifest.tasks
  workspaceId : manifest.workspaceId = coordinate.candidateWorkspaceId
  confirmed : rebindCandidateDigest R.toStoreRules manifest.workspaceId manifest.storeSchemaVersion bodies =
    coordinate.candidateDigest

/-- The step replaces neither a document nor the manifest. -/
def DiskOp.Quiet : DiskOp → Prop
  | replaceDoc _ _ _ => False
  | writeManifest _ _ => False
  | _ => True

/-- The step captures nothing, publishes nothing and only reads in the store. -/
def RebindOp.Plain : RebindOp → Prop
  | store o => o.Reads
  | readBody site _ => site ≠ .capture
  | readTasks => False
  | writeManifest _ => False
  | _ => True

section Contract

variable {R : RebindRules} {coordinate : RebindCoordinate} {α β : Type}

/-- The editor beside a command of the store that replaces nothing. -/
def quietContract (R : StoreRules) : Contract (machine R) where
  rely := Disk.ExternalEdit
  assume _ _ := True
  ensure o _ := o.Quiet
  rely_refl := Disk.ExternalEdit.refl
  rely_trans := Disk.ExternalEdit.trans

/-- The editor beside a rebind, with what a published manifest has to be. -/
def rebindContract (R : RebindRules) (coordinate : RebindCoordinate) : Contract (captured R).machine where
  rely u v := RebindDisk.ExternalEdit u.1 v.1 ∧ v.2 = u.2
  assume _ _ := True
  ensure o u := match o with
    | .store o => o.Quiet
    | .writeManifest manifest => u.2.untorn = true → ReviewedBodies R coordinate u.2.bodies manifest
    | _ => True
  rely_refl _ := ⟨⟨.refl _, rfl, rfl, rfl⟩, rfl⟩
  rely_trans _ _ _ h h' := ⟨⟨.trans _ _ _ h.1.1 h'.1.1, h'.1.2.1.trans h.1.2.1,
    h'.1.2.2.1.trans h.1.2.2.1, h'.1.2.2.2.trans h.1.2.2.2⟩, h'.2.trans h.2⟩

def storeView (R : RebindRules) : storeOps.View (machine R.toStoreRules) (captured R).machine
    ((String → Option Bytes) × (String → Option Manifest) × Option RebindReceipt × Captured) where
  view w := w.1.store
  rest w := (w.1.backups, w.1.quarantines, w.1.receipt, w.2)
  answer _ _ := rfl
  perform _ _ := rfl
  frame _ _ := rfl

theorem storeView_allows :
    (storeView R).Allows (quietContract R.toStoreRules) (rebindContract R coordinate) where
  rely _ _ h := h.1.1
  frame u v h := by
    obtain ⟨⟨-, hbackups, hquarantines, hreceipt⟩, hcaptured⟩ := h
    simp only [storeView, hbackups, hquarantines, hreceipt, hcaptured]
  assume _ _ _ := trivial
  ensure _ _ h := h

/-- The store has a manifest, and this is what the rebind has read so far. -/
def Stands (t : Captured) (u : RebindDisk × Captured) : Prop := u.1.store.manifest.isSome ∧ u.2 = t

theorem Stands.rely {t : Captured} {u v : RebindDisk × Captured} (h : Stands t u)
    (hrely : (rebindContract R coordinate).rely u v) : Stands t v := by
  refine ⟨?_, hrely.2.trans h.2⟩
  rw [hrely.1.1.2.1]
  exact h.1

/-! ## Commands that publish nothing -/

variable {t : Captured} {c : RebindCommand α} {m : Process} {w : RebindDisk × Captured}

theorem wp_plain (hc : Command.Within (.any RebindOp.Plain) c) (hw : Stands t w) :
    Command.wp (rebindContract R coordinate) c (fun _ _ u ↦ Stands t u) (fun _ _ u ↦ Stands t u) m w := by
  have hwp := Command.Within.wp (C := rebindContract R coordinate) (I := Stands t) (m := m) (w := w) hc
    (fun u v hu hrely ↦ hu.rely hrely) ?_ hw
  · exact Command.wp_mono hwp (fun _ _ _ h ↦ h.1) fun _ _ _ h ↦ h.1
  · intro o u ho hu _
    cases o with
    | store o =>
        have hsame : (u.1.store.perform R.sha256 o).2 = u.1.store := Disk.perform_reads ho u.1.store
        refine ⟨?_, ?_, hu.2⟩
        · cases o <;> trivial
        · change (u.1.store.perform R.sha256 o).2.manifest.isSome
          rw [hsame]
          exact hu.1
    | readBody site name =>
        cases site with
        | capture => exact absurd rfl ho
        | _ => exact ⟨trivial, hu⟩
    | readTasks => exact ho.elim
    | writeManifest manifest => exact ho.elim
    | _ => exact ⟨trivial, hu⟩

theorem within_inStore {F : Footprint diskSignature Process} {c : StoreCommand α} (hc : c.Within F)
    (hF : ∀ o, F.op o → o.Reads) : Command.Within (.any RebindOp.Plain) (inStore c) :=
  Command.Within.lift hc hF

/-! ## Inspections -/

theorem wp_quiet_reads {c : StoreCommand α} (hc : Command.Within (.any DiskOp.Reads) c) {disk : Disk}
    (hdisk : disk.manifest.isSome) :
    Command.wp (quietContract R.toStoreRules) c (fun _ _ u ↦ u.manifest.isSome) (fun _ _ u ↦ u.manifest.isSome)
      m disk := by
  have hwp := Command.Within.wp (C := quietContract R.toStoreRules)
    (I := fun u : Disk ↦ u.manifest.isSome) (m := m) (w := disk) hc ?_ ?_ hdisk
  · exact Command.wp_mono hwp (fun _ _ _ h ↦ h.1) fun _ _ _ h ↦ h.1
  · rintro u v hu ⟨-, hkeep, -⟩
    rwa [hkeep]
  · intro o u ho hu _
    refine ⟨by cases o <;> trivial, ?_⟩
    rw [show ((machine R.toStoreRules).perform o u).2 = u from Disk.perform_reads ho u]
    exact hu

/-- Where there is a manifest, none is created. -/
theorem wp_quiet_ensureSyncManifest {disk : Disk} (hdisk : disk.manifest.isSome) :
    Command.wp (quietContract R.toStoreRules) (ensureSyncManifest R.toStoreRules)
      (fun _ _ u ↦ u.manifest.isSome) (fun _ _ u ↦ u.manifest.isSome) m disk := by
  have hread : Command.wp (quietContract R.toStoreRules) readManifest
      (fun found _ u ↦ found.isSome ∧ u.manifest.isSome) (fun _ _ u ↦ u.manifest.isSome) m disk := by
    rw [readManifest, Command.wp_bind]
    intro u hrely _
    have hu : u.manifest.isSome := by
      rw [hrely.2.1]
      exact hdisk
    refine ⟨trivial, ?_⟩
    have hstep : (machine R.toStoreRules).perform .readManifest u = (u.manifest, u) := rfl
    rw [hstep]
    cases hmanifest : u.manifest with
    | none =>
        rw [hmanifest] at hu
        cases hu
    | some manifest =>
        apply (Command.wp_bind _ _).mpr
        exact Command.wp_ofExcept _ (fun _ _ ↦ ⟨rfl, hu⟩) fun _ _ ↦ hu
  apply Command.wp_seq hread
  · rintro (_ | manifest) n u ⟨hfound, hu⟩
    · cases hfound
    · exact hu
  · exact fun _ _ _ h ↦ h

theorem wp_quiet_inspectSync {disk : Disk} (hdisk : disk.manifest.isSome) :
    Command.wp (quietContract R.toStoreRules) (inspectSync R.toStoreRules)
      (fun _ _ u ↦ u.manifest.isSome) (fun _ _ u ↦ u.manifest.isSome) m disk := by
  apply Command.wp_seq (wp_quiet_ensureSyncManifest hdisk)
  · intro manifest n u hu
    apply wp_quiet_reads _ hu
    have hreads : ∀ o, PlainRead o → o.Reads := fun _ h ↦ h.1
    exact .bind (.remember fun _ ↦ trivial) fun _ ↦
      .bind ((within_inspectCandidate manifest).any hreads) fun _ ↦
        .bind ((within_rememberInspection _).any fun _ h ↦ h) fun _ ↦
          .bind ((Within.reads (within_candidateManifestDigest _ _)).any hreads) fun _ ↦ .pure _
  · exact fun _ _ _ h ↦ h

theorem wp_inStore {c : StoreCommand α} {L : α → Prop} (hw : Stands t w)
    (hc : Command.wp (quietContract R.toStoreRules) c (fun a _ u ↦ L a ∧ u.manifest.isSome)
      (fun _ _ u ↦ u.manifest.isSome) m w.1.store) :
    Command.wp (rebindContract R coordinate) (inStore c) (fun a _ u ↦ L a ∧ Stands t u)
      (fun _ _ u ↦ Stands t u) m w := by
  have hlift := Command.wp_lift (V := storeView R) (@storeView_allows R coordinate) hc
  have hstands : ∀ u : RebindDisk × Captured, u.1.store.manifest.isSome →
      (storeView R).rest u = (storeView R).rest w → Stands t u := by
    intro u hmanifest hrest
    simp only [storeView, Prod.mk.injEq] at hrest
    exact ⟨hmanifest, hrest.2.2.2.trans hw.2⟩
  apply Command.wp_mono hlift
  · exact fun _ _ u hu ↦ ⟨hu.1.1, hstands u hu.1.2 hu.2⟩
  · exact fun _ _ u hu ↦ hstands u hu.1 hu.2

theorem wp_inspection (hw : Stands t w) :
    Command.wp (rebindContract R coordinate) (inStore (inspectSync R.toStoreRules))
      (fun _ _ u ↦ True ∧ Stands t u) (fun _ _ u ↦ Stands t u) m w := by
  apply wp_inStore hw
  exact Command.wp_mono (wp_quiet_inspectSync hw.1) (fun _ _ _ h ↦ ⟨trivial, h⟩) fun _ _ _ h ↦ h

theorem wp_raiseRebindChange {Q : α → Process → RebindDisk × Captured → Prop} (hw : Stands t w) :
    Command.wp (rebindContract R coordinate) (raiseRebindChange R : RebindCommand α) Q
      (fun _ _ u ↦ Stands t u) m w := by
  have hbase : Command.wp (quietContract R.toStoreRules) (raiseExternalChange R.toStoreRules : StoreCommand α)
      (fun _ _ u ↦ False ∧ u.manifest.isSome) (fun _ _ u ↦ u.manifest.isSome) m w.1.store :=
    Command.wp_seq (wp_quiet_inspectSync hw.1) (fun _ _ _ h ↦ h) fun _ _ _ h ↦ h
  exact Command.wp_mono (wp_inStore hw hbase) (fun _ _ _ h ↦ h.1.elim) fun _ _ _ h ↦ h

/-! ## Captures -/

/-- After a capture every body is one that was captured. -/
theorem wp_readBodies_capture (hw : Stands t w) :
    Command.wp (rebindContract R coordinate) (readBodies .capture)
      (fun bodies _ u ↦ Complete bodies ∧ Stands ⟨bodies, t.untorn⟩ u)
      (fun _ _ u ↦ u.1.store.manifest.isSome) m w := by
  have hloop := Command.wp_fold (C := rebindContract R coordinate) (m := m) (w := w)
    (R := fun _ _ u ↦ u.1.store.manifest.isSome) (readBody .capture)
    (I := fun names bodies _ u ↦ u.1.store.manifest.isSome ∧ u.2.untorn = t.untorn ∧
      ∀ name, name ∉ names → u.2.bodies name = bodies name ∧ ∃ body, bodies name = some body)
    ?_ DocName.sortedDefaults (fun _ ↦ none)
    ⟨hw.1, congrArg Captured.untorn hw.2, fun name h ↦ absurd (DocName.mem_sortedDefaults name) h⟩
  · apply Command.wp_mono hloop
    · rintro bodies n u ⟨hmanifest, huntorn, hall⟩
      refine ⟨fun name ↦ (hall name List.not_mem_nil).2, hmanifest, ?_⟩
      rw [← huntorn, ← show u.2.bodies = bodies from funext fun name ↦ (hall name List.not_mem_nil).1]
    · exact fun _ _ _ h ↦ h
  · rintro bodies name names n u ⟨hmanifest, huntorn, hall⟩
    rw [readBody, Command.wp_bind]
    intro v hrely _
    refine ⟨trivial, ?_⟩
    have hv : v.1.store.manifest.isSome := by
      rw [hrely.1.1.2.1]
      exact hmanifest
    have hstep : (captured R).machine.perform (.readBody .capture name) v =
        (v.1.store.docs name, v.1, ⟨Function.update v.2.bodies name (v.1.store.docs name), v.2.untorn⟩) := rfl
    rw [hstep]
    cases hdoc : v.1.store.docs name with
    | none => exact hv
    | some body =>
        refine ⟨hv, ?_, fun other hother ↦ ?_⟩
        · rw [hrely.2]
          exact huntorn
        · by_cases hname : other = name
          · subst hname
            simp
          · have hrest := hall other (by simp [hname, hother])
            simp only [Function.update_of_ne hname]
            rw [hrely.2]
            exact hrest

theorem within_rebindStep {o : RebindOp} (h : o.Plain) : Command.Within (.any RebindOp.Plain) (rebindStep o) :=
  .perform h

theorem plain_readBody {site : BodySite} (h : site ≠ .capture) (name : DocName) :
    (RebindOp.readBody site name).Plain := h

theorem within_anyChanged (bodies : DocName → Option Bytes) (names : List DocName) :
    Command.Within (.any RebindOp.Plain) (anyChanged bodies names) := by
  induction names with
  | nil => exact .pure _
  | cons name names ih =>
      apply Command.Within.bind (within_rebindStep (plain_readBody (by decide) name))
      intro body
      cases body with
      | none => exact .throw _
      | some body => exact .ite (.pure _) ih

/-- What a capture returns is what it has read. -/
theorem wp_workspaceRebindCandidate (hw : Stands t w) :
    Command.wp (rebindContract R coordinate) (workspaceRebindCandidate R)
      (fun candidate _ u ↦ (Complete candidate.bodies ∧
          candidate.preview.candidateWorkspaceId = candidate.readiness.workspaceUid ∧
          candidate.preview.candidateDigest = rebindCandidateDigest R.toStoreRules candidate.readiness.workspaceUid
            candidate.readiness.schemaVersion candidate.bodies) ∧
        Stands ⟨candidate.bodies, t.untorn⟩ u)
      (fun _ _ u ↦ u.1.store.manifest.isSome) m w := by
  apply Command.wp_seq (wp_inspection hw)
  · rintro status n u ⟨-, hu⟩
    apply Command.wp_ite
    · exact fun _ ↦ hu.1
    · intro _
      apply Command.wp_seq (wp_plain (within_inStore within_validateReadyState fun _ h ↦ h.1.1) hu)
      · intro readiness n u hu
        apply Command.wp_seq (wp_readBodies_capture hu)
        · rintro bodies n u ⟨hcomplete, hu⟩
          apply Command.wp_seq (wp_plain (within_anyChanged bodies _) hu)
          · intro changed n u hu
            apply Command.wp_ite
            · intro _
              exact Command.wp_mono (wp_raiseRebindChange hu) (fun _ _ _ h ↦ h) fun _ _ _ h ↦ h.1
            · exact fun _ ↦ ⟨⟨hcomplete, rfl, rfl⟩, hu⟩
          · exact fun _ _ _ h ↦ h.1
        · exact fun _ _ _ h ↦ h
      · exact fun _ _ _ h ↦ h.1
  · exact fun _ _ _ h ↦ h.1

theorem wp_presentBodies {site : BodySite} (hsite : site ≠ .capture) (hw : Stands t w) :
    Command.wp (rebindContract R coordinate) (presentBodies R site) (fun _ _ u ↦ Stands t u)
      (fun _ _ u ↦ Stands t u) m w := by
  have hread : Command.Within (.any RebindOp.Plain) (readBodies site) := by
    apply Command.Within.fold
    intro bodies name
    apply Command.Within.bind (within_rebindStep (plain_readBody hsite name))
    intro body
    cases body with
    | none => exact .throw _
    | some body => exact .pure _
  rw [presentBodies, Command.wp_catching]
  apply Command.wp_mono (wp_plain hread hw)
  · exact fun _ _ _ h ↦ h
  · intro error n u hu
    cases error with
    | fileNotFound path => exact wp_raiseRebindChange hu
    | _ => exact hu

theorem within_refuse (result : Except String α) : Command.Within (.any RebindOp.Plain) (refuse result) :=
  .ofExcept _

theorem within_rebindResult (receipt : RebindReceipt) :
    Command.Within (.any RebindOp.Plain) (rebindResult R receipt) := by
  apply Command.Within.bind (within_rebindStep (o := .readReceipt) trivial)
  intro stored
  cases stored with
  | none => exact .throw _
  | some stored => exact .pure _

theorem within_readRebindReceipt : Command.Within (.any RebindOp.Plain) (readRebindReceipt R) := by
  apply Command.Within.bind (within_rebindStep (o := .readReceipt) trivial)
  intro receipt
  cases receipt with
  | none => exact .pure _
  | some receipt => exact .bind (within_refuse _) fun _ ↦ .pure _

theorem within_verifyRecoveryArtifacts (receipt : RebindReceipt) :
    Command.Within (.any RebindOp.Plain) (verifyRecoveryArtifacts R receipt) := by
  apply Command.Within.bind (within_rebindStep (o := .readBackup receipt.backupFile) trivial)
  intro body
  cases body with
  | none => exact .throw _
  | some body =>
      apply Command.Within.ite (.throw _)
      apply Command.Within.bind (within_refuse _)
      intro bodies
      apply Command.Within.bind
        (within_rebindStep (o := .readQuarantine receipt.quarantinedManifestFile) trivial)
      intro manifest
      cases manifest with
      | none => exact .throw _
      | some manifest => exact .bind (within_refuse _) fun _ ↦ .pure _

theorem within_inStore_readManifest : Command.Within (.any RebindOp.Plain) (inStore readManifest) :=
  within_inStore within_readManifest fun _ h ↦ h.1.1

/-! ## Replay -/

/-- A replay publishes nothing. -/
theorem wp_rebindReplay (idempotencyKey : String) (hw : Stands t w) :
    Command.wp (rebindContract R coordinate) (rebindReplay R coordinate idempotencyKey)
      (fun _ _ u ↦ Stands t u) (fun _ _ u ↦ Stands t u) m w := by
  apply Command.wp_seq (wp_plain within_readRebindReceipt hw)
  · intro receipt n u hu
    cases receipt with
    | none => exact hu
    | some receipt =>
        refine Command.wp_ite (fun _ ↦ hu) fun _ ↦ Command.wp_ite (fun _ ↦ hu) fun _ ↦ ?_
        apply Command.wp_seq (wp_plain (within_verifyRecoveryArtifacts receipt) hu)
        · intro archived n u hu
          apply Command.wp_seq (wp_plain within_inStore_readManifest hu)
          · intro manifest n u hu
            cases manifest with
            | none => exact hu
            | some manifest =>
                refine Command.wp_ite (fun _ ↦ hu) fun _ ↦ ?_
                apply Command.wp_seq (wp_presentBodies (by decide) hu)
                · intro bodies n u hu
                  apply Command.wp_ite
                  · exact fun _ ↦ wp_raiseRebindChange hu
                  · intro _
                    exact wp_plain (.bind (within_rebindResult receipt) fun _ ↦ .pure _) hu
                · exact fun _ _ _ h ↦ h
          · exact fun _ _ _ h ↦ h
        · exact fun _ _ _ h ↦ h
  · exact fun _ _ _ h ↦ h

/-! ## Commit -/

theorem tasksOf_eq (R : RebindRules) (docs : Docs) :
    tasksOf R.toStoreRules docs = tasksOfBody R (docs .backlog) := by
  unfold tasksOf jsonOf tasksOfBody
  cases docs .backlog with
  | none => rfl
  | some body =>
      dsimp only
      cases R.loads body with
      | none => rfl
      | some value =>
          dsimp only
          split_ifs
          · rfl
          · rfl

/-- The Tasks of the replacement are those of the captured backlog, unless the backlog changed. -/
theorem wp_replacementTasks (hw : Stands t w) (hcomplete : Complete t.bodies) :
    Command.wp (rebindContract R coordinate) (replacementTasks R)
      (fun tasks _ u ↦ ∃ untorn, Stands ⟨t.bodies, untorn⟩ u ∧
        (untorn = true → tasksOf R.toStoreRules t.bodies = .ok tasks))
      (fun _ _ u ↦ u.1.store.manifest.isSome) m w := by
  rw [replacementTasks, Command.wp_bind]
  intro v hrely _
  refine ⟨trivial, ?_⟩
  have hv : Stands t v := hw.rely hrely
  apply Command.wp_ofExcept
  · intro tasks htasks
    refine ⟨decide (v.2.bodies .backlog = none ∨ v.1.store.docs .backlog = v.2.bodies .backlog),
      ⟨hv.1, ?_⟩, fun huntorn ↦ ?_⟩
    · rw [← hv.2]
      rfl
    · obtain ⟨body, hbody⟩ := hcomplete .backlog
      have hread : v.1.store.docs .backlog = t.bodies .backlog := by
        rw [← hv.2]
        apply (of_decide_eq_true huntorn).resolve_left
        rw [hv.2, hbody]
        simp
      rw [tasksOf_eq, ← hread]
      exact htasks
  · exact fun _ _ ↦ hv.1

/-- A publication is that of the confirmed bodies, unless the Tasks were read from others. -/
theorem wp_publishReplacement (candidate : RebindCandidate) (receipt : RebindReceipt) (replacement : Manifest)
    (hw : Stands t w) (hreviewed : t.untorn = true → ReviewedBodies R coordinate t.bodies replacement) :
    Command.wp (rebindContract R coordinate) (publishReplacement R candidate receipt replacement)
      (fun _ _ u ↦ Stands t u) (fun _ _ u ↦ Stands t u) m w := by
  rw [publishReplacement, Command.wp_bind]
  intro v hrely _
  have hv : Stands t v := hw.rely hrely
  refine ⟨fun huntorn ↦ ?_, ?_⟩
  · rw [hv.2] at huntorn ⊢
    exact hreviewed huntorn
  · have hpublished : Stands t ((captured R).machine.perform (.writeManifest replacement) v).2 := ⟨rfl, hv.2⟩
    apply Command.wp_seq (wp_presentBodies (by decide) hpublished)
    · intro bodies n u hu
      apply Command.wp_ite
      · intro _
        rw [Command.wp_bind, Command.wp_remember]
        exact wp_raiseRebindChange hu
      · intro _
        rw [Command.wp_bind, Command.wp_remember]
        exact wp_plain (.bind (within_inStore (within_emitEvent _ _ _) fun _ h ↦ h) fun _ ↦
          within_rebindResult receipt) hu
    · exact fun _ _ _ h ↦ h

/-- The candidate that was captured is the confirmed one. -/
structure Confirms (R : RebindRules) (coordinate : RebindCoordinate) (candidate : RebindCandidate) : Prop where
  complete : Complete candidate.bodies
  workspaceId : candidate.preview.candidateWorkspaceId = candidate.readiness.workspaceUid
  digest : candidate.preview.candidateDigest = rebindCandidateDigest R.toStoreRules candidate.readiness.workspaceUid
    candidate.readiness.schemaVersion candidate.bodies
  coordinate : candidate.preview.coordinate = coordinate

theorem Confirms.reviewed {candidate : RebindCandidate} {tasks : Tasks} (h : Confirms R coordinate candidate)
    (htasks : tasksOf R.toStoreRules candidate.bodies = .ok tasks) :
    ReviewedBodies R coordinate candidate.bodies (replacementManifest R candidate tasks) where
  complete := h.complete
  files := rfl
  tasks := htasks
  workspaceId := congrArg RebindCoordinate.candidateWorkspaceId h.coordinate
  confirmed := by
    change rebindCandidateDigest R.toStoreRules candidate.preview.candidateWorkspaceId candidate.readiness.schemaVersion
      candidate.bodies = coordinate.candidateDigest
    rw [h.workspaceId, ← h.digest]
    exact congrArg RebindCoordinate.candidateDigest h.coordinate

theorem wp_archiveCandidate {candidate : RebindCandidate} {tasks : Tasks} (receipt : RebindReceipt)
    (backup : Bytes) (displaced : Manifest) (hconfirms : Confirms R coordinate candidate)
    (hw : Stands t w) (htasks : t.untorn = true → tasksOf R.toStoreRules candidate.bodies = .ok tasks) :
    Command.wp (rebindContract R coordinate)
      (archiveCandidate R coordinate candidate receipt (replacementManifest R candidate tasks) backup displaced)
      (fun _ _ u ↦ u.1.store.manifest.isSome) (fun _ _ u ↦ u.1.store.manifest.isSome) m w := by
  have hplain : ∀ {o : RebindOp} {n u}, o.Plain → Stands t u →
      Command.wp (rebindContract R coordinate) (rebindStep o) (fun _ _ u ↦ Stands t u)
        (fun _ _ u ↦ u.1.store.manifest.isSome) n u := fun ho hu ↦
    Command.wp_mono (wp_plain (within_rebindStep ho) hu) (fun _ _ _ h ↦ h) fun _ _ _ h ↦ h.1
  apply Command.wp_seq (hplain (o := .writeBackup receipt.backupFile backup) trivial hw)
  · intro _ n u hu
    apply Command.wp_seq (hplain (o := .writeQuarantine receipt.quarantinedManifestFile displaced) trivial hu)
    · intro _ n u hu
      apply Command.wp_seq (hplain (o := .writeReceipt receipt) trivial hu)
      · intro _ n u hu
        apply Command.wp_seq (wp_workspaceRebindCandidate hu)
        · rintro final n u ⟨-, hu⟩
          apply Command.wp_ite
          · intro _
            exact Command.wp_mono (wp_raiseRebindChange hu) (fun _ _ _ h ↦ h) fun _ _ _ h ↦ h.1
          · intro hsame
            have hbodies : final.bodies = candidate.bodies := not_not.mp (not_or.mp hsame).2
            have hreviewed : t.untorn = true →
                ReviewedBodies R coordinate final.bodies (replacementManifest R candidate tasks) := by
              intro huntorn
              rw [hbodies]
              exact hconfirms.reviewed (htasks huntorn)
            exact Command.wp_mono (wp_publishReplacement candidate receipt _ hu hreviewed)
              (fun _ _ _ h ↦ h.1) fun _ _ _ h ↦ h.1
        · exact fun _ _ _ h ↦ h
      · exact fun _ _ _ h ↦ h
    · exact fun _ _ _ h ↦ h
  · exact fun _ _ _ h ↦ h

theorem wp_commitCandidate {candidate : RebindCandidate} (idempotencyKey : String) (clock : RebindClock)
    (hconfirms : Confirms R coordinate candidate) (hw : Stands ⟨candidate.bodies, t.untorn⟩ w) :
    Command.wp (rebindContract R coordinate) (commitCandidate R coordinate idempotencyKey clock candidate)
      (fun _ _ u ↦ u.1.store.manifest.isSome) (fun _ _ u ↦ u.1.store.manifest.isSome) m w := by
  apply Command.wp_seq (wp_plain (within_rebindStep (o := .readManifestBody) trivial) hw)
  · intro displaced n u hu
    cases displaced with
    | none => exact hu.1
    | some displaced =>
        apply Command.wp_seq (wp_plain within_inStore_readManifest hu)
        · intro previous n u hu
          apply Command.wp_ite
          · intro _
            exact Command.wp_mono (wp_raiseRebindChange hu) (fun _ _ _ h ↦ h) fun _ _ _ h ↦ h.1
          · intro _
            apply Command.wp_seq (wp_plain (within_refuse _) hu)
            · intro backup n u hu
              apply Command.wp_seq (wp_replacementTasks hu hconfirms.complete)
              · rintro tasks n u ⟨untorn, hu, htasks⟩
                exact wp_archiveCandidate _ backup displaced hconfirms hu htasks
              · exact fun _ _ _ h ↦ h
            · exact fun _ _ _ h ↦ h.1
        · exact fun _ _ _ h ↦ h.1
  · exact fun _ _ _ h ↦ h.1

theorem wp_commitWorkspaceRebind (idempotencyKey : String) (clock : RebindClock) (hw : Stands t w) :
    Command.wp (rebindContract R coordinate) (commitWorkspaceRebind R coordinate idempotencyKey clock)
      (fun _ _ u ↦ u.1.store.manifest.isSome) (fun _ _ u ↦ u.1.store.manifest.isSome) m w := by
  apply Command.wp_seq (wp_workspaceRebindCandidate hw)
  · rintro candidate n u ⟨⟨hcomplete, hworkspace, hdigest⟩, hu⟩
    apply Command.wp_ite
    · exact fun _ ↦ hu.1
    · intro hcoordinate
      exact wp_commitCandidate idempotencyKey clock
        ⟨hcomplete, hworkspace, hdigest, not_not.mp hcoordinate⟩ hu
  · exact fun _ _ _ h ↦ h

theorem wp_rebindWorkspaceIdentity (request : RebindRequest) (hw : Stands t w) :
    Command.wp (rebindContract R request.coordinate) (rebindWorkspaceIdentity R request)
      (fun _ _ u ↦ u.1.store.manifest.isSome) (fun _ _ u ↦ u.1.store.manifest.isSome) m w := by
  rw [rebindWorkspaceIdentity, Command.wp_bind]
  apply Command.wp_ofExcept
  · intro idempotencyKey _
    apply Command.wp_seq (wp_rebindReplay idempotencyKey hw)
    · intro answered n u hu
      cases answered with
      | some result => exact hu.1
      | none => exact wp_commitWorkspaceRebind idempotencyKey request.clock hu
    · exact fun _ _ _ h ↦ h.1
  · exact fun _ _ ↦ hw.1

end Contract

/-! ## Attempts -/

section Attempts

variable {R : RebindRules}

/-- In this part of an execution the Tasks were read while the backlog held the captured body. -/
def TasksOfCapture (before : List (Event (rebindMachine R))) : Prop :=
  ∀ first v rest, before = first ++ .own .readTasks v :: rest →
    ∀ u, .own (.readBody .capture .backlog) u ∈ first → u.store.docs .backlog = v.store.docs .backlog

theorem captured_bodies {events : List (Event (rebindMachine R))} {t : Captured} {name : DocName}
    {body : Bytes} (h : ((captured R).after events t).bodies name = some body) :
    t.bodies name = some body ∨
      ∃ u, .own (.readBody .capture name) u ∈ events ∧ u.store.docs name = some body := by
  induction events generalizing t with
  | nil => exact Or.inl h
  | cons event events ih =>
      have hlater : (∃ u, .own (.readBody .capture name) u ∈ events ∧ u.store.docs name = some body) →
          ∃ u, .own (.readBody .capture name) u ∈ event :: events ∧ u.store.docs name = some body :=
        fun ⟨u, hmem, hdoc⟩ ↦ ⟨u, List.mem_cons_of_mem _ hmem, hdoc⟩
      cases event with
      | env u v => exact (ih h).imp_right hlater
      | own o u =>
          rcases ih h with hbefore | hread
          · cases o with
            | readBody site other =>
                cases site with
                | capture =>
                    by_cases hname : name = other
                    · subst hname
                      refine Or.inr ⟨u, List.mem_cons_self .., ?_⟩
                      simpa [captured] using hbefore
                    · left
                      simpa [captured, Function.update_of_ne hname] using hbefore
                | _ => exact Or.inl hbefore
            | _ => exact Or.inl hbefore
          · exact Or.inr (hlater hread)

theorem TasksOfCapture.of_append {before rest : List (Event (rebindMachine R))}
    (h : TasksOfCapture (before ++ rest)) : TasksOfCapture before := by
  intro first v later hsplit
  apply h first v (later ++ rest)
  rw [hsplit, List.append_assoc, List.cons_append]

theorem captured_untorn {events : List (Event (rebindMachine R))} (h : TasksOfCapture events) :
    ((captured R).after events ⟨fun _ ↦ none, true⟩).untorn = true := by
  induction events using List.reverseRecOn with
  | nil => rfl
  | append_singleton events event ih =>
      have hbefore := ih h.of_append
      rw [Recorder.after_append]
      cases event with
      | env u v => exact hbefore
      | own o v =>
          cases o with
          | readTasks =>
              change decide _ = true
              rw [decide_eq_true_iff]
              cases hbody : ((captured R).after events ⟨fun _ ↦ none, true⟩).bodies .backlog with
              | none => exact Or.inl rfl
              | some body =>
                  rcases captured_bodies hbody with hnone | ⟨u, hmem, hdoc⟩
                  · cases hnone
                  · right
                    rw [← h events v [] rfl u hmem, hdoc]
          | readBody site name =>
              cases site with
              | capture => exact hbefore
              | _ => exact hbefore
          | _ => exact hbefore

/-- One call of a rebind, up to where it was stopped. -/
structure Attempt (R : RebindRules) where
  request : RebindRequest
  events : List (Event (rebindMachine R))

/-- Calls one after another, each stopped anywhere, beside an editor that never stops. -/
inductive Attempts (R : RebindRules) : RebindDisk → List (Attempt R) → RebindDisk → Prop
  | nil (disk : RebindDisk) : Attempts R disk [] disk
  | cons {disk later after : RebindDisk} {request : RebindRequest} {m : Process}
      {events : List (Event (rebindMachine R))}
      {q : Prog rebindSignature (Except StoreError RebindResult × Process)} {attempts : List (Attempt R)}
      (hrun : Run (rebindMachine R) RebindDisk.ExternalEdit (rebindWorkspaceIdentity R request m) disk events
        q later) (rest : Attempts R later attempts after) :
      Attempts R disk (⟨request, events⟩ :: attempts) after

/-- What a manifest of an attempt is made of, by the events before its publication. -/
def PublishedAsReviewed (R : RebindRules) (coordinate : RebindCoordinate)
    (before : List (Event (rebindMachine R))) (manifest : Manifest) : Prop :=
  ∃ bodies, (∀ name, ∃ u, .own (.readBody .capture name) u ∈ before ∧ u.store.docs name = bodies name) ∧
    ReviewedBodies R coordinate bodies manifest

section OneRun

variable {request : RebindRequest} {m : Process} {disk after : RebindDisk}
variable {events : List (Event (rebindMachine R))}
variable {q : Prog rebindSignature (Except StoreError RebindResult × Process)}

/-- What a call shows of each of its steps. -/
theorem rebind_ensures (hmanifest : disk.store.manifest.isSome)
    (hrun : Run (rebindMachine R) RebindDisk.ExternalEdit (rebindWorkspaceIdentity R request m) disk events q
      after) {o : RebindOp} {u : RebindDisk} (before rest : List (Event (rebindMachine R)))
    (hevents : events = before ++ .own o u :: rest) :
    (rebindContract R request.coordinate).ensure o (u, (captured R).after before ⟨fun _ ↦ none, true⟩) := by
  have hstands : Stands ⟨fun _ ↦ none, true⟩ (disk, (⟨fun _ ↦ none, true⟩ : Captured)) := ⟨hmanifest, rfl⟩
  apply (wp_run (wp_rebindWorkspaceIdentity (m := m) request hstands) ((captured R).run hrun _) ?_ ?_).1
  · rw [hevents]
    exact Recorder.own_mem_annotate (captured R) before rest _
  · rintro u v ⟨move, hrecord⟩
    exact ⟨move, hrecord⟩
  · exact fun _ _ _ ↦ trivial

theorem rebind_keeps_documents (hmanifest : disk.store.manifest.isSome)
    (hrun : Run (rebindMachine R) RebindDisk.ExternalEdit (rebindWorkspaceIdentity R request m) disk events q
      after) {o : RebindOp} {u : RebindDisk} (hmem : .own o u ∈ events) :
    ((rebindMachine R).perform o u).2.store.docs = u.store.docs := by
  obtain ⟨before, rest, hevents⟩ := List.append_of_mem hmem
  have hquiet := rebind_ensures hmanifest hrun before rest hevents
  cases o with
  | store o =>
      cases o with
      | replaceDoc name expectation value => exact hquiet.elim
      | _ => rfl
  | _ => rfl

theorem rebind_run (hmanifest : disk.store.manifest.isSome)
    (hrun : Run (rebindMachine R) RebindDisk.ExternalEdit (rebindWorkspaceIdentity R request m) disk events q
      after) :
    (∀ o u, .own o u ∈ events → ((rebindMachine R).perform o u).2.store.docs = u.store.docs) ∧
      (∀ site manifest u, .own (.store (.writeManifest site manifest)) u ∉ events) ∧
      ∀ before u rest manifest, events = before ++ .own (.writeManifest manifest) u :: rest →
        TasksOfCapture before → PublishedAsReviewed R request.coordinate before manifest := by
  refine ⟨fun o u hmem ↦ rebind_keeps_documents hmanifest hrun hmem, ?_, ?_⟩
  · intro site manifest u hmem
    obtain ⟨before, rest, hevents⟩ := List.append_of_mem hmem
    exact rebind_ensures hmanifest hrun before rest hevents
  · intro before u rest manifest hevents htasks
    have hreviewed := rebind_ensures hmanifest hrun before rest hevents (captured_untorn htasks)
    refine ⟨_, fun name ↦ ?_, hreviewed⟩
    obtain ⟨body, hbody⟩ := hreviewed.complete name
    rcases captured_bodies hbody with hnone | ⟨v, hmem, hdoc⟩
    · cases hnone
    · exact ⟨v, hmem, hdoc.trans hbody.symm⟩

theorem rebind_keeps_manifest (hmanifest : disk.store.manifest.isSome)
    (hrun : Run (rebindMachine R) RebindDisk.ExternalEdit (rebindWorkspaceIdentity R request m) disk events q
      after) : after.store.manifest.isSome := by
  apply hrun.keeps (I := fun u : RebindDisk ↦ u.store.manifest.isSome = true) hmanifest
  · rintro u v ⟨⟨-, hkeep, -⟩, -⟩ hu
    rwa [hkeep]
  · intro o u hmem hu
    obtain ⟨before, rest, hevents⟩ := List.append_of_mem hmem
    have hquiet := rebind_ensures hmanifest hrun before rest hevents
    cases o with
    | store o =>
        cases o with
        | replaceDoc name expectation value => exact hquiet.elim
        | writeManifest site manifest => exact hquiet.elim
        | _ => exact hu
    | writeManifest manifest => exact rfl
    | _ => exact hu

end OneRun

end Attempts

/-- Accepted documents of another workspace than that of the manifest. -/
structure Displaced (R : StoreRules) (disk : Disk) (manifest : Manifest) (readiness : StoreReadiness) :
    Prop where
  named : disk.manifest = some manifest
  valid : validateStoreManifest manifest = .ok ()
  complete : Complete disk.docs
  verdict : verdictOf R disk.docs = .ok readiness
  identity : readiness.workspaceUid ≠ manifest.workspaceId
  changed : changedManifestFiles manifest (hashesOf R disk.docs) ≠ []

section Displaced

variable {R : StoreRules} {disk : Disk} {manifest : Manifest} {readiness : StoreReadiness} {m : Process}

theorem observes_invalidCandidateChangedFiles (hcomplete : Complete disk.docs) :
    ∃ changed, Command.Observes (machine R) disk (invalidCandidateChangedFiles R manifest) m (.ok changed)
      m := by
  have hname : ∀ changed name, Command.Observes (machine R) disk
      (invalidCandidateDocument R manifest changed name) m
      (.ok (if manifest.files name ≠ hashesOf R disk.docs name then changed ++ [name] else changed)) m := by
    intro changed name
    obtain ⟨body, hbody⟩ := hcomplete name
    apply Command.Observes.bind (observes_isFile _ name)
    rw [hbody]
    apply Command.Observes.bind (observes_readBytes _ name)
    simp only [hashesOf, hbody, Option.map_some]
    split_ifs
    · exact .pure _
    · exact .pure _
  have hfold := Command.Observes.fold_ok
    (fun changed name (_ : name ∈ DocName.defaults) ↦ hname changed name) []
  exact ⟨_, .bind hfold (.pure _)⟩

/-- Such documents are reported as a candidate whose workspace changed. -/
theorem observes_inspectSync_displaced (h : Displaced R disk manifest readiness) :
    ∃ status n, (status.status = .externalChangeInvalid ∧ status.validationError = some identityChanged ∧
        status.workspaceId = manifest.workspaceId ∧ status.manifestDigest = manifestDigest R manifest) ∧
      Command.Observes (machine R) disk (inspectSync R) m (.ok status) n := by
  obtain ⟨changed, hchanged⟩ := @observes_invalidCandidateChangedFiles R disk manifest
    { m with generation := max m.generation manifest.generation } h.complete
  have hready : Command.Observes (machine R) disk (validateReadyState R)
      { m with generation := max m.generation manifest.generation } (.ok readiness)
      { m with generation := max m.generation manifest.generation } := by
    rw [← h.verdict]
    exact observes_validateReadyState
  have hinspect : Command.Observes (machine R) disk (inspectCandidate R manifest)
      { m with generation := max m.generation manifest.generation }
      (.ok ⟨readiness.workspaceUid, fun _ ↦ none, changed, some identityChanged⟩)
      { m with generation := max m.generation manifest.generation } := by
    apply Command.Observes.catching_ok
    apply Command.Observes.bind (observes_authoritativeHashes _ h.complete)
    rw [if_neg h.changed]
    apply Command.Observes.bind hready
    apply Command.Observes.catching_error
    · apply Command.Observes.bind_error
      rw [validateExternalCandidate, if_pos h.identity]
      exact .throw _
    · exact .bind hchanged (.pure _)
  obtain ⟨n, hremember⟩ := @observes_rememberInspection R disk
    { m with generation := max m.generation manifest.generation }
    ⟨readiness.workspaceUid, fun _ ↦ none, changed, some identityChanged⟩
  refine ⟨_, n, ⟨rfl, rfl, rfl, rfl⟩, .bind (.bind (observes_readManifest h.named h.valid) (.pure manifest))
    (.bind (.remember _) (.bind hinspect (.bind hremember (.bind (a := none) (.pure _) (.pure _)))))⟩

end Displaced

section Torn

variable {R : RebindRules} {disk : RebindDisk} {manifest : Manifest} {readiness : StoreReadiness} {m : Process}

def plainView (R : RebindRules) : storeOps.View (machine R.toStoreRules) (rebindMachine R)
    ((String → Option Bytes) × (String → Option Manifest) × Option RebindReceipt) where
  view w := w.store
  rest w := (w.backups, w.quarantines, w.receipt)
  answer _ _ := rfl
  perform _ _ := rfl
  frame _ _ := rfl

theorem observes_inStore {α : Type} {c : StoreCommand α} {n : Process} {outcome : Except StoreError α}
    (h : Command.Observes (machine R.toStoreRules) disk.store c m outcome n) :
    Command.Observes (rebindMachine R) disk (inStore c) m outcome n := by
  apply Command.Observes.lift (V := plainView R) _ h
  rintro ⟨store, backups, quarantines, receipt⟩ ⟨store', backups', quarantines', receipt'⟩ hstore hrest
  simp only [plainView, Prod.mk.injEq] at hstore hrest
  rw [hstore, hrest.1, hrest.2.1, hrest.2.2]

theorem observes_readBody (site : BodySite) (name : DocName) :
    Command.Observes (rebindMachine R) disk (rebindStep (.readBody site name)) m (.ok (disk.store.docs name)) m :=
  ⟨rfl, rfl⟩

theorem observes_readBodies (site : BodySite) (hcomplete : Complete disk.store.docs) :
    Command.Observes (rebindMachine R) disk (readBodies site) m (.ok disk.store.docs) m := by
  have hname : ∀ bodies name, Command.Observes (rebindMachine R) disk (readBody site bodies name) m
      (.ok (Function.update bodies name (disk.store.docs name))) m := by
    intro bodies name
    obtain ⟨body, hbody⟩ := hcomplete name
    apply Command.Observes.bind (observes_readBody site name)
    rw [hbody]
    exact .pure _
  have hfold := Command.Observes.fold_ok
    (fun bodies name (_ : name ∈ DocName.sortedDefaults) ↦ hname bodies name) fun _ ↦ none
  rwa [foldl_update_eq _ _ _ DocName.mem_sortedDefaults] at hfold

theorem observes_anyChanged (hcomplete : Complete disk.store.docs) (names : List DocName) :
    Command.Observes (rebindMachine R) disk (anyChanged disk.store.docs names) m (.ok false) m := by
  induction names with
  | nil => exact .pure _
  | cons name names ih =>
      obtain ⟨body, hbody⟩ := hcomplete name
      apply Command.Observes.bind (observes_readBody .recheck name)
      rw [hbody]
      dsimp only
      rw [if_neg (by simp)]
      exact ih

/-- The coordinate that is shown for a displaced store. -/
def displacedCoordinate (R : RebindRules) (manifest : Manifest) (readiness : StoreReadiness) (docs : Docs) :
    RebindCoordinate where
  manifestWorkspaceId := manifest.workspaceId
  candidateWorkspaceId := readiness.workspaceUid
  manifestDigest := manifestDigest R.toStoreRules manifest
  candidateDigest := rebindCandidateDigest R.toStoreRules readiness.workspaceUid readiness.schemaVersion docs

theorem observes_workspaceRebindCandidate
    (h : Displaced R.toStoreRules disk.store manifest readiness) :
    ∃ candidate n, (candidate.bodies = disk.store.docs ∧ candidate.readiness = readiness ∧
        candidate.preview.coordinate = displacedCoordinate R manifest readiness disk.store.docs) ∧
      Command.Observes (rebindMachine R) disk (workspaceRebindCandidate R) m (.ok candidate) n := by
  obtain ⟨status, n, ⟨hstate, herror, hworkspace, hdigest⟩, hinspect⟩ :=
    observes_inspectSync_displaced (m := m) h
  have hready : Command.Observes (machine R.toStoreRules) disk.store (validateReadyState R.toStoreRules) n
      (.ok readiness) n := by
    rw [← h.verdict]
    exact observes_validateReadyState
  have hcapture : ∃ candidate : RebindCandidate, (candidate.bodies = disk.store.docs ∧
      candidate.readiness = readiness ∧
      candidate.preview.coordinate = displacedCoordinate R manifest readiness disk.store.docs) ∧
      Command.Observes (rebindMachine R) disk (captureCandidate R status) n (.ok candidate) n := by
    refine ⟨⟨status, readiness, disk.store.docs, ⟨status.workspaceId, readiness.workspaceUid,
      status.manifestDigest, rebindCandidateDigest R.toStoreRules readiness.workspaceUid readiness.schemaVersion
        disk.store.docs, status.changedFiles⟩⟩, ⟨rfl, rfl, ?_⟩, ?_⟩
    · rw [displacedCoordinate, ← hworkspace, ← hdigest]
      rfl
    · apply Command.Observes.bind (observes_inStore hready)
      apply Command.Observes.bind (observes_readBodies .capture h.complete)
      apply Command.Observes.bind (observes_anyChanged h.complete _)
      exact .pure _
  obtain ⟨candidate, hcandidate, hcapture⟩ := hcapture
  refine ⟨candidate, n, hcandidate, .bind (observes_inStore hinspect) ?_⟩
  rwa [if_neg (by simp [hstate, herror])]

/-- The manifest a rebind builds from captured bodies and from the Tasks it found. -/
def replacementOf (R : RebindRules) (readiness : StoreReadiness) (docs : Docs) (tasks : Tasks) : Manifest where
  version := 1
  workspaceId := readiness.workspaceUid
  storeSchemaVersion := readiness.schemaVersion
  generation := 0
  files := hashesOf R.toStoreRules docs
  tasks

/-- The worlds in which a program is left alone are where all its steps start. -/
theorem exists_quiet_run {α : Type} {c : RebindCommand α} {n : Process} {a : α}
    (h : Command.Observes (rebindMachine R) disk c m (.ok a) n) :
    ∃ events, Run (rebindMachine R) RebindDisk.ExternalEdit (c m) disk events (.pure (.ok a, n)) disk ∧
      ∀ o u, .own o u ∈ events → u = disk := by
  obtain ⟨events, hrun⟩ := Prog.Observes.exists_run h
  exact ⟨events, hrun.mono fun _ _ move ↦ move.elim, fun o u hmem ↦
    ((Prog.Observes.run_until h hrun).2 o u hmem).1⟩

theorem observes_settleReplacement {candidate : RebindCandidate} {receipt stored : RebindReceipt}
    {replacement : Manifest} (hcomplete : Complete disk.store.docs)
    (hbodies : candidate.bodies = disk.store.docs) (hstored : disk.receipt = some stored) :
    ∃ result n, Command.Observes (rebindMachine R) disk (settleReplacement R candidate receipt replacement) m
      (.ok result) n := by
  have hpresent : Command.Observes (rebindMachine R) disk (presentBodies R .postReplace) m
      (.ok disk.store.docs) m := .catching_ok (observes_readBodies .postReplace hcomplete)
  have hresult : ∀ k, ∃ result, Command.Observes (rebindMachine R) disk (rebindResult R receipt) k (.ok result)
      k := by
    intro k
    have hread : Command.Observes (rebindMachine R) disk (rebindStep .readReceipt) k (.ok (some stored)) k := by
      rw [← hstored]
      exact ⟨rfl, rfl⟩
    exact ⟨_, .bind hread (.pure _)⟩
  have hemit : ∀ k, ∃ l, Command.Observes (rebindMachine R) disk
      (inStore (emitEvent "store.workspace-rebound" replacement.workspaceId [])) k (.ok ()) l :=
    fun k ↦ ⟨_, observes_inStore (.remember _)⟩
  obtain ⟨l, hl⟩ := hemit { m with
    generation := 0
    readiness := some candidate.readiness
    syncFingerprint := none
    syncState := .inSync }
  obtain ⟨result, hresult⟩ := hresult l
  refine ⟨result, l, .bind hpresent ?_⟩
  rw [if_neg (not_not.mpr hbodies.symm)]
  exact .bind (.remember _) (.bind hl hresult)

/-- A candidate that is still there is archived and published. -/
theorem returns_archiveCandidate {coordinate : RebindCoordinate} {candidate : RebindCandidate}
    {receipt : RebindReceipt} {replacement displaced : Manifest} {backup : Bytes}
    (h : Displaced R.toStoreRules disk.store manifest readiness)
    (hcoordinate : coordinate = displacedCoordinate R manifest readiness disk.store.docs)
    (hbodies : candidate.bodies = disk.store.docs) :
    ∃ before published rest, Returns (rebindMachine R) RebindDisk.ExternalEdit
        (archiveCandidate R coordinate candidate receipt replacement backup displaced m) disk
        (before ++ .own (.writeManifest replacement) published :: rest)
        (fun outcome _ ↦ ∃ result, outcome.1 = .ok result) ∧
      ∀ o u, .own o u ∈ before → u.store = disk.store := by
  let archived : RebindDisk := {
    store := disk.store
    backups := Function.update disk.backups receipt.backupFile (some backup)
    quarantines := Function.update disk.quarantines receipt.quarantinedManifestFile (some displaced)
    receipt := some receipt }
  obtain ⟨final, k, ⟨hfinalBodies, -, hfinalCoordinate⟩, hcapture⟩ :=
    @observes_workspaceRebindCandidate R archived manifest readiness m h
  obtain ⟨events, hevents, hquiet⟩ := exists_quiet_run hcapture
  have hsame : ¬(final.preview.candidateDigest ≠ coordinate.candidateDigest ∨
      final.bodies ≠ candidate.bodies) := by
    rw [hcoordinate, hfinalBodies, hbodies]
    exact not_or.mpr ⟨not_not.mpr (congrArg RebindCoordinate.candidateDigest hfinalCoordinate),
      not_not.mpr rfl⟩
  let published : RebindDisk := { archived with store := { disk.store with manifest := some replacement } }
  obtain ⟨result, l, hsettle⟩ := @observes_settleReplacement R published k candidate receipt receipt replacement
    h.complete hbodies rfl
  obtain ⟨last, hlast, -⟩ := exists_quiet_run hsettle
  refine ⟨.own (.writeBackup receipt.backupFile backup) disk ::
    .own (.writeQuarantine receipt.quarantinedManifestFile displaced)
      { disk with backups := Function.update disk.backups receipt.backupFile (some backup) } ::
    .own (.writeReceipt receipt) { archived with receipt := disk.receipt } :: events, archived, last, ?_, ?_⟩
  · apply Returns.own
    apply Returns.own
    apply Returns.own
    apply Returns.bind hevents
    dsimp only
    rw [if_neg hsame]
    apply Returns.own
    exact ⟨_, _, hlast, result, rfl⟩
  · intro o u hmem
    simp only [List.mem_cons, Event.own.injEq] at hmem
    rcases hmem with ⟨-, rfl⟩ | ⟨-, rfl⟩ | ⟨-, rfl⟩ | hlater
    · rfl
    · rfl
    · rfl
    · rw [hquiet o u hlater]

/-- An edit that is there only while the Tasks are read goes into the manifest. -/
theorem returns_rebind {request : RebindRequest} {key : String} {edited : RebindDisk} {tasks : Tasks}
    (h : Displaced R.toStoreRules disk.store manifest readiness) (hreceipt : disk.receipt = none)
    (hrequest : validateRebindRequest request = .ok key)
    (hcoordinate : request.coordinate = displacedCoordinate R manifest readiness disk.store.docs)
    (hbackup : ∀ preview : RebindPreview, preview.coordinate = request.coordinate →
      ∃ backup, candidateBackupBytes R disk.store.docs preview = .ok backup)
    (hthere : RebindDisk.ExternalEdit disk edited) (hback : RebindDisk.ExternalEdit edited disk)
    (htasks : tasksOf R.toStoreRules edited.store.docs = .ok tasks) :
    ∃ before published rest, Returns (rebindMachine R) RebindDisk.ExternalEdit
        (rebindWorkspaceIdentity R request m) disk
        (before ++ .own (.writeManifest (replacementOf R readiness disk.store.docs tasks)) published :: rest)
        (fun outcome _ ↦ ∃ result, outcome.1 = .ok result) ∧
      ∀ o u, .own o u ∈ before → u.store = disk.store ∨ o = .readTasks ∧ u.store = edited.store := by
  have hreplay : Command.Observes (rebindMachine R) disk (rebindReplay R request.coordinate key) m (.ok none)
      m := by
    apply Command.Observes.bind (a := none)
    · apply Command.Observes.bind (a := disk.receipt)
      · exact ⟨rfl, rfl⟩
      · rw [hreceipt]
        exact .pure none
    · exact .pure none
  obtain ⟨first, hfirst, hquiet₁⟩ := exists_quiet_run hreplay
  obtain ⟨candidate, n, ⟨hbodies, hready, hcandidate⟩, hcapture⟩ :=
    observes_workspaceRebindCandidate (R := R) (m := m) h
  obtain ⟨second, hsecond, hquiet₂⟩ := exists_quiet_run hcapture
  have hdisplaced : Command.Observes (rebindMachine R) disk (rebindStep .readManifestBody) n
      (.ok (some manifest)) n := by
    rw [← h.named]
    exact ⟨rfl, rfl⟩
  obtain ⟨third, hthird, hquiet₃⟩ := exists_quiet_run hdisplaced
  have hprevious : Command.Observes (rebindMachine R) disk (inStore readManifest) n (.ok (some manifest)) n :=
    observes_inStore (observes_readManifest h.named h.valid)
  obtain ⟨fourth, hfourth, hquiet₄⟩ := exists_quiet_run hprevious
  obtain ⟨backup, harchive⟩ := hbackup candidate.preview (hcandidate.trans hcoordinate.symm)
  have hread : Command.Observes (rebindMachine R) edited (replacementTasks R) n (.ok tasks) n := by
    apply Command.Observes.bind (a := edited.store.docs .backlog)
    · exact ⟨rfl, rfl⟩
    · rw [← tasksOf_eq, htasks]
      exact .ofExcept _
  obtain ⟨fifth, hfifth, hquiet₅⟩ := exists_quiet_run hread
  have hwithin : Command.Within (.any fun o : RebindOp ↦ o = .readTasks) (replacementTasks R) :=
    .bind (.perform rfl) fun _ ↦ .ofExcept _
  have honly : ∀ o u, .own o u ∈ fifth → o = .readTasks := (Prog.Within.run (hwithin n) hfifth).1
  have hreplacement : replacementManifest R candidate tasks =
      replacementOf R readiness disk.store.docs tasks := by
    have hworkspace : candidate.preview.candidateWorkspaceId = readiness.workspaceUid :=
      congrArg RebindCoordinate.candidateWorkspaceId hcandidate
    rw [replacementManifest, hworkspace, hready, hbodies]
    rfl
  obtain ⟨sixth, published, rest, hreturns, hquiet₆⟩ := returns_archiveCandidate (m := n)
    h hcoordinate hbodies
  have hvalidated : Run (rebindMachine R) RebindDisk.ExternalEdit
      ((Command.ofExcept (.ok key) : RebindCommand String) m) disk [] (.pure (.ok key, m)) disk := .refl _ _
  have hrefused : Run (rebindMachine R) RebindDisk.ExternalEdit ((refuse (.ok backup) : RebindCommand Bytes) n)
      disk [] (.pure (.ok backup, n)) disk := .refl _ _
  refine ⟨first ++ (second ++ (third ++ (fourth ++ (.env disk edited :: (fifth ++ (.env edited disk ::
    sixth)))))), published, rest, ?_, ?_⟩
  · rw [← hreplacement]
    simp only [List.append_assoc, List.cons_append]
    rw [rebindWorkspaceIdentity, hrequest]
    apply Returns.bind hvalidated
    apply Returns.bind hfirst
    apply Returns.bind hsecond
    dsimp only
    rw [if_neg (not_not.mpr (hcandidate.trans hcoordinate.symm))]
    apply Returns.bind hthird
    apply Returns.bind hfourth
    dsimp only
    rw [if_neg (by simp [hcoordinate, displacedCoordinate]), hbodies, harchive]
    apply Returns.bind hrefused
    apply Returns.env hthere
    apply Returns.bind hfifth
    apply Returns.env hback
    exact hreturns
  · intro o u hmem
    simp only [List.mem_append, List.mem_cons, reduceCtorEq, false_or] at hmem
    rcases hmem with h₁ | h₂ | h₃ | h₄ | h₅ | h₆
    · exact Or.inl (congrArg RebindDisk.store (hquiet₁ o u h₁))
    · exact Or.inl (congrArg RebindDisk.store (hquiet₂ o u h₂))
    · exact Or.inl (congrArg RebindDisk.store (hquiet₃ o u h₃))
    · exact Or.inl (congrArg RebindDisk.store (hquiet₄ o u h₄))
    · exact Or.inr ⟨honly o u h₅, congrArg RebindDisk.store (hquiet₅ o u h₅)⟩
    · exact Or.inl (hquiet₆ o u h₆)

end Torn

section Sample

/-- The members of the archive of a candidate. -/
def archiveMembers (docs : Docs) (coordinate : RebindCoordinate) : List (String × Bytes) :=
  DocName.sortedDefaults.filterMap (fun name ↦ (docs name).map fun body ↦ (name.fileName, body)) ++
    [("recovery-manifest.json",
      (recoveryManifest coordinate.candidateWorkspaceId coordinate.candidateDigest).compactJson)]

theorem memberOf_archiveMembers {docs : Docs} (hcomplete : Complete docs) (coordinate : RebindCoordinate)
    (name : DocName) : memberOf (archiveMembers docs coordinate) name = docs name := by
  obtain ⟨bodies, hbodies⟩ : ∃ bodies : DocName → Bytes, ∀ name, docs name = some (bodies name) :=
    ⟨fun name ↦ (hcomplete name).choose, fun name ↦ (hcomplete name).choose_spec⟩
  cases name <;>
    simp [memberOf, archiveMembers, DocName.sortedDefaults, hbodies, List.lookup, DocName.fileName]

def packed (members : List (String × Bytes)) : Bytes :=
  members.flatMap fun member ↦ Json.utf8 member.1.toList ++ member.2

/-- An archive format that knows one archive. -/
def archivingRules (R : StoreRules) (members : List (String × Bytes)) : RebindRules where
  toStoreRules := R
  zip := packed
  unzip archive := if packed members = archive then some members else none

theorem candidateBackupBytes_archiving {R : StoreRules} {docs : Docs} (hcomplete : Complete docs)
    {coordinate : RebindCoordinate} {preview : RebindPreview} (h : preview.coordinate = coordinate) :
    ∃ backup, candidateBackupBytes (archivingRules R (archiveMembers docs coordinate)) docs preview =
      .ok backup := by
  subst h
  set members := archiveMembers docs preview.coordinate
  have hunzip : (archivingRules R members).unzip ((archivingRules R members).zip members) = some members :=
    if_pos rfl
  refine ⟨(archivingRules R members).zip members, if_pos ?_⟩
  change ((archivingRules R members).unzip ((archivingRules R members).zip members)).any _ = true
  rw [hunzip]
  exact decide_eq_true fun name ↦ memberOf_archiveMembers hcomplete preview.coordinate name

def otherWorkspaceId : String := "0d9c2c3e-5a7b-5c7e-9a55-3d1f0c8e7b21"

def displacedManifest : Manifest := freshManifest reviewRules otherWorkspaceId

/-- The committed documents under the manifest of another workspace. -/
def displacedDisk : RebindDisk where
  store := { docs := committedDocs, journal := none, manifest := some displacedManifest, receipt := none }
  backups _ := none
  quarantines _ := none
  receipt := none

def sampleCoordinate : RebindCoordinate where
  manifestWorkspaceId := otherWorkspaceId
  candidateWorkspaceId := sampleWorkspaceId
  manifestDigest := manifestDigest reviewRules displacedManifest
  candidateDigest := rebindCandidateDigest reviewRules sampleWorkspaceId storeSchemaVersion committedDocs

def rebindRules : RebindRules := archivingRules reviewRules (archiveMembers committedDocs sampleCoordinate)

def sampleRequest : RebindRequest where
  confirmed := true
  coordinate := sampleCoordinate
  idempotencyKey := some "rebind-01"
  clock := ⟨"20260105T090000000000Z", "2026-01-05T09:00:00Z"⟩

theorem displacedDisk_displaced : ∃ readiness, readiness.workspaceUid = sampleWorkspaceId ∧
    readiness.schemaVersion = storeSchemaVersion ∧
    Displaced reviewRules displacedDisk.store displacedManifest readiness := by
  obtain ⟨readiness, hverdict, hworkspace⟩ : ∃ readiness, verdictOf reviewRules committedDocs =
      .ok readiness ∧ readiness.workspaceUid = sampleWorkspaceId := exists_readiness (by decide +kernel)
  refine ⟨readiness, hworkspace, schemaVersion_of_verdictOf hverdict, rfl,
    freshManifest_valid _ (by decide), complete_update (freshDocs_complete _) _ _, hverdict, ?_, ?_⟩
  · rw [hworkspace]
    decide
  · intro hempty
    have hworkspaceDoc : DocName.workspace ∉ changedManifestFiles displacedManifest
        (hashesOf reviewRules committedDocs) := by
      rw [show changedManifestFiles displacedManifest (hashesOf reviewRules committedDocs) = [] from hempty]
      exact List.not_mem_nil
    apply hworkspaceDoc
    rw [changedManifestFiles, List.mem_filter]
    exact ⟨DocName.mem_sortedDefaults _, by decide +kernel⟩

/-- The backlog is empty while the Tasks are read, and nowhere else. -/
def emptiedStore : RebindDisk :=
  { displacedDisk with
    store := displacedDisk.store.write .backlog (defaultFor sampleWorkspaceId .backlog).serializedJsonBytes }

theorem emptiedStore_tasks : tasksOf reviewRules emptiedStore.store.docs = .ok [] :=
  (tasksOf_congr (by rw [emptiedStore, Disk.write_docs, Function.update_self]; rfl)).trans
    (tasksOf_freshDocs (referenceRules_loads_head _ _))

theorem sampleRequest_valid : validateRebindRequest sampleRequest = .ok "rebind-01" := by
  have hother : isCanonicalUuid otherWorkspaceId = true := by decide
  have hkey : isAdoptionKey "rebind-01" = true := by decide
  simp only [validateRebindRequest, sampleRequest, sampleCoordinate, canonicalUuid, hother,
    sampleWorkspaceId_canonical, hkey, not_true_eq_false, if_false, if_true]
  rfl

/-- The confirmed rebind of the sample, with this store while the Tasks are read. -/
theorem returns_sample {edited : RebindDisk} {tasks : Tasks}
    (hthere : RebindDisk.ExternalEdit displacedDisk edited)
    (hback : RebindDisk.ExternalEdit edited displacedDisk)
    (htasks : tasksOf reviewRules edited.store.docs = .ok tasks) :
    ∃ before published rest manifest, manifest.tasks = tasks ∧
      Returns (rebindMachine rebindRules) RebindDisk.ExternalEdit
        (rebindWorkspaceIdentity rebindRules sampleRequest .fresh) displacedDisk
        (before ++ .own (.writeManifest manifest) published :: rest)
        (fun outcome _ ↦ ∃ result, outcome.1 = .ok result) ∧
      ∀ o u, .own o u ∈ before → u.store = displacedDisk.store ∨ o = .readTasks ∧ u.store = edited.store := by
  obtain ⟨readiness, hworkspace, hschema, hdisplaced⟩ := displacedDisk_displaced
  have hcoordinate : sampleRequest.coordinate =
      displacedCoordinate rebindRules displacedManifest readiness displacedDisk.store.docs := by
    rw [displacedCoordinate, hworkspace, hschema]
    rfl
  obtain ⟨before, published, rest, hreturns, hquiet⟩ := returns_rebind (R := rebindRules) (m := .fresh)
    hdisplaced rfl sampleRequest_valid hcoordinate
    (fun preview hpreview ↦ candidateBackupBytes_archiving hdisplaced.complete hpreview) hthere hback htasks
  exact ⟨before, published, rest, _, rfl, hreturns, hquiet⟩

end Sample

end WorkStack.Store
