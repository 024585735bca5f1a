import WorkStack.Store.Commit

/-!
# Which steps a command may take

For every command, the operations it can ever perform and what it may do to the memory of the
process. Inspections only read, except that they may create a missing manifest; only the two
replacement loops touch documents. An invariant that every such step keeps is then an invariant of
the whole command.
-/

namespace WorkStack.Store

open Effect

variable {R : StoreRules}

variable {o : DiskOp}

namespace DiskOp

def Reads : DiskOp → Prop
  | isFile _ _ | readBytes _ _ | journalExists | readJournal | readManifest | readReceipt => True
  | _ => False

/-- The step reads, or creates a missing manifest. -/
def Inspects : DiskOp → Prop
  | writeManifest site _ => site = .ensured
  | o => o.Reads

/-- The step replaces no document and collects no expectation for a replacement. -/
def Settles : DiskOp → Prop
  | readBytes site _ => site ≠ .replaceExpectation
  | replaceDoc _ _ _ => False
  | _ => True

/-- The step publishes no manifest. -/
def Unpublished : DiskOp → Prop
  | writeManifest _ _ => False
  | _ => True

/-- The step publishes no manifest of the kind that a commit or an adoption does. -/
def Uncommitted : DiskOp → Prop
  | writeManifest site _ => site ≠ .committed
  | _ => True

/-- The step does not start the reading of a candidate. -/
def Continues : DiskOp → Prop
  | readBytes site _ => site ≠ .candidateHash
  | _ => True

theorem Reads.inspects (h : o.Reads) : o.Inspects := by
  cases o <;> first | exact h | trivial

theorem Reads.unpublished (h : o.Reads) : o.Unpublished := by
  cases o <;> first | exact h.elim | trivial

theorem Inspects.uncommitted (h : o.Inspects) : o.Uncommitted := by
  cases o with
  | writeManifest site manifest =>
      rw [show site = .ensured from h]
      exact fun hsite ↦ nomatch hsite
  | _ => trivial

end DiskOp

theorem Disk.perform_reads {sha256 : Bytes → Digest} (h : o.Reads) (disk : Disk) :
    (disk.perform sha256 o).2 = disk := by
  cases o <;> first | rfl | exact h.elim

/-- Reads that collect no expectation. -/
def PlainRead (o : DiskOp) : Prop := o.Reads ∧ o.Settles

/-- Plain reads that start no candidate. -/
def LaterRead (o : DiskOp) : Prop := PlainRead o ∧ o.Continues

/-- Plain reads and the creation of a missing manifest. -/
def PlainInspect (o : DiskOp) : Prop := o.Inspects ∧ o.Settles

theorem PlainRead.plainInspect (h : PlainRead o) : PlainInspect o := ⟨h.1.inspects, h.2⟩

variable {site : ReadSite}

theorem LaterRead.readBytes (hsite : site ≠ .replaceExpectation ∧ site ≠ .candidateHash) (name : DocName) :
    LaterRead (.readBytes site name) := ⟨⟨trivial, hsite.1⟩, hsite.2⟩

theorem LaterRead.isFile (site : ReadSite) (name : DocName) : LaterRead (.isFile site name) :=
  ⟨⟨trivial, trivial⟩, trivial⟩

theorem LaterRead.readManifest : LaterRead .readManifest := ⟨⟨trivial, trivial⟩, trivial⟩

theorem LaterRead.readReceipt : LaterRead .readReceipt := ⟨⟨trivial, trivial⟩, trivial⟩

/-- These operations, with the generation of the process left as it is. -/
def sameGeneration (P : DiskOp → Prop) : Footprint diskSignature Process where
  op := P
  memory m m' := m'.generation = m.generation
  refl _ := rfl
  trans _ _ _ h h' := h'.trans h

section Within

variable {F : Footprint diskSignature Process} {P : DiskOp → Prop} {α : Type} {c : StoreCommand α}

theorem within_step (h : F.op o) : Command.Within F (step o) := .perform h

theorem within_accept (result : Except String α) : Command.Within F (accept result) := .ofExcept _

theorem Within.reads (hc : Command.Within (.same LaterRead) c) : Command.Within (.same PlainRead) c :=
  hc.mono (fun _ h ↦ h.1) fun _ _ h ↦ h

theorem Within.inspects (hc : Command.Within (.same PlainRead) c) :
    Command.Within (.any PlainInspect) c :=
  hc.any fun _ ↦ PlainRead.plainInspect

theorem Within.uncommitted (hc : Command.Within (.any PlainInspect) c) :
    Command.Within (.any DiskOp.Uncommitted) c :=
  hc.any fun _ h ↦ h.1.uncommitted

theorem Within.settles (hc : Command.Within (.any PlainInspect) c) :
    Command.Within (.any DiskOp.Settles) c :=
  hc.any fun _ h ↦ h.2

theorem Within.generation (hc : Command.Within (.same P) c) : Command.Within (sameGeneration P) c :=
  hc.mono (fun _ h ↦ h) fun _ _ h ↦ h ▸ rfl

/-- Reads of this kind publish nothing and leave the generation as it is. -/
theorem Within.unpublished (hc : Command.Within (.same LaterRead) c) :
    Command.Within (sameGeneration DiskOp.Unpublished) c :=
  hc.mono (fun _ h ↦ h.1.1.unpublished) fun _ _ h ↦ h ▸ rfl

/-! ## Reads -/

theorem within_hashDocument {name : DocName} (h : F.op (.readBytes site name)) (hashes : Files) :
    Command.Within F (hashDocument R site hashes name) := by
  apply Command.Within.bind (within_step h)
  intro body
  cases body with
  | none => exact .throw _
  | some body => exact .pure _

theorem within_authoritativeHashes (h : ∀ name, F.op (.readBytes site name)) :
    Command.Within F (authoritativeHashes R site) :=
  .fold (fun hashes name ↦ within_hashDocument (h name) hashes) _ _

theorem within_laterHashes (hsite : site ≠ .replaceExpectation ∧ site ≠ .candidateHash) :
    Command.Within (.same LaterRead) (authoritativeHashes R site) :=
  within_authoritativeHashes (LaterRead.readBytes hsite)

theorem within_readJson (name : DocName) : Command.Within (.same LaterRead) (readJson R name) := by
  apply Command.Within.bind (within_step (LaterRead.readBytes (by decide) name))
  intro body
  cases body with
  | none => exact .throw _
  | some body =>
      dsimp only
      cases R.loads body with
      | none => exact .throw _
      | some value => exact .ite (.pure _) (.throw _)

theorem within_readManifest : Command.Within (.same LaterRead) readManifest := by
  apply Command.Within.bind (within_step LaterRead.readManifest)
  intro manifest
  cases manifest with
  | none => exact .pure _
  | some manifest => exact .bind (within_accept _) fun _ ↦ .pure _

theorem within_taskSemanticsLocked : Command.Within (.same LaterRead) (taskSemanticsLocked R) :=
  .bind (within_readJson _) fun _ ↦ within_accept _

theorem within_validateReadyState : Command.Within (.same LaterRead) (validateReadyState R) := by
  apply Command.Within.bind
  · apply Command.Within.fold
    intro values name
    apply Command.Within.catching (.bind (within_readJson name) fun _ ↦ .pure _)
    intro error
    cases error <;> exact .throw _
  · intro values
    exact within_accept _

theorem within_currentDigest {name : DocName} (hfile : F.op (.isFile site name)) (hread : F.op (.readBytes site name)) :
    Command.Within F (currentDigest R site name) := by
  apply Command.Within.bind (within_step hfile)
  intro present
  apply Command.Within.ite _ (.pure _)
  apply Command.Within.bind (within_step hread)
  intro body
  cases body with
  | none => exact .throw _
  | some body => exact .pure _

theorem within_invalidCandidateChangedFiles (manifest : Manifest) :
    Command.Within (.same LaterRead) (invalidCandidateChangedFiles R manifest) := by
  apply Command.Within.bind (.fold _ _ _) fun _ ↦ .pure _
  intro changed name
  apply Command.Within.bind (within_step (LaterRead.isFile _ name))
  intro present
  apply Command.Within.ite _ (.pure _)
  apply Command.Within.bind (within_step (LaterRead.readBytes (by decide) name))
  intro body
  cases body with
  | none => exact .throw _
  | some body => exact .ite (.pure _) (.pure _)

theorem within_invalidCandidate (manifest : Manifest) (workspaceId : String) (error : StoreError) :
    Command.Within (.same LaterRead) (invalidCandidate R manifest workspaceId error) := by
  cases error with
  | corrupt message => exact .bind (within_invalidCandidateChangedFiles manifest) fun _ ↦ .pure _
  | _ => exact .throw _

theorem within_validateExternalCandidate (manifest : Manifest) (hashes : Files) (workspaceId : String) :
    Command.Within (.same LaterRead) (validateExternalCandidate R manifest hashes workspaceId) :=
  .ite (.throw _) (.bind within_taskSemanticsLocked fun _ ↦ .bind (within_accept _) fun _ ↦
    .bind (within_laterHashes (by decide)) fun _ ↦ .ite (.throw _) (.pure _))

theorem within_candidateManifestDigest (manifest : Manifest) (inspection : Inspection) :
    Command.Within (.same LaterRead) (candidateManifestDigest R manifest inspection) :=
  .ite (.pure _) (.bind within_taskSemanticsLocked fun _ ↦ .pure _)

theorem within_tryCandidate (manifest : Manifest) :
    Command.Within (.same PlainRead) (tryCandidate R manifest) := by
  apply Command.Within.bind (within_authoritativeHashes (F := .same PlainRead) fun _ ↦
    ⟨trivial, (by decide : ReadSite.candidateHash ≠ .replaceExpectation)⟩)
  intro hashes
  apply Command.Within.ite (.pure _)
  apply Command.Within.bind (Within.reads within_validateReadyState)
  intro readiness
  apply Command.Within.catching
  · exact .bind (Within.reads (within_validateExternalCandidate _ _ _)) fun _ ↦ .pure _
  · exact fun error ↦ Within.reads (within_invalidCandidate _ _ error)

theorem within_inspectCandidate (manifest : Manifest) :
    Command.Within (.same PlainRead) (inspectCandidate R manifest) :=
  .catching (within_tryCandidate manifest) fun error ↦ Within.reads (within_invalidCandidate _ _ error)

theorem within_readAdoptionReceipt : Command.Within (.same LaterRead) readAdoptionReceipt := by
  apply Command.Within.bind (within_step LaterRead.readReceipt)
  intro receipt
  cases receipt with
  | none => exact .pure _
  | some receipt => exact .ite (.throw _) (.ite (.throw _) (.pure _))

theorem within_adoptionReplay (receipt : Option AdoptionReceipt) (status : SyncStatus)
    (generation : ℕ) (digest : Digest) :
    Command.Within (.same LaterRead) (adoptionReplay R receipt status generation digest) := by
  apply Command.Within.ite (.pure _)
  apply Command.Within.bind within_readManifest
  intro manifest
  cases manifest with
  | none => exact .pure _
  | some manifest => exact .pure _

theorem within_localBaselineTasks (previous : Manifest) (expected : Files)
    (changedFiles : List DocName) :
    Command.Within (.same PlainRead) (localBaselineTasks R previous expected changedFiles) :=
  Within.reads (.bind (within_laterHashes (by decide)) fun _ ↦ .bind (within_accept _) fun _ ↦
    .bind (.ite within_taskSemanticsLocked (.pure _)) fun _ ↦
      .bind (within_laterHashes (by decide)) fun _ ↦ .bind (within_accept _) fun _ ↦ .pure _)

theorem within_assertRecoveryTargetsSafe (manifest : Option Manifest) (writes : Writes) :
    Command.Within (.same LaterRead) (assertRecoveryTargetsSafe R manifest writes) := by
  cases manifest with
  | none => exact .pure _
  | some manifest =>
      apply Command.Within.fold
      intro _ write
      exact .bind (within_currentDigest (LaterRead.isFile _ _) (LaterRead.readBytes (by decide) _))
        fun _ ↦ within_accept _

theorem within_collectExpectations (writes : Writes) :
    Command.Within (.same DiskOp.Reads) (collectExpectations R writes) := by
  apply Command.Within.fold
  intro expectations write
  exact .bind (within_currentDigest trivial trivial) fun _ ↦ .pure _

theorem within_replaceDocuments (expectations : Expectations) (writes : Writes) :
    Command.Within (.same DiskOp.Unpublished) (replaceDocuments expectations writes) :=
  .fold (fun _ _ ↦ .bind (within_step trivial) fun _ ↦ .ite (.pure _) (.throw _)) _ _

/-! ## Inspections -/

theorem within_emitEvent (type workspaceId : String) (changedFiles : List DocName) :
    Command.Within (sameGeneration P) (emitEvent type workspaceId changedFiles) :=
  .remember fun _ ↦ rfl

theorem within_rememberInspection (inspection : Inspection) :
    Command.Within (sameGeneration P) (rememberInspection R inspection) :=
  .bind (.bind .memory fun _ ↦ .ite (within_emitEvent _ _ _) (.pure _)) fun _ ↦ .remember fun _ ↦ rfl

theorem within_rememberInSync : Command.Within (sameGeneration P) rememberInSync :=
  .remember fun _ ↦ rfl

theorem within_ensureSyncManifest : Command.Within (.any PlainInspect) (ensureSyncManifest R) := by
  apply Command.Within.bind (Within.inspects (Within.reads within_readManifest))
  intro manifest
  cases manifest with
  | some manifest => exact .pure _
  | none =>
      exact .bind (Within.inspects (Within.reads within_validateReadyState)) fun _ ↦
        .bind .memory fun _ ↦
          .bind (Within.inspects (Within.reads (within_laterHashes (by decide)))) fun _ ↦
            .bind (Within.inspects (Within.reads within_taskSemanticsLocked)) fun _ ↦
              .bind (within_step ⟨rfl, trivial⟩) fun _ ↦
                .bind (.remember fun _ ↦ trivial) fun _ ↦ .pure _

/-- An inspection reads, and may publish a missing manifest. -/
theorem within_inspectSync : Command.Within (.any PlainInspect) (inspectSync R) :=
  .bind within_ensureSyncManifest fun manifest ↦ .bind (.remember fun _ ↦ trivial) fun _ ↦
    .bind (Within.inspects (within_inspectCandidate manifest)) fun _ ↦
      .bind ((within_rememberInspection _).any fun _ h ↦ h) fun _ ↦
        .bind (Within.inspects (Within.reads (within_candidateManifestDigest _ _))) fun _ ↦ .pure _

theorem within_syncStatus : Command.Within (.any PlainInspect) (syncStatus R) :=
  .bind within_inspectSync fun _ ↦ .pure _

theorem within_raiseExternalChange :
    Command.Within (.any PlainInspect) (raiseExternalChange R : StoreCommand α) :=
  .bind within_inspectSync fun _ ↦ .throw _

theorem within_assertWritable : Command.Within (.any PlainInspect) (assertWritable R) :=
  .bind .memory fun _ ↦ .ite (.pure _) (.bind within_inspectSync fun _ ↦ .ite (.pure _) (.throw _))

/-! ## Publications -/

theorem within_advanceGeneration (persisted : ℕ) :
    Command.Within (.any P) (advanceGeneration persisted) :=
  .bind .memory fun _ ↦ .bind (.remember fun _ ↦ trivial) fun _ ↦ .pure _

theorem within_writeCommittedManifest (changedFiles : List DocName) (eventType : String)
    (expected : Option Files) :
    Command.Within (.any DiskOp.Settles) (writeCommittedManifest R changedFiles eventType expected) := by
  have hhashes : Command.Within (.any DiskOp.Settles) (authoritativeHashes R .authoritativeHash) :=
    (within_laterHashes (by decide)).any fun _ h ↦ h.1.2
  have htasks : Command.Within (.any DiskOp.Settles) (taskSemanticsLocked R) :=
    within_taskSemanticsLocked.any fun _ h ↦ h.1.2
  have hready : Command.Within (.any DiskOp.Settles) (validateReadyState R) :=
    within_validateReadyState.any fun _ h ↦ h.1.2
  have hread : Command.Within (.any DiskOp.Settles) readManifest :=
    within_readManifest.any fun _ h ↦ h.1.2
  have hraise : Command.Within (.any DiskOp.Settles) (raiseExternalChange R : StoreCommand Unit) :=
    Within.settles within_raiseExternalChange
  exact .bind hhashes fun _ ↦ .ite hraise (.bind htasks fun _ ↦ .bind hready fun _ ↦
    .bind hhashes fun _ ↦ .bind htasks fun _ ↦ .ite (.throw _) (.ite hraise (.bind hread fun _ ↦
      .bind (within_advanceGeneration _) fun _ ↦ .bind (within_step trivial) fun _ ↦
        .bind (.remember fun _ ↦ trivial) fun _ ↦ .bind (.remember fun _ ↦ trivial) fun _ ↦
          (within_emitEvent _ _ _).any fun _ h ↦ h)))

theorem within_writeLocalBaseline (previous : Manifest) (files : Files) (tasks : Tasks)
    (changedFiles : List DocName) :
    Command.Within (.any DiskOp.Settles) (writeLocalBaseline previous files tasks changedFiles) :=
  .bind (within_advanceGeneration _) fun _ ↦ .bind (within_step trivial) fun _ ↦
    .bind (.remember fun _ ↦ trivial) fun _ ↦ (within_emitEvent _ _ _).any fun _ h ↦ h

theorem within_commitLocalWithExternalCandidate (baseline : Manifest) (expected : Files)
    (changedFiles : List DocName) :
    Command.Within (.any DiskOp.Settles)
      (commitLocalWithExternalCandidate R baseline expected changedFiles) :=
  .bind (Within.settles (Within.inspects (within_localBaselineTasks _ _ _))) fun _ ↦
    .bind (within_writeLocalBaseline _ _ _ _) fun _ ↦
      .bind (within_step trivial) fun _ ↦ .bind (Within.settles within_inspectSync) fun _ ↦ .pure _

theorem within_resolveLateExternalChange (baseline : Option Manifest) (expected : Files)
    (changedFiles : List DocName) :
    Command.Within (.any DiskOp.Settles)
      (resolveLateExternalChange R baseline expected changedFiles) := by
  apply Command.Within.bind
    (Within.settles (Within.inspects (Within.reads (within_laterHashes (by decide)))))
  intro finalHashes
  cases baseline with
  | none => exact Within.settles within_raiseExternalChange
  | some manifest =>
      exact .ite (within_commitLocalWithExternalCandidate _ _ _)
        (Within.settles within_raiseExternalChange)

/-- After the documents are replaced, a commit replaces none of them again. -/
theorem within_publishCommit (baseline : Option Manifest) (expected : Files)
    (changedFiles : List DocName) :
    Command.Within (.any DiskOp.Settles) (publishCommit R baseline expected changedFiles) := by
  apply Command.Within.bind
    (Within.settles (Within.inspects (Within.reads (within_laterHashes (by decide)))))
  intro actual
  apply Command.Within.ite (.throw _)
  split
  · exact within_commitLocalWithExternalCandidate _ _ _
  · apply Command.Within.catching
    · exact .bind (within_writeCommittedManifest _ _ _) fun _ ↦ within_step trivial
    · intro error
      cases error with
      | externalChange status => exact within_resolveLateExternalChange _ _ _
      | _ => exact .throw _

/-- After the documents are replaced, a recovery replaces none of them again. -/
theorem within_finishRecovery (baseline : Option Manifest) (writes : Writes) :
    Command.Within (.any DiskOp.Settles) (finishRecovery R baseline writes) := by
  cases baseline with
  | some manifest =>
      exact .bind (Within.settles (Within.inspects (within_localBaselineTasks _ _ _))) fun _ ↦
        .bind (within_writeLocalBaseline _ _ _ _) fun _ ↦
          .bind (within_step trivial) fun _ ↦ .bind (Within.settles within_inspectSync) fun _ ↦
            .remember fun _ ↦ trivial
  | none => exact .bind (within_step trivial) fun _ ↦ .remember fun _ ↦ trivial

end Within

/-! ## An editor -/

/-- The editor beside a call; nothing is asked of its steps. -/
def besideEditor (R : StoreRules) : Contract (machine R) where
  rely := Disk.ExternalEdit
  assume _ _ := True
  ensure _ _ := True
  rely_refl := .refl
  rely_trans := .trans

end WorkStack.Store
