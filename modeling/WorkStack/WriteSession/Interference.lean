import WorkStack.WriteSession.Reads

/-!
# A session beside an external writer

An external writer may do anything to the files and the manifest between any two steps of a session
or a recovery; only the journal is left to them. Whatever it does, every own step is one that is
permitted: no artifact is written except by applying a target of the journal, and no journal is
published that is cut short.
-/

namespace WorkStack.WriteSession

open Effect Python
open Store (Digest)

variable {R : SessionRules} {runtime : RuntimeAuthority}

/-- The other writer does not touch the journal and its stage file. -/
def ExternalWrite (before after : Disk) : Prop :=
  after.journal = before.journal ∧ after.journalStage = before.journalStage

/-- What a process calls: a session, or a recovery of what another one left. -/
inductive Call where
  | execute (plan : Plan)
  | recover

def Call.command (R : SessionRules) (runtime : RuntimeAuthority) : Call → SessionCommand Unit
  | execute plan => do
      let _ ← executeWriteSession R runtime plan
      pure ()
  | recover => do
      let _ ← recoverWriteSession R runtime
      pure ()

/-! ## Operations -/

def Location.isStage (location : Location) : Prop := ∃ path suffix, location.name = .stage path suffix

/-- Operations that only read. -/
def DiskOp.Reads : DiskOp → Prop
  | walk | readFile _ | readJournal | journalStageExists | readManifest => True
  | _ => False

/-- Operations that leave the journal, its stage file and the artifacts as they are. -/
def DiskOp.Keeps : DiskOp → Prop
  | createFile location | appendByte location _ | unlinkFile location => location.isStage
  | replaceManifest _ => True
  | o => o.Reads

/-- Operations that publish a journal. -/
def DiskOp.Publishes : DiskOp → Prop
  | unlinkJournalStage | createJournalStage | writeJournalStage _ | replaceJournal => True
  | o => o.Reads

/-- What every own step guarantees: it writes no artifact except by applying a target of the journal,
and it publishes no journal that is cut short. -/
def DiskOp.Permitted (disk : Disk) : DiskOp → Prop
  | createFile location | appendByte location _ | unlinkFile location => location.isStage
  | applyTarget target stage => (∃ journal, disk.journal = some journal ∧ target ∈ journal.targets) ∧
      ∀ location, stage = some location → location.isStage
  | replaceJournal => disk.journalStage ≠ some none
  | _ => True

theorem DiskOp.Reads.keeps {o : DiskOp} (h : o.Reads) : o.Keeps := by
  cases o with
  | createFile | appendByte | unlinkFile | replaceManifest => cases h
  | _ => exact h

theorem DiskOp.Reads.publishes {o : DiskOp} (h : o.Reads) : o.Publishes := by
  cases o with
  | unlinkJournalStage | createJournalStage | writeJournalStage | replaceJournal => trivial
  | _ => exact h

theorem DiskOp.Keeps.permitted {o : DiskOp} (h : o.Keeps) (disk : Disk) : o.Permitted disk := by
  cases o with
  | applyTarget | replaceJournal => cases h
  | createFile | appendByte | unlinkFile => exact h
  | _ => trivial

theorem DiskOp.Keeps.journal {o : DiskOp} (h : o.Keeps) (disk : Disk) :
    (disk.perform R.sha256 o).2.journal = disk.journal ∧
      (disk.perform R.sha256 o).2.journalStage = disk.journalStage := by
  cases o with
  | applyTarget | unlinkJournalStage | createJournalStage | writeJournalStage | replaceJournal
  | unlinkJournal => cases h
  | createFile location =>
      rw [Disk.perform]
      split <;> exact ⟨rfl, rfl⟩
  | appendByte location byte =>
      rw [Disk.perform]
      split <;> exact ⟨rfl, rfl⟩
  | _ => exact ⟨rfl, rfl⟩

section Footprints

variable {F : Footprint diskSignature Unit}

theorem within_step {o : DiskOp} (h : F.op o) : Command.Within F (step o) := .perform h

theorem within_stop {α : Type} (code artifact : String) :
    Command.Within F (stop code artifact : SessionCommand α) := .throw _

theorem within_admitted {α : Type} (result : Checked α) : Command.Within F (admitted result) :=
  .ofExcept _

/-- A command that only reads, among other commands. -/
theorem reads_within {α : Type} {c : SessionCommand α} (hc : c.Within (.same DiskOp.Reads))
    {P : DiskOp → Prop} (hP : ∀ o, o.Reads → P o) : c.Within (.same P) :=
  hc.mono hP fun _ _ h ↦ h

theorem within_fileDigest (location : Location) :
    (fileDigest R location).Within (.same DiskOp.Reads) :=
  .bind (within_step trivial) fun _ ↦ .pure _

theorem within_readAuthority : (readAuthority R).Within (.same DiskOp.Reads) := by
  apply Command.Within.bind (within_step trivial)
  intro names
  apply Command.Within.bind
  · apply Command.Within.fold
    intro files name
    apply Command.Within.bind (within_step trivial)
    intro body
    cases body with
    | none => exact within_stop _ _
    | some body => exact .pure _
  · intro files
    cases R.readV4 files with
    | none => exact within_stop _ _
    | some read => exact .pure _

theorem within_actualManifest (generation : ℕ) :
    (actualManifest R generation).Within (.same DiskOp.Reads) := by
  apply Command.Within.bind within_readAuthority
  intro result
  apply Command.Within.bind within_readAuthority
  intro current
  apply Command.Within.ite (within_stop _ _)
  cases buildManifest generation current.1 current.2 with
  | none => exact within_stop _ _
  | some manifest => exact .pure _

theorem within_readRuntimeManifest : (readRuntimeManifest R).Within (.same DiskOp.Reads) := by
  apply Command.Within.bind (within_step trivial)
  intro manifest
  cases manifest with
  | none => exact .pure _
  | some manifest =>
      dsimp only
      cases R.manifestDefect manifest with
      | none => exact .pure _
      | some code => exact within_stop _ _

theorem within_verifyBaseline : (verifyBaseline R).Within (.same DiskOp.Reads) := by
  apply Command.Within.bind within_readRuntimeManifest
  intro state
  cases state with
  | none => exact within_stop _ _
  | some state =>
      apply Command.Within.bind (within_actualManifest _)
      intro actual
      exact .ite (within_stop _ _) (.pure _)

theorem within_verifyRecoveryState (journal : Journal) (reference : Manifest) :
    (verifyRecoveryState R runtime journal reference).Within (.same DiskOp.Reads) := by
  apply Command.Within.bind (within_admitted _)
  intro artifacts
  apply Command.Within.bind
  · exact .bind (within_step trivial) fun _ ↦ within_admitted _
  · intro actual
    apply Command.Within.ite (within_stop _ _)
    apply Command.Within.bind
    · apply Command.Within.fold
      intro _ entry
      apply Command.Within.ite (.pure _)
      exact .bind (within_fileDigest _) fun _ ↦ .ite (within_stop _ _) (.pure _)
    · intro _
      apply Command.Within.fold
      intro _ target
      apply Command.Within.bind (within_admitted _)
      intro location
      exact .bind (within_fileDigest _) fun _ ↦ .ite (within_stop _ _) (.pure _)

theorem within_readJournal : (readJournal R).Within (.same DiskOp.Reads) := by
  apply Command.Within.bind (within_step trivial)
  intro journal
  cases journal with
  | none => exact .pure _
  | some journal => exact .bind (within_admitted _) fun _ ↦ .pure _

theorem within_journalFileDigest : (journalFileDigest R).Within (.same DiskOp.Reads) :=
  .bind (within_step trivial) fun _ ↦ .pure _

theorem within_currentManifestDigest : (currentManifestDigest R).Within (.same DiskOp.Reads) :=
  .bind within_readRuntimeManifest fun _ ↦ .pure _

theorem within_publishManifest (manifest : Manifest) (expected : Digest) :
    (publishManifest R manifest expected).Within (.same DiskOp.Keeps) := by
  have hcurrent := reads_within (within_currentManifestDigest (R := R)) fun _ ↦ DiskOp.Reads.keeps
  have hread := reads_within (within_readRuntimeManifest (R := R)) fun _ ↦ DiskOp.Reads.keeps
  unfold publishManifest
  cases R.manifestDefect manifest with
  | some code => exact within_stop _ _
  | none =>
      apply Command.Within.bind hcurrent
      intro current
      apply Command.Within.ite (within_stop _ _)
      apply Command.Within.bind hcurrent
      intro again
      apply Command.Within.ite (within_stop _ _)
      apply Command.Within.bind (within_step trivial)
      intro _
      apply Command.Within.bind hread
      intro verified
      cases verified with
      | none => exact within_stop _ _
      | some verified => exact .ite (within_stop _ _) (.pure _)

theorem within_publishedState (journal : Journal) (manifest : Manifest) (current : Digest) :
    (publishedState R journal manifest current).Within (.same DiskOp.Keeps) := by
  apply Command.Within.ite (within_publishManifest _ _)
  apply Command.Within.ite
  · apply Command.Within.bind (reads_within within_readRuntimeManifest fun _ ↦ DiskOp.Reads.keeps)
    intro state
    cases state with
    | none => exact within_stop _ _
    | some state => exact .pure _
  · exact within_stop _ _

theorem within_writeStage (stage : Location) (body : Bytes) (hstage : stage.isStage) :
    (writeStage R stage body).Within (.same DiskOp.Keeps) := by
  have hdigest := reads_within (within_fileDigest (R := R) stage) fun _ ↦ DiskOp.Reads.keeps
  have hcreate : Command.Within (.same DiskOp.Keeps) (do
      let created : Bool ← step (.createFile stage)
      if created then
        Command.fold (fun _ byte ↦ step (.appendByte stage byte)) body ()
        let written ← fileDigest R stage
        if written ≠ some (R.sha256 body) then stop "TARGET_STAGE_VERIFICATION_FAILED" else pure ()
      else stop "TARGET_STAGE_FAILED" : SessionCommand Unit) := by
    apply Command.Within.bind (within_step hstage)
    intro created
    apply Command.Within.ite _ (within_stop _ _)
    have hbytes : Command.Within (.same DiskOp.Keeps) (Command.fold (fun _ byte ↦
        step (.appendByte stage byte)) body () : SessionCommand Unit) :=
      .fold (fun _ byte ↦ within_step (o := .appendByte stage byte) hstage) _ _
    apply Command.Within.bind hbytes
    intro _
    exact .bind hdigest fun _ ↦ .ite (within_stop _ _) (.pure _)
  rw [writeStage]
  apply Command.Within.bind hdigest
  intro current
  cases current with
  | none => exact hcreate
  | some digest =>
      apply Command.Within.ite
      · exact .bind (within_stop _ _) fun _ ↦ hcreate
      · exact .bind (within_step hstage) fun _ ↦ hcreate

theorem within_publishJournal (journal : Journal) (expected : Option Digest) :
    (publishJournal R journal expected).Within (.same DiskOp.Publishes) := by
  have hdigest := reads_within (within_journalFileDigest (R := R)) fun _ ↦ DiskOp.Reads.publishes
  have hread := reads_within (within_readJournal (R := R)) fun _ ↦ DiskOp.Reads.publishes
  have hcreate : (publishCreated R journal expected).Within (.same DiskOp.Publishes) := by
    apply Command.Within.bind (within_step trivial)
    intro created
    apply Command.Within.ite (within_stop _ _)
    apply Command.Within.bind (within_step trivial)
    intro _
    apply Command.Within.bind hdigest
    intro current
    apply Command.Within.ite (.bind (within_step trivial) fun _ ↦ within_stop _ _)
    apply Command.Within.bind (within_step trivial)
    intro replaced
    apply Command.Within.ite (within_stop _ _)
    apply Command.Within.bind (within_step trivial)
    intro _
    apply Command.Within.bind hread
    intro persisted
    cases persisted with
    | none => exact within_stop _ _
    | some persisted => exact .ite (within_stop _ _) (.pure _)
  rw [publishJournal]
  apply Command.Within.bind hdigest
  intro current
  apply Command.Within.ite (within_stop _ _)
  apply Command.Within.bind (within_step trivial)
  intro present
  apply Command.Within.ite _ hcreate
  apply Command.Within.ite
  · exact .bind (within_stop _ _) fun _ ↦ hcreate
  · exact .bind (within_step trivial) fun _ ↦ hcreate

end Footprints

/-! ## Beside an external writer -/

def writerContract (R : SessionRules) : Contract (machine R) where
  rely := ExternalWrite
  assume _ _ := True
  ensure o disk := o.Permitted disk
  rely_refl _ := ⟨rfl, rfl⟩
  rely_trans _ _ _ h h' := ⟨h'.1.trans h.1, h'.2.trans h.2⟩

/-- The journal is there and names these targets. -/
def Names (targets : List JournalTarget) (disk : Disk) : Prop :=
  ∃ journal, disk.journal = some journal ∧ journal.targets = targets

section Writer

variable {disk : Disk} {m : Unit} {α : Type} {Q : α → Unit → Disk → Prop}
variable {E : SessionError → Unit → Disk → Prop} {targets : List JournalTarget}

theorem wp_writer_step {o : DiskOp} {f : o.Answer → SessionCommand α}
    (h : ∀ u, ExternalWrite disk u → o.Permitted u ∧
      Command.wp (writerContract R) (f (u.perform R.sha256 o).1) Q E m (u.perform R.sha256 o).2) :
    Command.wp (writerContract R) (step o >>= f) Q E m disk := by
  rw [Command.wp_bind]
  intro u hu _
  exact h u hu

/-- What is known of the journal is kept by everything that leaves it alone. -/
theorem wp_writer_keeps {P : Option Journal → Option (Option Journal) → Prop} {c : SessionCommand α}
    (hc : c.Within (.same DiskOp.Keeps)) (h : P disk.journal disk.journalStage) :
    Command.wp (writerContract R) c (fun _ _ u ↦ P u.journal u.journalStage)
      (fun _ _ _ ↦ True) m disk := by
  have hwp := hc.wp (C := writerContract R) (I := fun u : Disk ↦ P u.journal u.journalStage) (m := m)
    (fun u v hu hv ↦ by rwa [hv.1, hv.2]) (fun o u ho hu _ ↦ ⟨ho.permitted u, by
      have hkeeps := ho.journal (R := R) u
      change P (u.perform R.sha256 o).2.journal (u.perform R.sha256 o).2.journalStage
      rwa [hkeeps.1, hkeeps.2]⟩) h
  exact Command.wp_mono hwp (fun _ _ _ hdone ↦ hdone.1) fun _ _ _ _ ↦ trivial

theorem wp_writer_names {c : SessionCommand α} (hc : c.Within (.same DiskOp.Keeps))
    (h : Names targets disk) :
    Command.wp (writerContract R) c (fun _ _ u ↦ Names targets u) (fun _ _ _ ↦ True) m disk :=
  wp_writer_keeps (P := fun journal _ ↦ ∃ current, journal = some current ∧ current.targets = targets) hc h

theorem wp_writer_free {c : SessionCommand α} (hc : c.Within (.same DiskOp.Keeps)) :
    Command.wp (writerContract R) c (fun _ _ _ ↦ True) (fun _ _ _ ↦ True) m disk :=
  wp_writer_keeps (P := fun _ _ ↦ True) hc trivial

/-- Publishing never publishes a stage file that is cut short. -/
theorem wp_writer_publishJournal (journal : Journal) (expected : Option Digest) :
    Command.wp (writerContract R) (publishJournal R journal expected)
      (fun _ _ u ↦ u.journal = some journal) (fun _ _ _ ↦ True) m disk := by
  have hreads := fun {α : Type} {c : SessionCommand α} (hc : c.Within (.same DiskOp.Reads)) ↦
    reads_within hc fun _ ↦ DiskOp.Reads.keeps
  have hcreate : ∀ m disk, Command.wp (writerContract R) (publishCreated R journal expected)
      (fun _ _ u ↦ u.journal = some journal) (fun _ _ _ ↦ True) m disk := by
    intro m disk
    apply wp_writer_step
    intro u _
    refine ⟨trivial, ?_⟩
    split
    · trivial
    · apply wp_writer_step
      intro v _
      refine ⟨trivial, ?_⟩
      have hwritten : (Disk.perform R.sha256 (.writeJournalStage journal) v).2.journalStage =
          some (some journal) := rfl
      apply Command.wp_seq (wp_writer_keeps (P := fun _ journalStage ↦ journalStage = some (some journal))
        (hreads within_journalFileDigest) hwritten)
      · intro current m digested hstage
        split
        · apply wp_writer_step
          exact fun _ _ ↦ ⟨trivial, trivial⟩
        · apply wp_writer_step
          intro x hx
          have hready : x.journalStage = some (some journal) := hx.2.trans hstage
          have hreplaced : x.perform R.sha256 .replaceJournal =
              (true, { x with journal := some journal, journalStage := none }) := by
            simp [Disk.perform, hready]
          refine ⟨?_, ?_⟩
          · change x.journalStage ≠ some none
            simp [hready]
          · rw [hreplaced, if_neg (by simp)]
            apply wp_writer_step
            intro y hy
            refine ⟨trivial, ?_⟩
            have hpublished : (y.perform R.sha256 .unlinkJournalStage).2.journal = some journal := hy.1
            apply Command.wp_seq (wp_writer_keeps (P := fun current _ ↦ current = some journal)
              (hreads within_readJournal) hpublished)
            · intro persisted m read hread
              cases persisted with
              | none => trivial
              | some persisted =>
                  dsimp only
                  split
                  · trivial
                  · exact hread
            · exact fun _ _ _ _ ↦ trivial
      · exact fun _ _ _ _ ↦ trivial
  rw [publishJournal]
  apply Command.wp_seq (wp_writer_free (hreads within_journalFileDigest))
  · intro current m digested _
    split
    · trivial
    · apply wp_writer_step
      intro u _
      refine ⟨trivial, ?_⟩
      split
      · split
        · trivial
        · apply wp_writer_step
          exact fun v _ ↦ ⟨trivial, hcreate m _⟩
      · exact hcreate m _
  · exact fun _ _ _ _ ↦ trivial

theorem advanceJournalPhase_targets {journal advanced : Journal} {phase : Phase}
    (h : advanceJournalPhase R journal phase = .ok advanced) : advanced.targets = journal.targets := by
  rw [advanceJournalPhase] at h
  split at h
  · cases h
  · obtain ⟨_, -, hadvanced⟩ := Outcome.bind_eq_ok.mp h
    cases hadvanced
    rfl

theorem wp_writer_advanceJournal (journal : Journal) (phase : Phase) :
    Command.wp (writerContract R) (advanceJournal R journal phase)
      (fun advanced _ u ↦ advanced.targets = journal.targets ∧ Names journal.targets u)
      (fun _ _ _ ↦ True) m disk := by
  rw [advanceJournal, Command.wp_bind]
  apply Command.wp_ofExcept
  · intro advanced hadvance
    have htargets := advanceJournalPhase_targets hadvance
    apply Command.wp_seq (wp_writer_publishJournal advanced _)
    · intro _ _ u hu
      exact ⟨htargets, advanced, hu, htargets⟩
    · exact fun _ _ _ _ ↦ trivial
  · exact fun _ _ ↦ trivial

theorem wp_writer_reachPhase (journal : Journal) (phase : Phase) :
    Command.wp (writerContract R) (reachPhase R journal phase) (fun _ _ _ ↦ True) (fun _ _ _ ↦ True)
      m disk := by
  rw [reachPhase]
  split
  · apply Command.wp_mono (wp_writer_advanceJournal journal phase)
    · exact fun _ _ _ _ ↦ trivial
    · exact fun _ _ _ _ ↦ trivial
  · trivial

/-- Staging leaves the journal alone and gives away stage files only. -/
theorem wp_writer_stageTargets {journal : Journal} (h : Names targets disk) :
    Command.wp (writerContract R) (stageTargets R runtime journal)
      (fun stages _ u ↦ Names targets u ∧ ∀ entry ∈ stages, entry.2.isStage)
      (fun _ _ _ ↦ True) m disk := by
  apply Command.wp_fold (M := machine R) (C := writerContract R) (R := fun _ _ _ ↦ True)
    (stageTarget R runtime journal)
    (I := fun _ stages _ u ↦ Names targets u ∧ ∀ entry ∈ stages, entry.2.isStage)
  · intro stages item _ m u ⟨hu, hstages⟩
    rw [stageTarget, Command.wp_bind]
    apply Command.wp_ofExcept
    · intro path _
      apply Command.wp_seq (wp_writer_names (reads_within (within_fileDigest path) fun _ ↦
        DiskOp.Reads.keeps) hu)
      · intro current m v hv
        split
        · exact ⟨hv, hstages⟩
        · split
          · exact ⟨hv, hstages⟩
          · cases item.proposedBytes with
            | none => trivial
            | some body =>
                have hlocation : (stageLocation R journal.operationId item).isStage := ⟨_, _, rfl⟩
                apply Command.wp_seq (wp_writer_names (within_writeStage _ body hlocation) hv)
                · intro _ _ w hw
                  refine ⟨hw, fun entry hentry ↦ ?_⟩
                  rcases List.mem_append.mp hentry with hentry | hentry
                  · exact hstages entry hentry
                  · rw [List.mem_singleton] at hentry
                    rw [hentry]
                    exact hlocation
                · exact fun _ _ _ _ ↦ trivial
      · exact fun _ _ _ _ ↦ trivial
    · exact fun _ _ ↦ trivial
  · exact ⟨h, by simp⟩

theorem within_cleanupStages {F : Footprint diskSignature Unit} {stages : Stages}
    (h : ∀ entry ∈ stages, F.op (.unlinkFile entry.2)) : (cleanupStages stages).Within F := by
  induction stages with
  | nil => exact .pure _
  | cons entry stages ih =>
      rw [cleanupStages, Command.fold]
      apply Command.Within.bind
      · exact .bind (within_step (h entry (List.mem_cons_self ..))) fun _ ↦ .pure _
      · exact fun _ ↦ ih fun other hother ↦ h other (List.mem_cons_of_mem _ hother)

theorem applyTarget_journal (target : JournalTarget) (stage : Option Location) (disk : Disk) :
    (disk.applyTarget R.sha256 target stage).2.journal = disk.journal := by
  unfold Disk.applyTarget
  dsimp only
  split
  · rfl
  · split
    · rfl
    · cases target.action with
      | delete =>
          dsimp only
          split <;> rfl
      | replace =>
          cases stage with
          | none => rfl
          | some stage =>
              dsimp only
              split
              · rfl
              · split <;> rfl

theorem wp_writer_applyStages {journal : Journal} (reference : Manifest) {stages : Stages}
    (h : Names journal.targets disk) (hstages : ∀ entry ∈ stages, entry.2.isStage) :
    Command.wp (writerContract R) (applyStages R runtime journal reference stages)
      (fun _ _ _ ↦ True) (fun _ _ _ ↦ True) m disk := by
  have hloop := Command.wp_fold (M := machine R) (C := writerContract R) (m := m) (w := disk)
    (R := fun _ _ _ ↦ True) (applyTarget R runtime journal reference stages)
    (I := fun items _ _ u ↦ items ⊆ journal.targets ∧ Names journal.targets u) ?_ journal.targets ()
    ⟨List.Subset.refl _, h⟩
  · exact Command.wp_mono hloop (fun _ _ _ _ ↦ trivial) fun _ _ _ _ ↦ trivial
  · intro _ item items m u ⟨hitems, hu⟩
    rw [List.cons_subset] at hitems
    rw [applyTarget, Command.wp_bind]
    apply Command.wp_ofExcept
    · intro _ _
      apply wp_writer_step (o := .applyTarget item (stages.lookup item))
      intro v hv
      have hnames : Names journal.targets v := by
        obtain ⟨current, hcurrent, htargets⟩ := hu
        exact ⟨current, hv.1.trans hcurrent, htargets⟩
      refine ⟨?_, ?_⟩
      · obtain ⟨current, hcurrent, htargets⟩ := hnames
        refine ⟨⟨current, hcurrent, htargets ▸ hitems.1⟩, fun location hlookup ↦ ?_⟩
        obtain ⟨before, after, hsplit, -⟩ := List.lookup_eq_some_iff.mp hlookup
        exact hstages (item, location) (by simp [hsplit])
      · have happlied : Names journal.targets (v.perform R.sha256 (.applyTarget item (stages.lookup item))).2 := by
          obtain ⟨current, hcurrent, htargets⟩ := hnames
          exact ⟨current, (applyTarget_journal _ _ _).trans hcurrent, htargets⟩
        have hreads : Command.Within (.same DiskOp.Keeps) (verifyRecoveryState R runtime journal reference) :=
          reads_within (within_verifyRecoveryState journal reference) fun _ ↦ DiskOp.Reads.keeps
        have hverify := wp_writer_names (R := R) (m := m) hreads happlied
        cases (v.perform R.sha256 (.applyTarget item (stages.lookup item))).1 with
        | already => exact ⟨hitems.2, happlied⟩
        | deleted => exact Command.wp_mono hverify (fun _ _ _ hdone ↦ ⟨hitems.2, hdone⟩) fun _ _ _ _ ↦ trivial
        | replaced => exact Command.wp_mono hverify (fun _ _ _ hdone ↦ ⟨hitems.2, hdone⟩) fun _ _ _ _ ↦ trivial
        | mismatch | notStaged | stageInvalid | failed => trivial
    · exact fun _ _ ↦ trivial

theorem wp_writer_applyTargets {journal : Journal} (reference : Manifest) (h : Names journal.targets disk) :
    Command.wp (writerContract R) (applyTargets R runtime journal reference)
      (fun _ _ _ ↦ True) (fun _ _ _ ↦ True) m disk := by
  rw [applyTargets]
  apply Command.wp_seq (wp_writer_stageTargets h)
  · intro stages m staged ⟨hstaged, hstages⟩
    have hclean : ∀ m u, Command.wp (writerContract R) (cleanupStages stages) (fun _ _ _ ↦ True)
        (fun _ _ _ ↦ True) m u := fun m u ↦ wp_writer_free (within_cleanupStages hstages)
    rw [Command.wp_bind, Command.wp_catching]
    apply Command.wp_mono (wp_writer_applyStages reference hstaged hstages)
    · exact fun _ m u _ ↦ hclean m u
    · intro error m u _
      apply Command.wp_seq (hclean m u)
      · exact fun _ _ _ _ ↦ trivial
      · exact fun _ _ _ _ ↦ trivial
  · exact fun _ _ _ _ ↦ trivial

theorem wp_writer_completeGeneration (journal : Journal) (manifest : Manifest) (current : Digest) :
    Command.wp (writerContract R) (completeGeneration R journal manifest current)
      (fun _ _ _ ↦ True) (fun _ _ _ ↦ True) m disk := by
  rw [completeGeneration]
  apply Command.wp_seq (wp_writer_free (within_publishedState _ _ _))
  · intro state m _ _
    apply Command.wp_seq (wp_writer_reachPhase _ _)
    · intro journal m _ _
      apply Command.wp_seq (wp_writer_reachPhase _ _)
      · intro journal m _ _
        rw [Command.wp_bind, removeJournal]
        apply Command.wp_seq (wp_writer_free (reads_within within_journalFileDigest fun _ ↦
          DiskOp.Reads.keeps))
        · intro digest m _ _
          split
          · trivial
          · apply wp_writer_step
            intro u _
            refine ⟨trivial, ?_⟩
            split <;> trivial
        · exact fun _ _ _ _ ↦ trivial
      · exact fun _ _ _ _ ↦ trivial
    · exact fun _ _ _ _ ↦ trivial
  · exact fun _ _ _ _ ↦ trivial

theorem wp_writer_finishTargets {journal : Journal} (reference : Manifest) (generation : ℕ)
    (proposed : Digest) (h : Names journal.targets disk) :
    Command.wp (writerContract R) (finishTargets R runtime journal reference generation proposed)
      (fun _ _ _ ↦ True) (fun _ _ _ ↦ True) m disk := by
  rw [finishTargets]
  apply Command.wp_seq (wp_writer_applyTargets reference h)
  · intro _ m _ _
    apply Command.wp_seq (wp_writer_free (reads_within (within_actualManifest _) fun _ ↦
      DiskOp.Reads.keeps))
    · intro actual m _ _
      split
      · trivial
      · exact wp_writer_completeGeneration _ _ _
    · exact fun _ _ _ _ ↦ trivial
  · exact fun _ _ _ _ ↦ trivial

theorem wp_writer_execute (plan : Plan) :
    Command.wp (writerContract R) (executeWriteSession R runtime plan)
      (fun _ _ _ ↦ True) (fun _ _ _ ↦ True) m disk := by
  have hpass : ∀ {β : Type} {result : Checked β} {f : β → SessionCommand WriteSessionResult} {m u},
      (∀ b, result = .ok b → Command.wp (writerContract R) (f b) (fun _ _ _ ↦ True) (fun _ _ _ ↦ True) m u) →
      Command.wp (writerContract R) (admitted result >>= f) (fun _ _ _ ↦ True) (fun _ _ _ ↦ True) m u := by
    intro β result f m u hf
    rw [Command.wp_bind]
    exact Command.wp_ofExcept _ hf fun _ _ ↦ trivial
  unfold executeWriteSession
  dsimp only
  apply Command.wp_seq (wp_writer_free (reads_within within_readJournal fun _ ↦ DiskOp.Reads.keeps))
  · intro pending m _ _
    cases pending with
    | some _ => trivial
    | none =>
        apply Command.wp_seq (wp_writer_free (reads_within within_verifyBaseline fun _ ↦
          DiskOp.Reads.keeps))
        · intro base m u _
          apply hpass
          intro _ _
          apply hpass
          intro _ _
          apply hpass
          intro journal _
          apply Command.wp_seq (wp_writer_publishJournal journal none)
          · intro _ m published _
            apply Command.wp_seq (wp_writer_advanceJournal journal .applying)
            · intro advanced m v ⟨htargets, hnames⟩
              apply Command.wp_seq (wp_writer_names (reads_within (within_verifyRecoveryState advanced base)
                fun _ ↦ DiskOp.Reads.keeps) hnames)
              · intro _ m w hw
                rw [← htargets] at hw
                apply Command.wp_seq (wp_writer_finishTargets base _ _ hw)
                · exact fun _ _ _ _ ↦ trivial
                · exact fun _ _ _ _ ↦ trivial
              · exact fun _ _ _ _ ↦ trivial
            · exact fun _ _ _ _ ↦ trivial
          · exact fun _ _ _ _ ↦ trivial
        · exact fun _ _ _ _ ↦ trivial
  · exact fun _ _ _ _ ↦ trivial

theorem parseWriteJournal_ok {journal parsed : Journal} (h : parseWriteJournal R journal = .ok parsed) :
    parsed = journal := by
  rw [parseWriteJournal] at h
  split at h
  · cases h
  · obtain ⟨_, -, hparsed⟩ := Outcome.bind_eq_ok.mp h
    cases hparsed
    rfl

/-- The journal that was read is still there. -/
theorem wp_writer_readJournal :
    Command.wp (writerContract R) (readJournal R)
      (fun journal _ u ↦ ∀ current, journal = some current → u.journal = some current)
      (fun _ _ _ ↦ True) m disk := by
  apply wp_writer_step
  intro u _
  refine ⟨trivial, ?_⟩
  have hread : Disk.perform R.sha256 .readJournal u = (u.journal, u) := rfl
  rw [hread]
  cases hjournal : u.journal with
  | none =>
      intro current h
      cases h
  | some journal =>
      apply (Command.wp_bind _ _).mpr
      apply Command.wp_ofExcept
      · intro parsed hparsed current hcurrent
        cases hcurrent
        rw [hjournal, parseWriteJournal_ok hparsed]
      · exact fun _ _ ↦ trivial

theorem wp_writer_recoverLocked {journal : Journal} (h : Names journal.targets disk) :
    Command.wp (writerContract R) (recoverLocked R runtime journal)
      (fun _ _ _ ↦ True) (fun _ _ _ ↦ True) m disk := by
  rw [recoverLocked]
  split
  · trivial
  apply Command.wp_seq (wp_writer_names (reads_within within_readRuntimeManifest fun _ ↦
    DiskOp.Reads.keeps) h)
  · intro state m u hu
    cases state with
    | none => trivial
    | some state =>
        dsimp only
        split
        · trivial
        split
        · apply Command.wp_seq (wp_writer_free (reads_within (within_actualManifest _) fun _ ↦
            DiskOp.Reads.keeps))
          · intro actual m _ _
            split
            · trivial
            apply Command.wp_seq (wp_writer_completeGeneration _ _ _)
            · exact fun _ _ _ _ ↦ trivial
            · exact fun _ _ _ _ ↦ trivial
          · exact fun _ _ _ _ ↦ trivial
        split
        · trivial
        apply Command.wp_seq (wp_writer_names (reads_within (within_verifyRecoveryState journal state)
          fun _ ↦ DiskOp.Reads.keeps) hu)
        · intro _ m v hv
          have hstart : Command.wp (writerContract R) (if journal.phase = .prepared then
              advanceJournal R journal .applying else pure journal)
              (fun current _ w ↦ Names current.targets w) (fun _ _ _ ↦ True) m v := by
            split
            · apply Command.wp_mono (wp_writer_advanceJournal journal .applying)
              · intro advanced _ w ⟨htargets, hnames⟩
                rwa [htargets]
              · exact fun _ _ _ _ ↦ trivial
            · exact hv
          apply Command.wp_seq hstart
          · intro current m w hw
            apply Command.wp_seq (wp_writer_finishTargets state _ _ hw)
            · exact fun _ _ _ _ ↦ trivial
            · exact fun _ _ _ _ ↦ trivial
          · exact fun _ _ _ _ ↦ trivial
        · exact fun _ _ _ _ ↦ trivial
  · exact fun _ _ _ _ ↦ trivial

theorem wp_writer_recover :
    Command.wp (writerContract R) (recoverWriteSession R runtime)
      (fun _ _ _ ↦ True) (fun _ _ _ ↦ True) m disk := by
  rw [recoverWriteSession]
  apply Command.wp_seq wp_writer_readJournal
  · intro pending m u hu
    cases pending with
    | none => trivial
    | some journal =>
        rw [Command.wp_bind]
        apply Command.wp_ofExcept
        · intro _ _
          apply Command.wp_seq (wp_writer_recoverLocked ⟨journal, hu journal rfl, rfl⟩)
          · exact fun _ _ _ _ ↦ trivial
          · exact fun _ _ _ _ ↦ trivial
        · exact fun _ _ ↦ trivial
  · exact fun _ _ _ _ ↦ trivial

/-- Every step of a call keeps its guarantee, whatever the other writer does. -/
theorem wp_writer_call (call : Call) :
    Command.wp (writerContract R) (call.command R runtime) (fun _ _ _ ↦ True) (fun _ _ _ ↦ True)
      m disk := by
  cases call with
  | execute plan =>
      apply Command.wp_seq (wp_writer_execute plan)
      · exact fun _ _ _ _ ↦ trivial
      · exact fun _ _ _ _ ↦ trivial
  | recover =>
      apply Command.wp_seq wp_writer_recover
      · exact fun _ _ _ _ ↦ trivial
      · exact fun _ _ _ _ ↦ trivial

end Writer

/-! ## Steps -/

/-- Applying a target changes no artifact but the target, and the target only if it holds what it is
expected to hold. -/
theorem applyTarget_artifact {target : JournalTarget} {stage : Option Location} {disk : Disk}
    (hstage : ∀ location, stage = some location → location.isStage) (scope : Scope) (path : String)
    (hchange : (disk.applyTarget R.sha256 target stage).2.file ⟨scope, .artifact path⟩ ≠
      disk.file ⟨scope, .artifact path⟩) :
    target.location = ⟨scope, .artifact path⟩ ∧
      disk.digest R.sha256 target.location = target.expectedDigest := by
  unfold Disk.applyTarget at hchange
  dsimp only at hchange
  split at hchange
  · exact absurd rfl hchange
  · split at hchange
    · exact absurd rfl hchange
    · rename_i hexpected
      refine ⟨?_, not_not.mp hexpected⟩
      by_contra hlocation
      apply hchange
      cases target.action with
      | delete =>
          dsimp only
          split
          · rw [Disk.file_remove, if_neg hlocation]
          · rfl
      | replace =>
          cases stage with
          | none => rfl
          | some location =>
              obtain ⟨staged, suffix, hname⟩ := hstage location rfl
              have hne : location ≠ ⟨scope, .artifact path⟩ := by
                intro heq
                rw [heq] at hname
                cases hname
              dsimp only
              split
              · rfl
              · split
                · rfl
                · rw [Disk.file_write, if_neg hlocation, Disk.file_remove, if_neg hne]

/-- A permitted step writes an artifact only by applying a target of the journal that holds what it
is expected to hold. -/
theorem DiskOp.Permitted.artifact {o : DiskOp} {disk : Disk} (h : o.Permitted disk) (scope : Scope)
    (path : String)
    (hchange : (disk.perform R.sha256 o).2.file ⟨scope, .artifact path⟩ ≠ disk.file ⟨scope, .artifact path⟩) :
    ∃ journal target stage, o = .applyTarget target stage ∧ disk.journal = some journal ∧
      target ∈ journal.targets ∧ target.location = ⟨scope, .artifact path⟩ ∧
      disk.digest R.sha256 target.location = target.expectedDigest := by
  have hwritten : ∀ location : Location, location.isStage → location ≠ ⟨scope, .artifact path⟩ := by
    rintro location ⟨stage, suffix, hname⟩ rfl
    cases hname
  cases o with
  | applyTarget target stage =>
      obtain ⟨⟨journal, hjournal, htarget⟩, hstage⟩ := h
      exact ⟨journal, target, stage, rfl, hjournal, htarget, applyTarget_artifact hstage scope path hchange⟩
  | createFile location =>
      exfalso
      apply hchange
      rw [Disk.perform]
      split
      · rfl
      · rw [Disk.file_write, if_neg (hwritten location h)]
  | appendByte location byte =>
      exfalso
      apply hchange
      rw [Disk.perform]
      split
      · rfl
      · rw [Disk.file_write, if_neg (hwritten location h)]
  | unlinkFile location =>
      exfalso
      apply hchange
      change (disk.remove location).file _ = _
      rw [Disk.file_remove, if_neg (hwritten location h)]
  | replaceJournal =>
      exfalso
      apply hchange
      rw [Disk.perform]
      split <;> rfl
  | createJournalStage =>
      exfalso
      apply hchange
      rw [Disk.perform]
      split <;> rfl
  | _ => exact absurd rfl hchange

end WorkStack.WriteSession
