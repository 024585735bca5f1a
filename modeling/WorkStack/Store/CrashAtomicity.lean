import WorkStack.Store.Fresh

/-!
# Crash atomicity of a commit

From the durable journal on, every world a commit or a recovery can crash in holds that journal,
a manifest that describes some base documents, and documents that lie between that base and the
target values. The base is the old documents until the manifest is published and the new ones from
then on; a replay only needs to know that its writes lead from the base to the targets.
-/

namespace WorkStack.Store

open Effect Effect.Outcome

variable {R : StoreRules}

/-- An interrupted commit: its journal is durable and some of its targets may be replaced. -/
structure Journaled (R : StoreRules) (journal : Journal) (writes : Writes) (target : Docs)
    (disk : Disk) : Prop where
  journal : disk.journal = some journal
  baseline : ∃ base manifest, disk.manifest = some manifest ∧ Describes R manifest base ∧
    writes.bodies base = target ∧ ∀ name, disk.docs name = base name ∨ disk.docs name = target name

/-- A finished commit. -/
structure Finished (R : StoreRules) (target : Docs) (disk : Disk) : Prop where
  journal : disk.journal = none
  docs : disk.docs = target
  manifest : ∃ manifest, disk.manifest = some manifest ∧ Describes R manifest target

/-- What every crash after the journal became durable leaves behind. -/
def Durable (R : StoreRules) (journal : Journal) (writes : Writes) (target : Docs) (disk : Disk) :
    Prop :=
  Journaled R journal writes target disk ∨ Finished R target disk

theorem Journaled.of_replaced {journal : Journal} {writes : Writes} {base : Docs} {manifest : Manifest}
    {disk : Disk} (hbase : Describes R manifest base) (hjournal : disk.journal = some journal)
    (hdocs : disk.docs = writes.bodies base) (hmanifest : disk.manifest = some manifest) :
    Journaled R journal writes (writes.bodies base) disk :=
  ⟨hjournal, base, manifest, hmanifest, hbase, rfl, fun name ↦ .inr (congrFun hdocs name)⟩

variable {changedFiles : List DocName}

section Steps

variable {I : Disk → Prop} {disk : Disk} {m : Process} {writes : Writes}

variable {E : StoreError → Process → Disk → Prop}

theorem wp_crash_step {o : DiskOp} {Q : o.Answer → Process → Disk → Prop} :
    Command.wp (crashContract (machine R) I) (step o) Q E m disk ↔
      I disk ∧ Q (disk.perform R.sha256 o).1 m (disk.perform R.sha256 o).2 :=
  Command.wp_crash_perform (M := machine R) (S := diskSignature) o

variable {Q : Unit → Process → Disk → Prop}

@[simp] theorem wp_crash_writeJournal {journal : Journal} :
    Command.wp (crashContract (machine R) I) (step (.writeJournal journal) : StoreCommand Unit) Q E m disk ↔
      I disk ∧ Q () m { disk with journal := some journal } := wp_crash_step

@[simp] theorem wp_crash_unlinkJournal :
    Command.wp (crashContract (machine R) I) (step .unlinkJournal : StoreCommand Unit) Q E m disk ↔
      I disk ∧ Q () m { disk with journal := none } := wp_crash_step

@[simp] theorem wp_crash_writeManifest {site : ManifestSite} {manifest : Manifest} :
    Command.wp (crashContract (machine R) I) (step (.writeManifest site manifest) : StoreCommand Unit) Q E m disk ↔
      I disk ∧ Q () m { disk with manifest := some manifest } := wp_crash_step

theorem expected_of_eq {name : DocName} {expectation : Option (Option Digest)}
    (h : ∀ digest, expectation = some digest → hashesOf R disk.docs name = digest) :
    disk.expected R.sha256 name expectation = true := by
  cases expectation with
  | none => rfl
  | some digest => exact decide_eq_true (h digest rfl)

/-- Replacing the targets passes through documents between the present ones and the targets. -/
theorem wp_crash_replaceDocuments {expectations : Expectations} (hnodup : writes.names.Nodup)
    (hexpect : ∀ name ∈ writes.names, ∀ digest, expectations name = some digest →
      hashesOf R disk.docs name = digest)
    (hI : ∀ docs, (∀ name, docs name = disk.docs name ∨ docs name = writes.bodies disk.docs name) →
      I { disk with docs }) :
    Command.wp (crashContract (machine R) I) (replaceDocuments expectations writes)
      (fun _ _ after ↦ after = { disk with docs := writes.bodies disk.docs }) (fun _ _ _ ↦ False)
      m disk := by
  induction writes generalizing disk m with
  | nil => rfl
  | cons write writes ih =>
      rw [Writes.names_cons, List.nodup_cons] at hnodup
      have hreplace : disk.expected R.sha256 write.1 (expectations write.1) = true :=
        expected_of_eq (hexpect write.1 (List.mem_cons_self ..))
      have hstep : Disk.perform R.sha256 (.replaceDoc write.1 (expectations write.1) write.2) disk =
          (true, disk.write write.1 write.2.serializedJsonBytes) := if_pos hreplace
      have hhere : I disk := hI disk.docs fun _ ↦ .inl rfl
      rw [replaceDocuments, Command.fold, Command.wp_bind, atomicWrite, Command.wp_bind, wp_crash_step,
        hstep]
      refine ⟨hhere, ?_⟩
      change Command.wp (crashContract (machine R) I) (replaceDocuments expectations writes) _ _ m
        (disk.write write.1 write.2.serializedJsonBytes)
      refine Command.wp_mono (ih hnodup.2 ?_ ?_) (fun _ _ _ h ↦ h) fun _ _ _ h ↦ h
      · intro name hname digest hdigest
        have hne : name ≠ write.1 := fun heq ↦ hnodup.1 (heq ▸ hname)
        rw [← hexpect name (List.mem_cons_of_mem _ hname) digest hdigest]
        simp [hashesOf, Function.update_of_ne hne]
      · intro docs hdocs
        refine hI docs fun name ↦ ?_
        rcases hdocs name with h | h
        · by_cases hname : name = write.1
          · subst hname
            right
            rw [h, Writes.bodies_cons, Writes.bodies_of_not_mem hnodup.1]
            rfl
          · left
            rw [h, Disk.write_docs, Function.update_of_ne hname]
        · exact .inr h

theorem observes_readManifest_invalid {manifest : Manifest} {message : String}
    (h : disk.manifest = some manifest) (hinvalid : validateStoreManifest manifest = .error message) :
    Command.Observes (machine R) disk readManifest m (.error (.corrupt message)) m := by
  have hrefuse : Command.Observes (machine R) disk (accept (validateStoreManifest manifest)) m
      (.error (.corrupt message)) m := by
    rw [hinvalid]
    exact .ofExcept _
  refine .bind observes_manifestFile ?_
  rw [h]
  exact .bind_error hrefuse

/-- An inspection of documents that match the manifest changes no file. -/
theorem wp_crash_inspectSync {manifest : Manifest} (hI : I disk)
    (hmanifest : disk.manifest = some manifest) (hcomplete : Complete disk.docs)
    (hfiles : manifest.files = hashesOf R disk.docs) :
    Command.wp (crashContract (machine R) I) (inspectSync R) (fun _ _ after ↦ after = disk)
      (fun _ _ after ↦ after = disk ∧ validateStoreManifest manifest ≠ .ok ()) m disk := by
  cases hvalid : validateStoreManifest manifest with
  | ok =>
      obtain ⟨status, -, -, hinspect⟩ := observes_inspectSync (m := m) hmanifest hvalid hcomplete hfiles
      exact hinspect.wp_crash hI (fun _ _ ↦ rfl) (by simp)
  | error message =>
      have hread := observes_readManifest_invalid (R := R) (m := m) hmanifest hvalid
      have hinspect : Command.Observes (machine R) disk (inspectSync R) m (.error (.corrupt message)) m :=
        .bind_error (.bind_error hread)
      exact hinspect.wp_crash hI (by simp) fun _ _ ↦ ⟨rfl, by simp⟩

theorem observes_requireTargets {expected : Files} (h : expected = hashesOf R disk.docs) :
    Command.Observes (machine R) disk
      (accept (requireTargets expected changedFiles (hashesOf R disk.docs))) m (.ok ()) m := by
  have hpass : requireTargets expected changedFiles (hashesOf R disk.docs) = .ok () := by
    subst h
    simp [requireTargets]
  rw [hpass]
  exact .ofExcept _

/-- The task baseline of a local commit is computed from documents that hold every target. -/
theorem observes_localBaselineTasks (manifest : Manifest) {expected : Files}
    (changedFiles : List DocName) (hcomplete : Complete disk.docs)
    (h : expected = hashesOf R disk.docs) :
    Command.Observes (machine R) disk (localBaselineTasks R manifest expected changedFiles) m
      (if .backlog ∈ changedFiles then tasksOf R disk.docs else .ok manifest.tasks) m := by
  have htasks : Command.Observes (machine R) disk (baselineTasks R manifest changedFiles) m
      (if .backlog ∈ changedFiles then tasksOf R disk.docs else .ok manifest.tasks) m := by
    unfold baselineTasks
    split_ifs
    · exact observes_taskSemanticsLocked
    · exact .pure _
  refine .bind (observes_authoritativeHashes _ hcomplete) (.bind (observes_requireTargets h) ?_)
  generalize (if .backlog ∈ changedFiles then tasksOf R disk.docs else .ok manifest.tasks) = result
    at htasks ⊢
  cases result with
  | error error => exact .bind_error htasks
  | ok tasks =>
      exact .bind htasks (.bind (observes_authoritativeHashes _ hcomplete)
        (.bind (observes_requireTargets h) (.pure _)))

/-- The manifest of the next generation over a baseline. -/
def nextManifest (m : Process) (previous : Manifest) (files : Files) (tasks : Tasks) : Manifest where
  version := 1
  workspaceId := previous.workspaceId
  storeSchemaVersion := previous.storeSchemaVersion
  generation := max m.generation previous.generation + 1
  files
  tasks

theorem validateStoreManifest_tasks {manifest : Manifest}
    (h : validateStoreManifest manifest = .ok ()) :
    validateStoreManifestTasks manifest.tasks = .ok () := by
  obtain ⟨roster, -, hrest⟩ := bind_eq_ok.mp h
  obtain ⟨⟨⟩, -, htasks⟩ := bind_eq_ok.mp hrest
  exact htasks

theorem isSome_hashesOf {docs : Docs} (h : Complete docs) (name : DocName) :
    (hashesOf R docs name).isSome := by
  obtain ⟨body, hbody⟩ := h name
  simp [hashesOf, hbody]

/-- The next manifest over a readable baseline can be read again. -/
theorem validateStoreManifest_next {base : Docs} {previous : Manifest} {files : Files} {tasks : Tasks}
    (hvalid : validateStoreManifest previous = .ok ()) (hbase : Describes R previous base)
    (htasks : validateStoreManifestTasks tasks = .ok ()) (hfiles : ∀ name, (files name).isSome) :
    validateStoreManifest (nextManifest m previous files tasks) = .ok () := by
  have hschema : previous.storeSchemaVersion = storeSchemaVersion :=
    storeSchemaVersion_of_full hvalid fun name ↦ by
      rw [hbase.files]
      exact isSome_hashesOf hbase.complete name
  have hid : isCanonicalUuid previous.workspaceId := by
    obtain ⟨roster, hheader, -⟩ := bind_eq_ok.mp hvalid
    unfold validateStoreManifestHeader at hheader
    cases hroster : versionRoster previous.storeSchemaVersion with
    | none =>
        rw [hroster] at hheader
        split_ifs at hheader
    | some known =>
        rw [hroster] at hheader
        split_ifs at hheader with _ hid
        exact hid
  exact validateStoreManifest_of_full rfl hschema hid hfiles htasks

theorem wp_crash_writeLocalBaseline {previous : Manifest} {files : Files} {tasks : Tasks} (hI : I disk)
    (hQ : ∀ m', Q () m' { disk with manifest := some (nextManifest m previous files tasks) }) :
    Command.wp (crashContract (machine R) I) (writeLocalBaseline previous files tasks changedFiles)
      Q E m disk := by
  simp only [writeLocalBaseline, advanceGeneration, Command.wp_bind, Command.wp_memory,
    Command.wp_remember, Command.wp_pure, rememberInSync, emitEvent]
  rw [wp_crash_writeManifest]
  exact ⟨hI, hQ _⟩

end Steps

variable {operationId createdAt : String}

section Replay

variable {I : Disk → Prop} {disk : Disk} {m : Process} {writes : Writes} {journal : Journal}
variable {target : Docs}

/-- Publication of a local baseline, up to the removal of the journal; `P` is what keeps it from
raising. -/
theorem wp_crash_publishLocal {base : Docs} {manifest : Manifest} (after : StoreCommand Unit)
    {P : Prop} (hP : P → validateStoreManifest manifest = .ok () ∧
      ∃ tasks, tasksOf R target = .ok tasks ∧ validateStoreManifestTasks tasks = .ok ())
    (hbase : Describes R manifest base) (htarget : writes.bodies base = target)
    (hjournal : disk.journal = some journal) (hdocs : disk.docs = target)
    (hmanifest : disk.manifest = some manifest)
    (hI : ∀ disk, Durable R journal writes target disk → I disk) (hnodup : writes.names.Nodup)
    (hafter : ∀ m disk, Finished R target disk →
      (P → ∀ manifest, disk.manifest = some manifest → validateStoreManifest manifest = .ok ()) →
      Command.wp (crashContract (machine R) I) after (fun _ _ ↦ Finished R target)
        (fun _ _ disk ↦ (I disk ∧ disk.docs = target) ∧ ¬P) m disk) :
    Command.wp (crashContract (machine R) I) (do
        let tasks ← localBaselineTasks R manifest (writes.hashes R.sha256 manifest.files)
          (sortedNames writes.names)
        writeLocalBaseline manifest (writes.hashes R.sha256 manifest.files) tasks
          (sortedNames writes.names)
        step .unlinkJournal
        after)
      (fun _ _ ↦ Finished R target) (fun _ _ disk ↦ (I disk ∧ disk.docs = target) ∧ ¬P) m disk := by
  have hexpected : writes.hashes R.sha256 manifest.files = hashesOf R disk.docs := by
    rw [hbase.files, Writes.hashes_hashesOf, htarget, hdocs]
  have hcomplete : Complete disk.docs := by
    rw [hdocs, ← htarget]
    exact Writes.complete_bodies hbase.complete
  have hhere : I disk := hI disk (.inl ⟨hjournal, base, manifest, hmanifest, hbase, htarget,
    fun name ↦ .inr (congrFun hdocs name)⟩)
  have hobserve := observes_localBaselineTasks (R := R) (m := m) manifest (sortedNames writes.names)
    hcomplete hexpected
  rw [Command.wp_bind]
  refine hobserve.wp_crash hhere ?_ fun error herror ↦ ⟨⟨hhere, hdocs⟩, fun hp ↦ ?_⟩
  swap
  · obtain ⟨-, known, hknown, -⟩ := hP hp
    rw [hdocs, hknown] at herror
    split_ifs at herror
  intro tasks htasks
  have hpublishable : P → validateStoreManifestTasks tasks = .ok () := fun hp ↦ by
    obtain ⟨hvalid, known, hknown, hadmitted⟩ := hP hp
    rw [hdocs, hknown] at htasks
    split_ifs at htasks
    · cases htasks
      exact hadmitted
    · cases htasks
      exact validateStoreManifest_tasks hvalid
  have hdescribed : ∃ known, tasksOf R target = .ok known ∧ tasks.same known := by
    split_ifs at htasks with hbacklog
    · rw [hdocs] at htasks
      exact ⟨tasks, htasks, Tasks.same_self (nodup_tasksOf htasks)⟩
    · cases htasks
      have hsame : writes.bodies base .backlog = base .backlog :=
        Writes.bodies_of_not_mem fun hmem ↦ hbacklog (mem_sortedNames.mpr hmem)
      rw [← htarget, tasksOf_congr hsame]
      exact hbase.tasks
  generalize hnext :
    nextManifest m manifest (writes.hashes R.sha256 manifest.files) tasks = next
  have hnextDescribes : Describes R next target := by
    subst hnext
    exact ⟨hdocs ▸ hcomplete, hdocs ▸ hexpected, hdescribed⟩
  have hpublished : I { disk with manifest := some next } := hI _ (.inl ⟨hjournal, target, next, rfl,
    hnextDescribes, by rw [← htarget, Writes.bodies_idem hnodup], fun name ↦
      .inr (congrFun hdocs name)⟩)
  rw [Command.wp_bind]
  refine wp_crash_writeLocalBaseline hhere fun m' ↦ ?_
  rw [Command.wp_bind, wp_crash_unlinkJournal, hnext]
  refine ⟨hpublished, hafter _ _ ⟨rfl, hdocs, next, rfl, hnextDescribes⟩ fun hp manifest' h ↦ ?_⟩
  cases h
  subst hnext
  exact validateStoreManifest_next (hP hp).1 hbase (hpublishable hp)
    fun name ↦ by rw [hexpected]; exact isSome_hashesOf hcomplete name

/-- An inspection of a finished commit keeps it finished. -/
theorem wp_crash_inspectFinished {P : Prop}
    (hI : ∀ disk, Durable R journal writes target disk → I disk) (hfinished : Finished R target disk)
    (hP : P → ∀ manifest, disk.manifest = some manifest → validateStoreManifest manifest = .ok ()) :
    Command.wp (crashContract (machine R) I) (inspectSync R) (fun _ _ ↦ Finished R target)
      (fun _ _ disk ↦ (I disk ∧ disk.docs = target) ∧ ¬P) m disk := by
  obtain ⟨manifest, hmanifest, hdescribes⟩ := hfinished.manifest
  have hcomplete : Complete disk.docs := hfinished.docs ▸ hdescribes.complete
  have hfiles : manifest.files = hashesOf R disk.docs := hfinished.docs ▸ hdescribes.files
  have hhere : I disk := hI disk (.inr hfinished)
  refine Command.wp_mono (wp_crash_inspectSync hhere hmanifest hcomplete hfiles) ?_ ?_
  · rintro _ _ _ rfl
    exact hfinished
  · rintro _ _ _ ⟨rfl, hinvalid⟩
    exact ⟨⟨hhere, hfinished.docs⟩, fun hp ↦ hinvalid (hP hp manifest hmanifest)⟩

/-- Between a described base and the targets, the safety check passes. -/
theorem observes_assertRecoveryTargetsSafe {base : Docs} {manifest : Manifest}
    (hbase : Describes R manifest base) (hnodup : writes.names.Nodup)
    (hdocs : ∀ name, disk.docs name = base name ∨ disk.docs name = writes.bodies base name) :
    Command.Observes (machine R) disk (assertRecoveryTargetsSafe R (some manifest) writes) m
      (.ok ()) m := by
  have hbody : ∀ acc : Unit, ∀ write ∈ writes,
      Command.Observes (machine R) disk (assertRecoveryTargetSafe R manifest acc write) m (.ok ()) m := by
    intro acc write hwrite
    have hpass : requireRecoverable R manifest write (hashesOf R disk.docs write.1) = .ok () := by
      rw [requireRecoverable, if_neg]
      rintro ⟨hbaseline, hintended⟩
      rcases hdocs write.1 with h | h
      · exact hbaseline (by rw [hbase.files, hashesOf, hashesOf, h])
      · exact hintended (by rw [hashesOf, h, Writes.bodies_of_mem hnodup hwrite]; rfl)
    refine .bind (observes_currentDigest _ write.1) ?_
    rw [hpass]
    exact .ofExcept _
  exact Command.Observes.fold_ok (g := fun _ _ ↦ ()) hbody ()

/-- The expectations a replay collects are what the documents hold. -/
theorem observes_collectExpectations (disk : Disk) (writes : Writes) :
    ∃ expectations : Expectations,
      (∀ name digest, expectations name = some digest → hashesOf R disk.docs name = digest) ∧
      Command.Observes (machine R) disk (collectExpectations R writes) m (.ok expectations) m := by
  have hcollected : ∀ (writes : Writes) (expectations : Expectations),
      (∀ name digest, expectations name = some digest → hashesOf R disk.docs name = digest) →
      ∀ name digest, writes.foldl (fun (expectations : Expectations) write ↦
        Function.update expectations write.1 (some (hashesOf R disk.docs write.1))) expectations name =
          some digest → hashesOf R disk.docs name = digest := by
    intro writes
    induction writes with
    | nil => exact fun _ h ↦ h
    | cons write writes ih =>
        intro expectations h
        refine ih _ fun name digest hdigest ↦ ?_
        by_cases hname : name = write.1
        · subst hname
          simpa using hdigest
        · exact h name digest (by simpa [Function.update_of_ne hname] using hdigest)
  refine ⟨_, hcollected writes (fun _ ↦ none) (by simp), ?_⟩
  refine Command.Observes.fold_ok (fun expectations write _ ↦ ?_) _
  exact .bind (observes_currentDigest _ write.1) (.pure _)

theorem replayableBaseline_of_describes {base : Docs} {manifest : Manifest}
    (hbase : Describes R manifest base) (hvalid : validateStoreManifest manifest = .ok ()) :
    replayableBaseline (some manifest) = some manifest := by
  have hversion : manifest.storeSchemaVersion = storeSchemaVersion :=
    storeSchemaVersion_of_full hvalid fun name ↦ by
      rw [hbase.files]
      exact isSome_hashesOf hbase.complete name
  simp [replayableBaseline, hversion]

/-- A replay of a durable journal either finishes the commit or leaves it interrupted. It raises only
where something stands in its way, and has then replaced no document or all of them. -/
theorem wp_crash_replayJournal (hnodup : writes.names.Nodup)
    (hjournal : journal = preparedJournal R writes operationId createdAt)
    (hI : ∀ disk, Durable R journal writes target disk → I disk) (h : Journaled R journal writes target disk) :
    Command.wp (crashContract (machine R) I) (replayJournal R journal) (fun _ _ ↦ Finished R target)
      (fun _ _ after ↦ (I after ∧ (after.docs = disk.docs ∨ after.docs = target)) ∧
        ¬Replayable R journal writes target disk) m disk := by
  obtain ⟨base, manifest, hmanifest, hbase, htarget, hdocs⟩ := h.baseline
  have hhere : I disk := hI disk (.inl h)
  rw [replayJournal, Command.wp_bind]
  refine Command.Observes.wp_crash (.ofExcept _) hhere ?_ fun error herror ↦
    ⟨⟨hhere, .inl rfl⟩, fun hreplay ↦ ?_⟩
  swap
  · rw [hreplay.admitted] at herror
    cases herror
  intro admitted hadmitted
  have hwrites : admitted = writes := by
    subst hjournal
    cases hvalidate : validateJournal R (preparedJournal R writes operationId createdAt) with
    | error message =>
        rw [hvalidate] at hadmitted
        cases hadmitted
    | ok result =>
        rw [hvalidate] at hadmitted
        cases hadmitted
        exact validateJournal_prepared hvalidate
  subst hwrites
  cases hvalid : validateStoreManifest manifest with
  | error message =>
      rw [Command.wp_bind]
      exact (observes_readManifest_invalid hmanifest hvalid).wp_crash hhere (by simp)
        fun _ _ ↦ ⟨⟨hhere, .inl rfl⟩, fun hreplay ↦ by
          rw [hreplay.baseline manifest hmanifest] at hvalid
          cases hvalid⟩
  | ok =>
      subst htarget
      obtain ⟨expectations, hexpect, hcollect⟩ :=
        observes_collectExpectations (R := R) (m := m) disk admitted
      refine (observes_readManifest hmanifest hvalid).wp_crash_bind hhere ?_
      refine (observes_assertRecoveryTargetsSafe hbase hnodup hdocs).wp_crash_bind hhere ?_
      refine hcollect.wp_crash_bind hhere ?_
      have hbetween := Writes.bodies_between hnodup hdocs
      rw [Command.wp_bind]
      refine Command.wp_mono (wp_crash_replaceDocuments hnodup (fun name _ ↦ hexpect name) ?_) ?_
        fun _ _ _ ↦ False.elim
      · intro docs hmixed
        refine hI _ (.inl ⟨h.journal, base, manifest, hmanifest, hbase, rfl, fun name ↦ ?_⟩)
        rcases hmixed name with hname | hname
        · exact (hdocs name).imp hname.trans hname.trans
        · exact .inr (hname.trans (congrFun hbetween name))
      · rintro ⟨⟩ m' after rfl
        rw [replayableBaseline_of_describes hbase hvalid]
        refine Command.wp_mono (wp_crash_publishLocal (do
          let _ ← inspectSync R
          forgetRecoveredFiles) (fun hreplay ↦ ⟨hvalid, hreplay.tasks⟩) hbase rfl h.journal hbetween
          hmanifest hI hnodup ?_) (fun _ _ _ h ↦ h) fun _ _ _ h ↦ ⟨⟨h.1.1, .inr h.1.2⟩, h.2⟩
        intro m disk hfinished hreadable
        rw [Command.wp_bind]
        exact Command.wp_mono (wp_crash_inspectFinished hI hfinished hreadable) (fun _ _ _ h ↦ h)
          fun _ _ _ h ↦ h

end Replay

/-! ## Recovery -/

section Recovery

variable {disk : Disk} {m : Process} {writes : Writes} {journal : Journal} {target : Docs}

theorem recoverLocked_of_no_journal (h : disk.journal = none) :
    Command.Observes (machine R) disk (recoverLocked R) m (.ok ()) m := by
  refine .bind (observes_journalExists _ _) ?_
  rw [h]
  exact .pure ()

/-- Recovery keeps a durable commit durable in every crash, and finishes it when it completes. -/
theorem wp_crash_recoverLocked (hnodup : writes.names.Nodup)
    (hjournal : journal = preparedJournal R writes operationId createdAt) (h : Durable R journal writes target disk) :
    Command.wp (crashContract (machine R) (Durable R journal writes target)) (recoverLocked R)
      (fun _ _ ↦ Finished R target)
      (fun _ _ after ↦ (Durable R journal writes target after ∧
        (after.docs = disk.docs ∨ after.docs = target)) ∧ ¬Replayable R journal writes target disk)
      m disk := by
  rcases h with hjournaled | hfinished
  · have hhere : Durable R journal writes target disk := .inl hjournaled
    refine (observes_journalExists _ _).wp_crash_bind hhere ?_
    rw [hjournaled.journal]
    refine observes_readJournal.wp_crash_bind hhere ?_
    rw [hjournaled.journal]
    exact wp_crash_replayJournal hnodup hjournal (fun _ ↦ id) hjournaled
  · exact (recoverLocked_of_no_journal hfinished.journal).wp_crash (.inr hfinished)
      (fun _ _ ↦ hfinished) (by simp)

/-- Where nothing stands in its way, an undisturbed recovery completes. -/
theorem recoverLocked_completes (hnodup : writes.names.Nodup)
    (hjournal : journal = preparedJournal R writes operationId createdAt) (h : Durable R journal writes target disk)
    (hreplay : Replayable R journal writes target disk) :
    ∃ m' after, (recoverLocked R).run (machine R) m disk = ((.ok (), m'), after) ∧
      Finished R target after := by
  have hwp := wp_crash_weaken (wp_crash_recoverLocked (m := m) hnodup hjournal h) fun _ _ ↦ trivial
  rcases Command.run_cases hwp with ⟨⟨⟩, m', after, hrun, hfinished⟩ | ⟨e, m', after, -, -, hno⟩
  · exact ⟨m', after, hrun, hfinished⟩
  · exact absurd hreplay hno

/-- Recoveries that crash or raise, each run by a process in an arbitrary state. -/
inductive InterruptedRecoveries (R : StoreRules) : Disk → Disk → Prop
  | none (disk : Disk) : InterruptedRecoveries R disk disk
  | crash {before between after : Disk} (m : Process)
      (stopped : CrashState (machine R) (recoverLocked R m) before between)
      (rest : InterruptedRecoveries R between after) : InterruptedRecoveries R before after

theorem InterruptedRecoveries.durable {before after : Disk} (hrun : InterruptedRecoveries R before after)
    (hnodup : writes.names.Nodup) (hjournal : journal = preparedJournal R writes operationId createdAt)
    (h : Durable R journal writes target before) : Durable R journal writes target after := by
  induction hrun with
  | none disk => exact h
  | crash m stopped rest ih =>
      refine ih (stopped.invariant (wp_crash_recoverLocked hnodup hjournal h) ?_)
      rintro ⟨e | a, m'⟩ u hu
      · exact hu.1.1
      · exact .inr hu

theorem InterruptedRecoveries.unchanged {before after : Disk}
    (hrun : InterruptedRecoveries R before after) (h : before.journal = Option.none) :
    after = before := by
  induction hrun with
  | none disk => rfl
  | crash m stopped rest ih =>
      obtain ⟨events, q, hprefix⟩ := stopped
      have hsame := ((recoverLocked_of_no_journal h).run_until hprefix).1
      subst hsame
      exact ih h

end Recovery

/-! ## Commit -/

section Commit

variable {disk : Disk} {m : Process} {writes : Writes} {journal : Journal} {manifest : Manifest}

variable {status : SyncStatus}

theorem jsonOf_ne_externalChange {docs : Docs} {name : DocName} :
    jsonOf R docs name ≠ .error (.externalChange status) := by
  unfold jsonOf
  intro h
  split at h
  · cases h
  · split at h
    · cases h
    · split_ifs at h
      cases h

theorem mapError_ne_externalChange {α : Type} {result : Except String α} :
    result.mapError StoreError.corrupt ≠ .error (.externalChange status) := by
  cases result <;> simp [Except.mapError]

theorem tasksOf_ne_externalChange {docs : Docs} :
    tasksOf R docs ≠ .error (.externalChange status) := by
  intro h
  rcases bind_eq_error.mp h with h | ⟨backlog, -, h⟩
  · exact jsonOf_ne_externalChange h
  · exact mapError_ne_externalChange h

theorem requiredJsonOf_ne_externalChange {docs : Docs} {values : DocName → Json} {name : DocName} :
    requiredJsonOf R docs values name ≠ .error (.externalChange status) := by
  unfold requiredJsonOf
  intro h
  split at h
  · cases h
  · cases h
  · next error hjson =>
      cases h
      exact jsonOf_ne_externalChange hjson

theorem verdictOf_ne_externalChange {docs : Docs} :
    verdictOf R docs ≠ .error (.externalChange status) := by
  have hfold : ∀ (names : List DocName) (values : DocName → Json),
      names.foldlM (requiredJsonOf R docs) values ≠ .error (.externalChange status) := by
    intro names
    induction names with
    | nil => exact fun _ h ↦ nomatch h
    | cons name names ih =>
        intro values h
        rw [List.foldlM_cons] at h
        rcases bind_eq_error.mp h with h | ⟨next, -, h⟩
        · exact requiredJsonOf_ne_externalChange h
        · exact ih next h
  intro h
  rcases bind_eq_error.mp h with h | ⟨values, -, h⟩
  · exact hfold _ _ h
  · exact mapError_ne_externalChange h

/-- With every target in place the committed manifest is published, or validation refuses and the
journal stays; nothing reports an external change. -/
theorem wp_crash_publishManifest {I : Disk → Prop} {expected : Files} {docs target : Docs}
    (hbase : Describes R manifest docs) (hvalid : validateStoreManifest manifest = .ok ())
    (htarget : writes.bodies docs = target) (hnodup : writes.names.Nodup) (hjournal : disk.journal = some journal)
    (hdocs : disk.docs = target) (hmanifest : disk.manifest = some manifest) (hexpected : expected = hashesOf R target)
    (hI : ∀ disk, Durable R journal writes target disk → I disk) :
    Command.wp (crashContract (machine R) I) (do
        writeCommittedManifest R changedFiles "store.committed" (some expected)
        step .unlinkJournal)
      (fun _ _ disk ↦ Finished R target disk ∧ Accepted R target)
      (fun e _ after ↦ after = disk ∧ ∀ status, e ≠ .externalChange status) m disk := by
  have hcomplete : Complete disk.docs := by
    rw [hdocs, ← htarget]
    exact Writes.complete_bodies hbase.complete
  have hhere : I disk := hI disk (.inl ⟨hjournal, docs, manifest, hmanifest, hbase, htarget,
    fun name ↦ .inr (congrFun hdocs name)⟩)
  have hhashes : ∀ m, Command.Observes (machine R) disk (authoritativeHashes R .authoritativeHash) m
      (.ok expected) m := fun m ↦ by
    rw [hexpected, ← hdocs]
    exact observes_authoritativeHashes _ hcomplete
  rw [Command.wp_bind, writeCommittedManifest]
  refine (hhashes m).wp_crash_bind hhere ?_
  simp only [Option.any_some, ne_eq, not_true_eq_false, decide_false, Bool.false_eq_true, if_false]
  rw [Command.wp_bind]
  refine observes_taskSemanticsLocked.wp_crash hhere ?_ fun e he ↦ ⟨rfl, fun status heq ↦ ?_⟩
  swap
  · exact tasksOf_ne_externalChange (heq ▸ he)
  intro tasks htasks
  rw [Command.wp_bind]
  refine observes_validateReadyState.wp_crash hhere ?_ fun e he ↦ ⟨rfl, fun status heq ↦ ?_⟩
  swap
  · exact verdictOf_ne_externalChange (heq ▸ he)
  intro readiness hreadiness
  refine (hhashes m).wp_crash_bind hhere ?_
  have htasksAgain : Command.Observes (machine R) disk (taskSemanticsLocked R) m (.ok tasks) m :=
    htasks ▸ observes_taskSemanticsLocked
  refine htasksAgain.wp_crash_bind hhere ?_
  simp only [Tasks.same_self (nodup_tasksOf htasks), not_true_eq_false, or_self, if_false]
  refine (observes_readManifest hmanifest hvalid).wp_crash_bind hhere ?_
  simp only [advanceGeneration, Command.wp_bind, Command.wp_memory, Command.wp_remember,
    Command.wp_pure]
  generalize max m.generation (Option.elim (some manifest) 0 Manifest.generation) + 1 = generation
  rw [wp_crash_writeManifest]
  refine ⟨hhere, ?_⟩
  simp only [rememberInSync, emitEvent, Command.wp_bind, Command.wp_remember]
  rw [wp_crash_unlinkJournal]
  have hdescribes : Describes R ⟨1, readiness.workspaceUid, readiness.schemaVersion, generation,
      expected, tasks⟩ target :=
    ⟨hdocs ▸ hcomplete, hexpected, tasks, hdocs ▸ htasks, Tasks.same_self (nodup_tasksOf htasks)⟩
  refine ⟨hI _ (.inl ⟨hjournal, target, _, rfl, hdescribes, ?_, fun name ↦ ?_⟩),
    ⟨rfl, hdocs, _, rfl, hdescribes⟩, readiness, hdocs ▸ hreadiness⟩
  · rw [← htarget, Writes.bodies_idem hnodup]
  · exact .inr (congrFun hdocs name)

/-- From the durable journal on, a commit either finishes, and then validation accepted its targets,
or raises with every target in place. -/
theorem wp_crash_commitDurable (disk : Disk) {docs target : Docs} (hbase : Describes R manifest docs)
    (hvalid : validateStoreManifest manifest = .ok ()) (htarget : writes.bodies docs = target)
    (hnodup : writes.names.Nodup) (hjournal : disk.journal = some journal) (hdocs : disk.docs = docs)
    (hmanifest : disk.manifest = some manifest) :
    Command.wp (crashContract (machine R) (Durable R journal writes target)) (do
        replaceDocuments (commitExpectations manifest.files writes) writes
        publishCommit R (some manifest) (writes.hashes R.sha256 manifest.files)
          (sortedNames writes.names))
      (fun _ _ after ↦ Finished R target after ∧ Accepted R target)
      (fun _ _ after ↦ after = { disk with docs := target }) m disk := by
  subst hdocs
  rw [Command.wp_bind]
  refine Command.wp_mono (wp_crash_replaceDocuments hnodup ?_ ?_) ?_ fun _ _ _ ↦ False.elim
  · intro name hname digest hdigest
    rw [commitExpectations, if_pos hname] at hdigest
    cases hdigest
    rw [hbase.files]
  · intro docs hdocs
    refine .inl ⟨hjournal, disk.docs, manifest, hmanifest, hbase, htarget, fun name ↦ ?_⟩
    rw [← htarget]
    exact hdocs name
  rintro ⟨⟩ m after rfl
  rw [htarget]
  have hexpected : writes.hashes R.sha256 manifest.files = hashesOf R target := by
    rw [hbase.files, Writes.hashes_hashesOf, htarget]
  have hcomplete : Complete target := htarget ▸ Writes.complete_bodies hbase.complete
  have hhere : Durable R journal writes target { disk with docs := target } :=
    .inl ⟨hjournal, disk.docs, manifest, hmanifest, hbase, htarget, fun _ ↦ .inr rfl⟩
  rw [hexpected, publishCommit]
  refine (observes_authoritativeHashes _ hcomplete).wp_crash_bind hhere ?_
  have htargets : raceTargets (hashesOf R target) (hashesOf R target) (sortedNames writes.names) = [] := by
    simp [raceTargets]
  have hunrelated : raceUnrelated (hashesOf R target) (hashesOf R target)
      (sortedNames writes.names) true = [] := by
    simp [raceUnrelated]
  simp only [htargets, Option.isSome_some, hunrelated, ne_eq, not_true_eq_false, if_false,
    Option.filter_some, decide_false, Bool.false_eq_true]
  rw [Command.wp_catching]
  refine Command.wp_mono (wp_crash_publishManifest hbase hvalid htarget hnodup hjournal rfl hmanifest
    rfl fun _ ↦ id) (fun _ _ _ h ↦ h) ?_
  rintro e m after ⟨hafter, hexternal⟩
  cases e with
  | externalChange status => exact absurd rfl (hexternal status)
  | corrupt message => exact hafter
  | fileNotFound path => exact hafter
  | adoptionConflict message => exact hafter
  | value message => exact hafter

/-- A crash of a commit leaves either the untouched store, before the journal became durable, or
a durable journal whose writes lead to the targets. -/
theorem crashState_commitPrepared {events : List (Event (machine R))}
    {q : Prog diskSignature (Except StoreError Unit × Process)} {after : Disk}
    (hsync : InSync R disk) (hnodup : writes.names.Nodup)
    (hrun : Run (machine R) (alone (machine R)) (commitPrepared R journal writes m) disk events q
      after) :
    (after = disk ∧ ∀ journal u, .own (.writeJournal journal) u ∉ events) ∨
      Durable R journal writes (writes.bodies disk.docs) after := by
  obtain ⟨hnone, manifest, hmanifest, hvalid, hdescribes⟩ := hsync
  have hquiet : ∀ {events : List (Event (machine R))},
      (∀ o u, .own o u ∈ events → ((machine R).perform o disk).2 = disk) →
        ∀ journal u, .own (.writeJournal journal) u ∉ events := by
    intro events hevents journal u hu
    have hstay : some journal = disk.journal := congrArg Disk.journal (hevents _ u hu)
    rw [hnone] at hstay
    cases hstay
  obtain ⟨m', hassert⟩ := observes_assertWritable (R := R) (m := m) hmanifest hvalid
    hdescribes.complete hdescribes.files
  rcases Prog.Observes.bind_cases hassert hrun with ⟨rfl, h⟩ | ⟨first, rest, rfl, hfirst, hpending⟩
  · exact .inl ⟨rfl, hquiet h⟩
  have hexists := observes_journalExists (R := R) disk m'
  rw [hnone] at hexists
  rcases Prog.Observes.bind_cases hexists hpending with
    ⟨rfl, h⟩ | ⟨second, rest, rfl, hsecond, hbody⟩
  · exact .inl ⟨rfl, by simpa [hquiet hfirst] using hquiet h⟩
  have hread := observes_readManifest (R := R) (m := m') hmanifest hvalid
  rcases Prog.Observes.bind_cases hread hbody with ⟨rfl, h⟩ | ⟨third, rest, rfl, hthird, hjournal⟩
  · exact .inl ⟨rfl, by simpa [hquiet hfirst, hquiet hsecond] using hquiet h⟩
  rcases hjournal.op_cases with ⟨rfl, rfl⟩ | ⟨rest, rfl, hdurableRun⟩
  · exact .inl ⟨rfl, by simp [hquiet hfirst, hquiet hsecond, hquiet hthird]⟩
  right
  have hdurable : Durable R journal writes (writes.bodies disk.docs)
      { disk with journal := some journal } :=
    .inl ⟨rfl, disk.docs, manifest, hmanifest, hdescribes, rfl, fun _ ↦ .inl rfl⟩
  have hwp := wp_crash_commitDurable (R := R) (m := m') { disk with journal := some journal }
    hdescribes hvalid rfl hnodup rfl rfl hmanifest
  refine CrashState.invariant ⟨_, q, hdurableRun⟩ hwp ?_
  rintro ⟨e | a, m''⟩ u hu
  · rw [show u = _ from hu]
    exact .inl (.of_replaced hdescribes rfl rfl hmanifest)
  · exact .inr hu.1

/-- A commit of a store in sync gets as far as its durable journal. -/
theorem commitPrepared_reaches_journal (writes : Writes) (journal : Journal) (hsync : InSync R disk) :
    CrashState (machine R) (commitPrepared R journal writes m) disk
      { disk with journal := some journal } := by
  obtain ⟨hnone, manifest, hmanifest, hvalid, hdescribes⟩ := hsync
  obtain ⟨m', hassert⟩ := observes_assertWritable (R := R) (m := m) hmanifest hvalid
    hdescribes.complete hdescribes.files
  have hexists := observes_journalExists (R := R) disk m'
  rw [hnone] at hexists
  obtain ⟨first, hfirst⟩ := Prog.Observes.exists_run hassert
  obtain ⟨second, hsecond⟩ := Prog.Observes.exists_run hexists
  obtain ⟨third, hthird⟩ := Prog.Observes.exists_run (observes_readManifest (R := R) (m := m')
    hmanifest hvalid)
  exact ⟨_, _, hfirst.bind (hsecond.bind (hthird.bind (.own (.refl _ _))))⟩

end Commit

/-- After any crash of a commit and any interrupted recoveries, the first recovery that completes
leaves no journal. The documents are then the old ones, only if the journal never became durable, or
the old ones with the write set's documents replaced, and the manifest describes them. -/
theorem commitPrepared_crash_atomic (R : StoreRules) (disk crashed recovered after : Disk)
    (m m' m'' : Process) (writes : WriteSet) (operationId createdAt : String)
    (events : List (Event (machine R))) (q : Prog diskSignature (Except StoreError Unit × Process))
    (hsync : InSync R disk)
    (hcrash : Run (machine R) (alone (machine R))
      (commitPrepared R (preparedJournal R writes.entries operationId createdAt) writes.entries m)
      disk events q crashed)
    (hrecoveries : InterruptedRecoveries R crashed recovered)
    (hcomplete : (recoverLocked R).run (machine R) m' recovered = ((.ok (), m''), after)) :
    after.journal = none ∧
      ((after.docs = disk.docs ∧ ∀ journal u, .own (.writeJournal journal) u ∉ events) ∨
        after.docs = Writes.bodies writes.entries disk.docs) ∧
      ∃ manifest, after.manifest = some manifest ∧ Describes R manifest after.docs := by
  rcases crashState_commitPrepared hsync writes.nodup hcrash with ⟨rfl, hquiet⟩ | hdurable
  · have hsame := hrecoveries.unchanged hsync.journal
    subst hsame
    have hafter := (recoverLocked_of_no_journal (m := m') hsync.journal).run.symm.trans hcomplete
    cases hafter
    obtain ⟨manifest, hmanifest, -, hdescribes⟩ := hsync.manifest
    exact ⟨hsync.journal, .inl ⟨rfl, hquiet⟩, manifest, hmanifest, hdescribes⟩
  · have hrecovered := hrecoveries.durable writes.nodup rfl hdurable
    have hfinished := wp_crash_run (wp_crash_recoverLocked (m := m') writes.nodup rfl hrecovered)
    rw [show (recoverLocked R m').run (machine R) recovered = ((.ok (), m''), after) from hcomplete]
      at hfinished
    have hfinished : Finished R (Writes.bodies writes.entries disk.docs) after := hfinished
    obtain ⟨manifest, hmanifest, hdescribes⟩ := hfinished.manifest
    exact ⟨hfinished.journal, .inr hfinished.docs, manifest, hmanifest, hfinished.docs ▸ hdescribes⟩

def sampleNotes : Json :=
  .obj [("version", .int 1), ("notes", .arr [.obj [("id", .str "N-0001"), ("text", .str "call")]])]

def sampleWrites : WriteSet := ⟨[(.notes, sampleNotes)], by decide⟩

/-- A crash right after the journal became durable, and the recovery that finishes the commit. -/
theorem commitPrepared_crash_atomic_sample :
    ∃ (events : List (Event (machine (sampleRules [])))) (after : Disk), after.journal = none ∧
      ((after.docs = (sampleDisk []).docs ∧ ∀ journal u, .own (.writeJournal journal) u ∉ events) ∨
        after.docs = Writes.bodies sampleWrites.entries (sampleDisk []).docs) ∧
      ∃ manifest, after.manifest = some manifest ∧
        Describes (sampleRules []) manifest after.docs := by
  have hsync := sampleDisk_inSync []
  obtain ⟨events, q, hcrash⟩ := commitPrepared_reaches_journal (m := .fresh) sampleWrites.entries
    (preparedJournal (sampleRules []) sampleWrites.entries "op-1" "2026-01-05T09:00:00Z") hsync
  have hdurable := (crashState_commitPrepared hsync sampleWrites.nodup hcrash).resolve_left
    fun h ↦ nomatch congrArg Disk.journal h.1
  obtain ⟨m, after, hrecover, -⟩ := recoverLocked_completes (m := .fresh) sampleWrites.nodup rfl hdurable
    (sampleDisk_replayable [] _ _ sampleWrites.nodup (by decide) (by decide) (by decide) (by decide)
      (by decide) rfl)
  exact ⟨events, after, commitPrepared_crash_atomic _ _ _ _ _ _ _ _ _ _ _ _ _ hsync hcrash
    (.none _) hrecover⟩

end WorkStack.Store
