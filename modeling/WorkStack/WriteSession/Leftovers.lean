import WorkStack.WriteSession.CrashSafety

/-!
# What a crash leaves behind

A crash can leave a journal, the stage file of a journal and the stage files of targets. A recovery
takes up the journal and replaces or removes whole stage files, but it refuses a stage file that is
cut short, and nobody removes the stage file of a journal that was never published: the next session
refuses to start over it.
-/

namespace WorkStack.WriteSession

open Effect Python

variable {R : SessionRules} {runtime : RuntimeAuthority}

/-- The same authority without the files that only a crash leaves. -/
def Disk.withoutLeftovers (disk : Disk) : Disk where
  files := disk.files.filter fun entry ↦ match entry.1.name with
    | .artifact _ => true
    | .stage _ _ => false
  journal := none
  journalStage := none
  manifest := disk.manifest

/-- A recovery of the disk completes, and no later session is refused because of files that were
left behind: every valid plan ends as it does on the same authority without them. -/
def NotBricked (R : SessionRules) (runtime : RuntimeAuthority) (crashed : Disk) : Prop :=
  ∃ result recovered,
    (recoverWriteSession R runtime).run (machine R) () crashed = ((.ok result, ()), recovered) ∧
      ∀ next : Generation R runtime, next.start = recovered.withoutLeftovers →
        ((executeWriteSession R runtime next.plan).run (machine R) () recovered).1.1 =
          ((executeWriteSession R runtime next.plan).run (machine R) () next.start).1.1

/-- What the leftovers of a crash have to be like. -/
structure Harmless (R : SessionRules) (disk : Disk) : Prop where
  /-- No stage file of a journal that was never published. -/
  journalStage : disk.journal = none → disk.journalStage = none
  /-- No stage file, of a target that is still to be replaced, that is cut short. -/
  stages : ∀ journal, disk.journal = some journal → ∀ target ∈ journal.targets, target.action = .replace →
    disk.digest R.sha256 target.location ≠ target.proposedDigest →
      ∀ body, target.proposedBytes = some body → ∀ content,
        disk.file (stageLocation R journal.operationId target) = some content →
          R.sha256 content = R.sha256 body
  /-- The journal fits into its limit in every phase it can still reach. -/
  size : ∀ journal, disk.journal = some journal → ∀ phase : Phase, journal.phase.index ≤ phase.index →
    R.journalSize { journal with phase } ≤ maxJournalBytes

/-- The disks that crashes of a session and of its recoveries leave. -/
def Crashed (G : Generation R runtime) (disk : Disk) : Prop :=
  ∃ crashed, CrashState (machine R) (executeWriteSession R runtime G.plan ()) G.start crashed ∧
    InterruptedRecoveries R runtime crashed disk

namespace Generation

variable {G : Generation R runtime} {disk : Disk}

theorem crashed_cases (h : Crashed G disk) : G.Untouched disk ∨ G.Durable disk := by
  obtain ⟨crashed, ⟨events, q, hrun⟩, hrecoveries⟩ := h
  rcases G.crash_session hrun with ⟨huntouched, -⟩ | hdurable
  · left
    rwa [huntouched.interrupted hrecoveries]
  · exact .inr (hdurable.interrupted hrecoveries)

/-! ## Disks without leftovers -/

theorem withoutLeftovers_eq (hfiles : ∀ scope path suffix, disk.file ⟨scope, .stage path suffix⟩ = none)
    (hjournal : disk.journal = none) :
    disk.withoutLeftovers = { disk with journalStage := none } := by
  have hfilter : (disk.files.filter fun entry ↦ match entry.1.name with
      | .artifact _ => true
      | .stage _ _ => false) = disk.files := by
    rw [List.filter_eq_self]
    intro entry hentry
    have hkey : entry.1 ∈ Dict.keys disk.files := List.mem_map_of_mem hentry
    rw [Dict.mem_keys] at hkey
    rcases hlocation : entry.1 with ⟨scope, path | ⟨path, suffix⟩⟩
    · rfl
    · rw [hlocation] at hkey
      have hnone : Dict.get disk.files ⟨scope, .stage path suffix⟩ = none := hfiles scope path suffix
      rw [hnone] at hkey
      cases hkey
  rw [Disk.withoutLeftovers, hfilter, ← hjournal]

theorem Untouched.file_stage (h : G.Untouched disk) (scope : Scope) (path suffix : String) :
    disk.file ⟨scope, .stage path suffix⟩ = none := by
  rw [h.files]
  by_contra hsome
  obtain ⟨other, hother⟩ := G.validBase.artifacts _ (Option.isSome_iff_ne_none.mpr hsome)
  cases hother

theorem Completed.withoutLeftovers_eq (h : G.Completed disk) : disk.withoutLeftovers = disk := by
  have hstages : ∀ scope path suffix, disk.file ⟨scope, .stage path suffix⟩ = none := by
    intro scope path suffix
    rw [h.files, G.goal_stage]
  rw [Generation.withoutLeftovers_eq hstages h.journal, ← h.journalStage]

/-! ## After a crash before the journal -/

/-- The same plan once more, over the base without leftovers. -/
def Untouched.retry (h : G.Untouched disk) : Generation R runtime where
  start := { disk with journalStage := none }
  base := G.base
  plan := G.plan
  validBase := {
    journal := h.journal
    journalStage := rfl
    manifest := h.manifest
    decodes := G.validBase.decodes
    actual := by
      change manifestOf R G.base.generation disk.authority = some G.base
      rw [h.authority]
      exact G.validBase.actual
    artifacts := fun location hsome ↦ G.validBase.artifacts location (by rwa [← h.files])
    known := fun path hsome ↦ G.validBase.known path (by rwa [← h.authority]) }
  validPlan := {
    roster := G.validPlan.roster
    transition := G.validPlan.transition
    journal := G.validPlan.journal
    current := fun target htarget ↦ (Disk.digest_congr (h.files target.location)).trans
      (G.validPlan.current target htarget)
    proposed := by
      have hfiles : Disk.file { disk with journalStage := none } = G.start.file := funext h.files
      rw [hfiles]
      exact G.validPlan.proposed
    decodes := G.validPlan.decodes
    advances := G.validPlan.advances }

/-- A session refuses to start over the stage file of another journal. -/
theorem Untouched.observes_refused (h : G.Untouched disk) (hstage : disk.journalStage ≠ none) :
    Command.Observes (machine R) disk (executeWriteSession R runtime G.plan) ()
      (.error (.refused "JOURNAL_STAGE_EXISTS" "")) () := by
  have hpresent : disk.journalStage.isSome = true := Option.isSome_iff_ne_none.mpr hstage
  have hpublish : Command.Observes (machine R) disk (publishJournal R (G.journal .prepared) none) ()
      (.error (.refused "JOURNAL_STAGE_EXISTS" "")) () := by
    rw [publishJournal]
    apply Command.Observes.bind observes_journalFileDigest
    rw [h.journal, if_neg (by simp)]
    apply Command.Observes.bind observes_journalStageExists
    rw [if_pos hpresent, if_pos rfl]
    exact Command.Observes.bind_error (.throw _)
  unfold executeWriteSession
  apply Command.Observes.bind (observes_readJournal_none h.journal)
  apply Command.Observes.bind h.observes_verifyBaseline
  dsimp only
  rw [G.validPlan.roster, G.validPlan.transition, G.validPlan.journal]
  apply Command.Observes.bind (.ofExcept _)
  apply Command.Observes.bind (.ofExcept _)
  apply Command.Observes.bind (.ofExcept _)
  exact hpublish.bind_error

theorem Untouched.notBricked_iff (h : G.Untouched disk) :
    NotBricked R runtime disk ↔ disk.journalStage = none := by
  have hnone : Command.Observes (machine R) disk (recoverWriteSession R runtime) () (.ok none) () :=
    observes_recover_none h.journal
  have hrecover := hnone.run
  have hclean := withoutLeftovers_eq h.file_stage h.journal
  constructor
  · intro ⟨result, recovered, hrun, hnext⟩
    cases hrecover.symm.trans hrun
    by_contra hstage
    have hsame := hnext h.retry hclean.symm
    have hrefused := (h.observes_refused hstage).run
    have hretry := (untouched_start (G := h.retry)).reaches_session (m := ()) rfl
    have hretry := hretry.wp_crash (K := fun _ ↦ True) (fun _ _ ↦ trivial) fun _ _ ↦ trivial
    rw [show (executeWriteSession R runtime h.retry.plan).run (machine R) () disk = _ from hrefused] at hsame
    rcases Command.run_cases hretry with ⟨_, _, _, hok, -⟩ | ⟨_, _, _, herror, -, hlong⟩
    · rw [hok] at hsame
      cases hsame
    · rw [herror, hlong] at hsame
      simp at hsame
  · intro hstage
    refine ⟨none, disk, hrecover, fun next hnext ↦ ?_⟩
    have hdisk : next.start = disk := by rw [hnext, hclean, ← hstage]
    rw [hdisk]

theorem Completed.notBricked (h : G.Completed disk) : NotBricked R runtime disk := by
  refine ⟨none, disk, (observes_recover_none h.journal).run, fun next hnext ↦ ?_⟩
  rw [hnext, h.withoutLeftovers_eq]

/-- A generation in progress can be finished exactly if a recovery gets through. -/
theorem InProgress.notBricked_iff {phase : Phase} (h : G.InProgress phase disk) :
    NotBricked R runtime disk ↔ G.Passable phase disk := by
  have hrecover := h.wp_crash_recover (I := fun _ ↦ True) (m := ()) fun _ _ ↦ trivial
  rcases Command.run_cases hrecover with
    ⟨result, ⟨⟩, after, hrun, hcompleted, hpassable⟩ | ⟨error, ⟨⟩, after, hrun, -, hfailed⟩
  · refine iff_of_true ⟨result, after, hrun, fun next hnext ↦ ?_⟩ hpassable
    rw [hnext, hcompleted.withoutLeftovers_eq]
  · refine iff_of_false (fun ⟨result, recovered, hok, _⟩ ↦ ?_) hfailed
    cases hrun.symm.trans hok

/-- What a recovery needs, as a condition on the leftovers. -/
theorem InProgress.passable_iff {phase : Phase} (h : G.InProgress phase disk) :
    G.Passable phase disk ↔ Harmless R disk := by
  have hjournal := h.journal
  constructor
  · intro hpassable
    refine ⟨fun hnone ↦ ?_, fun journal hsome target htarget haction hdigest body hbody content hcontent ↦ ?_,
      fun journal hsome later hlater ↦ ?_⟩
    · rw [hjournal] at hnone
      cases hnone
    · cases hjournal.symm.trans hsome
      apply hpassable.whole target htarget ⟨haction, hdigest⟩ body hbody
      exact congrArg (Option.map R.sha256) hcontent
    · cases hjournal.symm.trans hsome
      rcases Nat.lt_or_eq_of_le hlater with hlt | heq
      · exact not_lt.mp (hpassable.fitsAfter later hlt)
      · cases Phase.index_injective heq
        exact not_lt.mp hpassable.fits
  · intro hharmless
    refine ⟨fun target htarget hawaits body hbody digest hdigest ↦ ?_, ?_, fun later hlater ↦ ?_⟩
    · obtain ⟨content, hcontent, hsame⟩ := Option.map_eq_some_iff.mp hdigest
      rw [← hsame]
      exact hharmless.stages _ hjournal target htarget hawaits.1 hawaits.2 body hbody content hcontent
    · exact not_lt.mpr (hharmless.size _ hjournal phase le_rfl)
    · exact not_lt.mpr (hharmless.size _ hjournal later hlater.le)

end Generation

/-- A crash leaves a store that can be recovered and written again exactly if it left no stage file
of an unpublished journal, no stage file that is cut short, and no journal that outgrows its limit. -/
theorem notBricked_iff_harmless (R : SessionRules) (runtime : RuntimeAuthority) (G : Generation R runtime)
    (disk : Disk) (h : Crashed G disk) : NotBricked R runtime disk ↔ Harmless R disk := by
  rcases G.crashed_cases h with huntouched | hpending | hpublished | hcompleted
  · rw [huntouched.notBricked_iff]
    have hnone : ∀ journal, disk.journal ≠ some journal := fun journal hsome ↦
      nomatch huntouched.journal.symm.trans hsome
    constructor
    · intro hstage
      exact ⟨fun _ ↦ hstage, fun journal hsome ↦ absurd hsome (hnone journal),
        fun journal hsome ↦ absurd hsome (hnone journal)⟩
    · exact fun hharmless ↦ hharmless.journalStage huntouched.journal
  · have hprogress := Generation.InProgress.pending ‹_›
    rw [hprogress.notBricked_iff, hprogress.passable_iff]
  · have hprogress := Generation.InProgress.published ‹_›
    rw [hprogress.notBricked_iff, hprogress.passable_iff]
  · have hnone : ∀ journal, disk.journal ≠ some journal := fun journal hsome ↦
      nomatch hcompleted.journal.symm.trans hsome
    refine iff_of_true hcompleted.notBricked ⟨fun _ ↦ hcompleted.journalStage, fun journal hsome ↦
      absurd hsome (hnone journal), fun journal hsome ↦ absurd hsome (hnone journal)⟩

/-- The session stops between the creation of the stage file of its journal and its replacement. -/
theorem bricked_by_journal_stage : ∃ (G : Generation sampleRules sampleRuntime) (disk : Disk),
    Crashed G disk ∧ ¬NotBricked sampleRules sampleRuntime disk := by
  refine ⟨sampleGeneration, { sampleStart with journalStage := some none },
    ⟨_, sampleGeneration.crash_journalStage, .none _⟩, ?_⟩
  have huntouched := (Generation.untouched_start (G := sampleGeneration)).setJournalStage (some none)
  intro hfine
  have hstage := huntouched.notBricked_iff.mp hfine
  cases hstage

/-- A crash right behind the durable journal leaves nothing that is in the way. -/
theorem notBricked_iff_harmless_sample : NotBricked sampleRules sampleRuntime
      { sampleStart with journal := some (sampleGeneration.journal .prepared), journalStage := none } ↔
    Harmless sampleRules
      { sampleStart with journal := some (sampleGeneration.journal .prepared), journalStage := none } :=
  notBricked_iff_harmless sampleRules sampleRuntime sampleGeneration _
    ⟨_, sampleGeneration.crash_journal, .none _⟩

end WorkStack.WriteSession
