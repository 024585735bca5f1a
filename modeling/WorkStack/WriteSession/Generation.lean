import WorkStack.WriteSession.Reads

/-!
# Between two generations

A valid plan leads from the files of its base to the files of its proposed manifest. While it is
being applied every target holds its old or its new content, and a stage file stands only beside a
target that is still old. Whatever a crash leaves is one of four situations: nothing has happened,
the targets are pending, the manifest is published, or the generation is complete.
-/

namespace WorkStack.WriteSession

open Effect Effect.Outcome Python
open Store (Digest)

/-! ## Valid plans -/

/-- What a file holds once the targets are applied. A target that has the proposed digest already is
left alone. -/
def proposedFile (R : SessionRules) (targets : List JournalTarget) (files : Location → Option Bytes)
    (location : Location) : Option Bytes :=
  match targets.find? fun target ↦ target.location = location with
  | none => files location
  | some target =>
      if (files location).map R.sha256 = target.proposedDigest then files location
      else target.proposedBytes

/-- A complete authority: the manifest is the one of its files, and nothing is pending. -/
structure ValidBase (R : SessionRules) (disk : Disk) (base : Manifest) : Prop where
  journal : disk.journal = none
  journalStage : disk.journalStage = none
  manifest : disk.manifest = some base
  decodes : R.manifestDefect base = none
  actual : manifestOf R base.generation disk.authority = some base
  artifacts : ∀ location, (disk.file location).isSome → ∃ path, location.name = .artifact path
  known : ∀ path, (disk.authority (.artifact path)).isSome →
    isAuthorityArtifact path ∧ path ∈ base.roster.map Prod.fst

/-- A plan whose checks pass, whose targets are what it expects and whose result is what it
proposes. -/
structure ValidPlan (R : SessionRules) (runtime : RuntimeAuthority) (disk : Disk) (base : Manifest)
    (plan : Plan) : Prop where
  roster : validateTargetRoster R runtime (sortedTargets plan.targets) = .ok ()
  transition :
    validateManifestTransition runtime base plan.proposedManifest (sortedTargets plan.targets) = .ok ()
  journal : buildWriteJournal R (plan.journal R runtime base) = .ok (plan.journal R runtime base)
  current : ∀ target ∈ sortedTargets plan.targets,
    disk.digest R.sha256 target.location = target.expectedDigest
  proposed : manifestOf R (base.generation + 1) (fun name ↦
    proposedFile R (sortedTargets plan.targets) disk.file ⟨.authority, name⟩) = some plan.proposedManifest
  decodes : R.manifestDefect plan.proposedManifest = none
  advances : R.manifestDigest plan.proposedManifest ≠ R.manifestDigest base

/-! ## What the checks of a plan say -/

variable {target : JournalTarget}

section Checks

variable {R : SessionRules} {runtime : RuntimeAuthority}

theorem validateTargetRoster_ok {targets : List JournalTarget}
    (h : validateTargetRoster R runtime targets = .ok ()) :
    (targets.map JournalTarget.location).Nodup ∧
      ∀ target ∈ targets, targetPath R runtime target = .ok target.location := by
  rw [validateTargetRoster] at h
  split at h
  · cases h
  · rename_i hroster
    simp only [not_or, not_not] at hroster
    refine ⟨hroster.2.2, fun target htarget ↦ ?_⟩
    obtain ⟨location, hpath, -⟩ := bind_eq_ok.mp (forM_eq_ok.mp h target htarget)
    rw [hpath]
    revert hpath
    rw [targetPath]
    cases target.scope with
    | authority =>
        dsimp only
        split
        · exact fun hpath ↦ hpath.symm
        · exact fun hpath ↦ nomatch hpath
    | runtime =>
        intro hpath
        obtain ⟨-, -, hlocation⟩ := bind_eq_ok.mp hpath
        exact hlocation.symm

variable {journal : Journal}

theorem validateJournal_targets (h : validateJournal R journal = .ok ()) :
    ∀ target ∈ journal.targets, validateTarget R target = .ok () := by
  rw [validateJournal] at h
  split at h
  · cases h
  · split at h
    · cases h
    · obtain ⟨-, -, h⟩ := bind_eq_ok.mp h
      repeat
        split at h
        · cases h
      obtain ⟨_, htargets, -⟩ := bind_eq_ok.mp h
      exact forM_eq_ok.mp htargets

theorem validateTarget_ok (h : validateTarget R target = .ok ()) :
    target.proposedBytes.map R.sha256 = target.proposedDigest ∧
      (target.action = .delete → target.expectedDigest ≠ none ∧ target.proposedBytes = none) ∧
      (target.action = .replace → target.proposedBytes.isSome) := by
  rw [validateTarget] at h
  split at h
  · cases h
  · cases haction : target.action with
    | delete =>
        rw [haction] at h
        dsimp only at h
        split at h
        · cases h
        · rename_i hdelete
          simp only [not_or, not_not] at hdelete
          simp [hdelete.2.1, hdelete.2.2, hdelete.1]
    | replace =>
        rw [haction] at h
        cases hdigest : target.proposedDigest with
        | none => simp [hdigest, refuse] at h
        | some proposed =>
            cases hbytes : target.proposedBytes with
            | none => simp [hdigest, hbytes, refuse] at h
            | some body =>
                simp only [hdigest, hbytes] at h
                split at h
                · cases h
                · split at h
                  · cases h
                  · rename_i hcontent
                    simp [not_not.mp hcontent]

theorem buildWriteJournal_ok (h : buildWriteJournal R journal = .ok journal) :
    validateJournal R journal = .ok () ∧ R.journalSize journal ≤ maxJournalBytes := by
  obtain ⟨⟨⟩, hvalid, hsize⟩ := bind_eq_ok.mp h
  refine ⟨hvalid, ?_⟩
  split at hsize
  · cases hsize
  · omega

/-- The checks of a journal do not look at its phase. -/
theorem validateJournal_phase (journal : Journal) (phase : Phase) :
    validateJournal R { journal with phase } = validateJournal R journal := rfl

theorem parseWriteJournal_eq (h : validateJournal R journal = .ok ()) :
    parseWriteJournal R journal = if maxJournalBytes < R.journalSize journal then
      refuse "JOURNAL_BYTE_LIMIT_EXCEEDED" else .ok journal := by
  rw [parseWriteJournal, h]
  rfl

theorem advanceJournalPhase_eq (h : validateJournal R journal = .ok ()) {phase : Phase}
    (hphase : journal.phase.index ≤ phase.index) :
    advanceJournalPhase R journal phase = .ok { journal with phase } := by
  rw [advanceJournalPhase, if_neg (by omega), validateJournal_phase, h]
  rfl

variable {files : FileName → Option Bytes}

theorem rosterOf_spec {read : AuthorityRead} {entry : String × Digest} (h : entry ∈ rosterOf R read files) :
    (files (.artifact entry.1)).map R.sha256 = some entry.2 := by
  obtain ⟨artifact, -, hentry⟩ := List.mem_filterMap.mp h
  obtain ⟨body, hbody, rfl⟩ := Option.map_eq_some_iff.mp hentry
  rw [hbody]
  rfl

/-- The roster of a manifest holds the digests of the files it is the manifest of. -/
theorem manifestOf_roster {generation : ℕ} {manifest : Manifest} (h : manifestOf R generation files = some manifest) :
    ∀ entry ∈ manifest.roster, (files (.artifact entry.1)).map R.sha256 = some entry.2 := by
  obtain ⟨read, -, hbuild⟩ := Option.bind_eq_some_iff.mp h
  rw [buildManifest] at hbuild
  split at hbuild
  · cases hbuild
  · cases hbuild
    exact fun entry ↦ rosterOf_spec

theorem manifestOf_generation {generation : ℕ} {manifest : Manifest}
    (h : manifestOf R generation files = some manifest) : manifest.generation = generation := by
  obtain ⟨read, -, hbuild⟩ := Option.bind_eq_some_iff.mp h
  rw [buildManifest] at hbuild
  split at hbuild
  · cases hbuild
  · cases hbuild
    rfl

theorem validateManifestTransition_roster {base proposed : Manifest} {targets : List JournalTarget}
    (h : validateManifestTransition runtime base proposed targets = .ok ()) :
    base.workspaceUid = runtime.workspaceUid ∧ (base.roster.map Prod.fst).Nodup := by
  rw [validateManifestTransition] at h
  split at h
  · cases h
  · rename_i hworkspace
    split at h
    · cases h
    · split at h
      · cases h
      · obtain ⟨artifacts, hartifacts, -⟩ := bind_eq_ok.mp h
        rw [manifestArtifacts] at hartifacts
        split at hartifacts
        · exact ⟨not_not.mp hworkspace, ‹_›⟩
        · cases hartifacts

end Checks

/-! ## One generation -/

/-- A valid plan over a valid base. -/
structure Generation (R : SessionRules) (runtime : RuntimeAuthority) where
  start : Disk
  base : Manifest
  plan : Plan
  validBase : ValidBase R start base
  validPlan : ValidPlan R runtime start base plan

namespace Generation

variable {R : SessionRules} {runtime : RuntimeAuthority} (G : Generation R runtime)

def targets : List JournalTarget := sortedTargets G.plan.targets

/-- The files of the proposed manifest. -/
def goal (location : Location) : Option Bytes := proposedFile R G.targets G.start.file location

def journal (phase : Phase) : Journal := { G.plan.journal R runtime G.base with phase }

def stage (target : JournalTarget) : Location := stageLocation R G.plan.operationId target

/-- The target is still to be replaced, so it may have a stage file. -/
def Awaits (disk : Disk) (target : JournalTarget) : Prop :=
  target.action = .replace ∧ disk.digest R.sha256 target.location ≠ target.proposedDigest

/-- Every file is the old or the new one, and stage files stand only beside old targets. -/
structure Mixed (disk : Disk) : Prop where
  artifacts : ∀ scope path, disk.file ⟨scope, .artifact path⟩ = G.start.file ⟨scope, .artifact path⟩ ∨
    disk.file ⟨scope, .artifact path⟩ = G.goal ⟨scope, .artifact path⟩
  stages : ∀ scope path suffix, (disk.file ⟨scope, .stage path suffix⟩).isSome → ∃ target ∈ G.targets,
    G.stage target = ⟨scope, .stage path suffix⟩ ∧ Awaits (R := R) disk target

/-- Nothing has happened, but for the stage file of a journal that was never published. -/
structure Untouched (disk : Disk) : Prop where
  journal : disk.journal = none
  manifest : disk.manifest = some G.base
  files : ∀ location, disk.file location = G.start.file location

/-- The journal is durable, in a phase before publication, and the base manifest stands. -/
structure Pending (phase : Phase) (disk : Disk) : Prop where
  early : phase = .prepared ∨ phase = .applying
  journal : disk.journal = some (G.journal phase)
  manifest : disk.manifest = some G.base
  mixed : G.Mixed disk

/-- The proposed manifest stands over its files, and the journal is still there. -/
structure Published (phase : Phase) (disk : Disk) : Prop where
  late : phase ≠ .prepared
  journal : disk.journal = some (G.journal phase)
  journalStage : phase = .generationPublished → disk.journalStage = none
  manifest : disk.manifest = some G.plan.proposedManifest
  files : ∀ location, disk.file location = G.goal location

/-- The proposed generation and nothing else. -/
structure Completed (disk : Disk) : Prop where
  journal : disk.journal = none
  journalStage : disk.journalStage = none
  manifest : disk.manifest = some G.plan.proposedManifest
  files : ∀ location, disk.file location = G.goal location

/-- What a crash leaves once the journal is durable. -/
inductive Durable (disk : Disk) : Prop
  | pending (phase : Phase) (h : G.Pending phase disk)
  | published (phase : Phase) (h : G.Published phase disk)
  | completed (h : G.Completed disk)

/-! ### Targets -/

theorem journal_phase (phase : Phase) : (G.journal phase).phase = phase := rfl

theorem nodup_locations : (G.targets.map JournalTarget.location).Nodup :=
  (validateTargetRoster_ok G.validPlan.roster).1

theorem nodup_targets : G.targets.Nodup := List.Nodup.of_map _ G.nodup_locations

theorem targetPath_eq (h : target ∈ G.targets) :
    targetPath R runtime target = .ok target.location :=
  (validateTargetRoster_ok G.validPlan.roster).2 target h

theorem validJournal (phase : Phase) : validateJournal R (G.journal phase) = .ok () :=
  (buildWriteJournal_ok G.validPlan.journal).1

theorem target_spec (h : target ∈ G.targets) :
    target.proposedBytes.map R.sha256 = target.proposedDigest ∧
      (target.action = .delete → target.expectedDigest ≠ none ∧ target.proposedBytes = none) ∧
      (target.action = .replace → target.proposedBytes.isSome) :=
  validateTarget_ok (validateJournal_targets (G.validJournal .prepared) target h)

theorem eq_of_location {left right : JournalTarget} (hl : left ∈ G.targets) (hr : right ∈ G.targets)
    (h : left.location = right.location) : left = right :=
  List.inj_on_of_nodup_map G.nodup_locations hl hr h

theorem eq_of_stage {left right : JournalTarget} (hl : left ∈ G.targets) (hr : right ∈ G.targets)
    (h : G.stage left = G.stage right) : left = right := by
  apply G.eq_of_location hl hr
  simp only [stage, stageLocation, Location.mk.injEq, FileName.stage.injEq] at h
  simp [JournalTarget.location, h.1, h.2.1]

theorem stage_ne_location (target other : JournalTarget) : G.stage target ≠ other.location := by
  simp [stage, stageLocation, JournalTarget.location]

theorem find_target (h : target ∈ G.targets) :
    G.targets.find? (fun other ↦ other.location = target.location) = some target := by
  cases hfind : G.targets.find? fun other ↦ other.location = target.location with
  | none => exact absurd (decide_eq_true rfl) (List.find?_eq_none.mp hfind target h)
  | some other =>
      have hlocation : other.location = target.location := by simpa using List.find?_some hfind
      rw [G.eq_of_location (List.mem_of_find?_eq_some hfind) h hlocation]

theorem goal_target (h : target ∈ G.targets) : G.goal target.location =
    if G.start.digest R.sha256 target.location = target.proposedDigest then
      G.start.file target.location else target.proposedBytes := by
  rw [goal, proposedFile, G.find_target h]
  rfl

theorem goal_of_not_target {location : Location}
    (h : ∀ target ∈ G.targets, target.location ≠ location) : G.goal location = G.start.file location := by
  have hfind : (G.targets.find? fun other ↦ other.location = location) = none :=
    List.find?_eq_none.mpr fun target htarget ↦ by simpa using h target htarget
  rw [goal, proposedFile, hfind]

theorem goal_digest (h : target ∈ G.targets) :
    (G.goal target.location).map R.sha256 = target.proposedDigest := by
  rw [G.goal_target h]
  split
  · assumption
  · exact (G.target_spec h).1

/-- No stage file belongs to the start or to the goal. -/
theorem goal_stage (scope : Scope) (path suffix : String) :
    G.goal ⟨scope, .stage path suffix⟩ = none := by
  rw [G.goal_of_not_target]
  · by_contra hsome
    obtain ⟨other, hother⟩ := G.validBase.artifacts _ (Option.isSome_iff_ne_none.mpr hsome)
    cases hother
  · intro target _ hlocation
    cases hlocation

/-! ### Mixed files -/

variable {G} {disk : Disk}

theorem Mixed.target_cases (h : G.Mixed disk) (htarget : target ∈ G.targets) :
    (disk.digest R.sha256 target.location = target.proposedDigest ∧
        disk.file target.location = G.goal target.location) ∨
      (disk.digest R.sha256 target.location ≠ target.proposedDigest ∧
        disk.digest R.sha256 target.location = target.expectedDigest ∧
        G.goal target.location = target.proposedBytes) := by
  have hgoal := G.goal_target htarget
  rcases h.artifacts target.scope target.artifact with hfile | hfile
  · have hdigest : disk.digest R.sha256 target.location = G.start.digest R.sha256 target.location :=
      Disk.digest_congr hfile
    by_cases hproposed : G.start.digest R.sha256 target.location = target.proposedDigest
    · rw [if_pos hproposed] at hgoal
      exact .inl ⟨hdigest.trans hproposed, hgoal ▸ hfile⟩
    · rw [if_neg hproposed] at hgoal
      exact .inr ⟨hdigest ▸ hproposed, hdigest.trans (G.validPlan.current target htarget), hgoal⟩
  · left
    refine ⟨?_, hfile⟩
    rw [Disk.digest, show disk.file target.location = _ from hfile]
    exact G.goal_digest htarget

/-- A mixed disk whose targets are all applied holds the goal. -/
theorem Mixed.goal (h : G.Mixed disk)
    (hdone : ∀ target ∈ G.targets, disk.digest R.sha256 target.location = target.proposedDigest)
    (location : Location) : disk.file location = G.goal location := by
  rcases location with ⟨scope, path | ⟨path, suffix⟩⟩
  · by_cases htarget : ∃ target ∈ G.targets, target.location = ⟨scope, .artifact path⟩
    · obtain ⟨target, hmem, hlocation⟩ := htarget
      rw [← hlocation]
      rcases h.target_cases hmem with ⟨-, hgoal⟩ | ⟨hdigest, -⟩
      · exact hgoal
      · exact absurd (hdone target hmem) hdigest
    · push Not at htarget
      have hsame := G.goal_of_not_target htarget
      rcases h.artifacts scope path with hfile | hfile
      · rw [hfile, hsame]
      · exact hfile
  · rw [G.goal_stage]
    by_contra hsome
    obtain ⟨target, hmem, -, -, hdigest⟩ := h.stages scope path suffix (Option.isSome_iff_ne_none.mpr hsome)
    exact hdigest (hdone target hmem)

theorem Mixed.recoverable (h : G.Mixed disk) (phase : Phase) :
    Recoverable R runtime (G.journal phase) G.base disk := by
  have hbase := G.validBase
  refine ⟨(validateManifestTransition_roster G.validPlan.transition).2, ?_, ?_,
    fun target ↦ G.targetPath_eq, ?_⟩
  · intro name hname
    cases name with
    | stage path suffix =>
        obtain ⟨target, hmem, hstage, -⟩ := h.stages .authority path suffix hname
        left
        have hscope : target.scope = .authority := congrArg Location.scope hstage
        exact List.mem_map.mpr ⟨target, List.mem_filter.mpr ⟨hmem, decide_eq_true hscope⟩,
          congrArg Location.name hstage⟩
    | artifact path =>
        right
        by_cases htarget : ∃ target ∈ G.targets, target.location = ⟨.authority, .artifact path⟩
        · obtain ⟨target, hmem, hlocation⟩ := htarget
          have hpath := G.targetPath_eq hmem
          simp only [JournalTarget.location, Location.mk.injEq, FileName.artifact.injEq] at hlocation
          refine ⟨path, rfl, ?_, .inr ⟨target, hmem, hlocation⟩⟩
          rw [targetPath, hlocation.1] at hpath
          dsimp only at hpath
          split at hpath
          · rwa [hlocation.2] at *
          · cases hpath
        · push Not at htarget
          have hsame := G.goal_of_not_target htarget
          have hstart : (G.start.authority (.artifact path)).isSome := by
            rcases h.artifacts .authority path with hfile | hfile
            · rwa [Disk.authority, ← hfile]
            · rwa [Disk.authority, ← hsame, ← hfile]
          obtain ⟨hvalid, hknown⟩ := hbase.known path hstart
          exact ⟨path, rfl, hvalid, .inl hknown⟩
  · intro entry hentry
    by_cases htarget : ∃ target ∈ G.targets, target.location = ⟨.authority, .artifact entry.1⟩
    · left
      obtain ⟨target, hmem, hlocation⟩ := htarget
      simp only [JournalTarget.location, Location.mk.injEq, FileName.artifact.injEq] at hlocation
      exact ⟨target, hmem, hlocation⟩
    · right
      push Not at htarget
      have hsame := G.goal_of_not_target htarget
      have hfile : disk.file ⟨.authority, .artifact entry.1⟩ = G.start.file ⟨.authority, .artifact entry.1⟩ := by
        rcases h.artifacts .authority entry.1 with hfile | hfile
        · exact hfile
        · rw [hfile, hsame]
      rw [Disk.digest, hfile]
      exact manifestOf_roster hbase.actual entry hentry
  · intro target htarget
    rcases h.target_cases htarget with ⟨hproposed, -⟩ | ⟨-, hexpected, -⟩
    · exact .inr hproposed
    · exact .inl hexpected

theorem mixed_start : G.Mixed G.start := by
  refine ⟨fun _ _ ↦ .inl rfl, fun scope path suffix hsome ↦ ?_⟩
  obtain ⟨other, hother⟩ := G.validBase.artifacts _ hsome
  cases hother

/-- Files are all that a mixed disk is about. -/
theorem Mixed.congr {other : Disk} (h : G.Mixed disk)
    (hfiles : ∀ location, other.file location = disk.file location) : G.Mixed other := by
  refine ⟨fun scope path ↦ ?_, fun scope path suffix hsome ↦ ?_⟩
  · rw [hfiles]
    exact h.artifacts scope path
  · rw [hfiles] at hsome
    obtain ⟨target, hmem, hstage, haction, hdigest⟩ := h.stages scope path suffix hsome
    refine ⟨target, hmem, hstage, haction, ?_⟩
    rwa [Disk.digest_congr (hfiles _)]

/-- Whatever happens to the stage file of a target that waits for it, the files stay mixed. -/
theorem Mixed.of_stage {other : Disk} (h : G.Mixed disk) (htarget : target ∈ G.targets)
    (hawaits : Awaits (R := R) disk target)
    (hfiles : ∀ location ≠ G.stage target, other.file location = disk.file location) :
    G.Mixed other := by
  have hartifact : ∀ scope path, other.file ⟨scope, .artifact path⟩ = disk.file ⟨scope, .artifact path⟩ :=
    fun scope path ↦ hfiles _ (by simp [stage, stageLocation])
  have hdigest : ∀ target : JournalTarget, other.digest R.sha256 target.location =
      disk.digest R.sha256 target.location := fun target ↦ Disk.digest_congr (hartifact _ _)
  refine ⟨fun scope path ↦ ?_, fun scope path suffix hsome ↦ ?_⟩
  · rw [hartifact]
    exact h.artifacts scope path
  · by_cases hstage : G.stage target = ⟨scope, .stage path suffix⟩
    · exact ⟨target, htarget, hstage, hawaits.1, by rw [hdigest]; exact hawaits.2⟩
    · rw [hfiles _ (Ne.symm hstage)] at hsome
      obtain ⟨other, hmem, heq, haction, hother⟩ := h.stages scope path suffix hsome
      exact ⟨other, hmem, heq, haction, by rwa [hdigest]⟩

/-- Applying a target, and with it the removal of its stage file, keeps the files mixed. -/
theorem Mixed.of_applied {other : Disk} (h : G.Mixed disk) (htarget : target ∈ G.targets)
    (hgoal : other.file target.location = G.goal target.location)
    (hstage : target.action = .replace → other.file (G.stage target) = none)
    (hfiles : ∀ location ≠ target.location, other.file location = disk.file location ∨
      location = G.stage target ∧ other.file location = none) :
    G.Mixed other := by
  refine ⟨fun scope path ↦ ?_, fun scope path suffix hsome ↦ ?_⟩
  · by_cases hlocation : (⟨scope, .artifact path⟩ : Location) = target.location
    · rw [hlocation]
      exact .inr hgoal
    · rcases hfiles _ hlocation with hfile | ⟨hname, -⟩
      · rw [hfile]
        exact h.artifacts scope path
      · simp [stage, stageLocation] at hname
  · rcases hfiles ⟨scope, .stage path suffix⟩ (by simp [JournalTarget.location]) with hfile | ⟨-, hnone⟩
    · rw [hfile] at hsome
      obtain ⟨owner, hmem, heq, haction, hdigest⟩ := h.stages scope path suffix hsome
      have hne : owner ≠ target := by
        intro howner
        subst howner
        rw [← hfile, ← heq, hstage haction] at hsome
        cases hsome
      have hlocation : owner.location ≠ target.location := fun heq ↦
        hne (G.eq_of_location hmem htarget heq)
      refine ⟨owner, hmem, heq, haction, ?_⟩
      rcases hfiles _ hlocation with hsame | ⟨hname, -⟩
      · rwa [Disk.digest_congr hsame]
      · simp [stage, stageLocation, JournalTarget.location] at hname
    · rw [hnone] at hsome
      cases hsome

end Generation

end WorkStack.WriteSession
