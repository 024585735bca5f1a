import WorkStack.Python.Sha256
import WorkStack.WriteSession.Phases

/-!
# Crash safety of a write session

A session goes from an untouched base through a durable journal to the complete generation, and a
recovery takes up whatever a crash left on that way. The way leads in one direction, so a recovery
that completes has finished the generation, unless the journal never became durable.
-/

namespace WorkStack.WriteSession

open Effect Effect.Outcome Python
open Store (Digest)

variable {R : SessionRules} {runtime : RuntimeAuthority}

namespace Generation

variable {G : Generation R runtime} {I : Disk → Prop} {disk : Disk} {m : Unit}

/-! ## Publication -/

theorem authority_of_goal (h : ∀ location, disk.file location = G.goal location) :
    disk.authority = fun name ↦ proposedFile R G.targets G.start.file ⟨.authority, name⟩ := by
  funext name
  exact h _

/-- The files of the goal have the proposed manifest. -/
theorem observes_proposed (h : ∀ location, disk.file location = G.goal location) :
    Command.Observes (machine R) disk (actualManifest R (G.base.generation + 1)) m
      (.ok G.plan.proposedManifest) m := by
  apply observes_actualManifest
  rw [authority_of_goal h]
  exact G.validPlan.proposed

theorem wp_crash_publishManifest {base : Manifest} (hbase : disk.manifest = some base)
    (hdecodes : R.manifestDefect base = none) (hhere : I disk)
    (hafter : I { disk with manifest := some G.plan.proposedManifest }) :
    Command.wp (crashContract (machine R) I)
      (publishManifest R G.plan.proposedManifest (R.manifestDigest base))
      (fun _ _ after ↦ after = { disk with manifest := some G.plan.proposedManifest })
      (fun _ _ _ ↦ False) m disk := by
  have hvalid := G.validPlan.decodes
  unfold publishManifest
  rw [hvalid]
  apply (observes_currentManifestDigest hbase hdecodes).wp_crash_bind hhere
  rw [if_neg (not_not.mpr rfl)]
  apply (observes_currentManifestDigest hbase hdecodes).wp_crash_bind hhere
  rw [if_neg (not_not.mpr rfl)]
  have hreplace : disk.perform R.sha256 (.replaceManifest G.plan.proposedManifest) =
      ((), { disk with manifest := some G.plan.proposedManifest }) := rfl
  apply wp_crash_step_bind hreplace hhere
  apply (observes_readRuntimeManifest rfl hvalid).wp_crash_bind hafter
  dsimp only
  rw [if_neg (not_not.mpr rfl)]
  rfl

/-- A generation whose manifest still has to be published. -/
theorem Pending.wp_crash_completeGeneration (h : G.Pending .applying disk)
    (hfiles : ∀ location, disk.file location = G.goal location) (hI : ∀ after, G.Durable after → I after) :
    Command.wp (crashContract (machine R) I)
      (completeGeneration R (G.journal .applying) G.plan.proposedManifest (R.manifestDigest G.base))
      (fun _ _ after ↦ G.Completed after ∧ G.FitsAfter .applying)
      (fun error _ after ↦ G.Durable after ∧ error = tooLong ∧ ¬G.FitsAfter .applying) m disk := by
  have hpublished : G.Published .applying { disk with manifest := some G.plan.proposedManifest } :=
    ⟨by decide, h.journal, (fun heq ↦ nomatch heq), rfl, hfiles⟩
  have hbase : R.manifestDigest G.base = (G.journal .applying).baseManifestDigest := rfl
  rw [completeGeneration, publishedState, if_pos hbase]
  apply Command.wp_seq (wp_crash_publishManifest h.manifest G.validBase.decodes
    (hI _ (.pending _ h)) (hI _ (.published _ hpublished)))
  · intro state _ after hafter
    subst hafter
    exact hpublished.wp_crash_finish state hI
  · exact fun _ _ _ hfalse ↦ hfalse.elim

variable {phase : Phase}

/-- A generation whose manifest has been published before. -/
theorem Published.wp_crash_completeGeneration (h : G.Published phase disk) (hI : ∀ after, G.Durable after → I after) :
    Command.wp (crashContract (machine R) I)
      (completeGeneration R (G.journal phase) G.plan.proposedManifest
        (R.manifestDigest G.plan.proposedManifest))
      (fun _ _ after ↦ G.Completed after ∧ G.FitsAfter phase)
      (fun error _ after ↦ G.Durable after ∧ error = tooLong ∧ ¬G.FitsAfter phase) m disk := by
  have hbase : R.manifestDigest G.plan.proposedManifest ≠ (G.journal phase).baseManifestDigest :=
    G.validPlan.advances
  have hread : Command.Observes (machine R) disk (publishedState R (G.journal phase)
      G.plan.proposedManifest (R.manifestDigest G.plan.proposedManifest)) m
      (.ok G.plan.proposedManifest) m := by
    rw [publishedState, if_neg hbase, if_pos rfl]
    exact .bind (observes_readRuntimeManifest h.manifest G.validPlan.decodes) (.pure _)
  rw [completeGeneration]
  apply hread.wp_crash_bind (hI _ (.published _ h))
  exact h.wp_crash_finish _ hI

/-! ## From the durable journal on -/

/-- The two refusals that a generation can meet, of a disk and from a phase on. -/
inductive Refusal (G : Generation R runtime) (phase : Phase) (disk : Disk) : SessionError → Prop
  | cutShort (h : ¬G.Whole disk) : Refusal G phase disk cutShort
  | tooLong (h : ¬G.FitsAfter phase) : Refusal G phase disk tooLong

theorem Pending.of_control {after : Disk} (h : G.Pending phase disk) (hcontrol : SameControl disk after)
    (hmixed : G.Mixed after) : G.Pending phase after :=
  ⟨h.early, hcontrol.journal.trans h.journal, hcontrol.manifest.trans h.manifest, hmixed⟩

/-- Staging, applying and publishing fail only because of a stage file that was cut short, or of the
size of the journal. -/
theorem Pending.wp_crash_finishTargets (h : G.Pending .applying disk)
    (hI : ∀ after, G.Durable after → I after) :
    Command.wp (crashContract (machine R) I)
      (finishTargets R runtime (G.journal .applying) G.base (G.base.generation + 1)
        (R.manifestDigest G.plan.proposedManifest))
      (fun _ _ after ↦ G.Completed after ∧ G.Whole disk ∧ G.FitsAfter .applying)
      (fun error _ after ↦ G.Durable after ∧ G.Refusal .applying disk error) m disk := by
  rw [finishTargets]
  apply Command.wp_seq (wp_crash_applyTargets
    (fun after hcontrol hmixed ↦ hI _ (.pending _ (h.of_control hcontrol hmixed))) h.mixed)
  · intro _ _ applied ⟨⟨hcontrol, hfiles⟩, hwhole⟩
    have happlied := h.of_control hcontrol (mixed_of_goal hfiles)
    apply (observes_proposed hfiles).wp_crash_bind (hI _ (.pending _ happlied))
    rw [if_neg (not_not.mpr rfl)]
    apply Command.wp_mono (happlied.wp_crash_completeGeneration hfiles hI)
    · exact fun _ _ _ hdone ↦ ⟨hdone.1, hwhole, hdone.2⟩
    · intro _ _ _ ⟨hdurable, herror, hfits⟩
      subst herror
      exact ⟨hdurable, .tooLong hfits⟩
  · intro _ _ after ⟨⟨hcontrol, hmixed⟩, herror, hwhole⟩
    subst herror
    exact ⟨.pending _ (h.of_control hcontrol hmixed), .cutShort hwhole⟩

theorem Pending.setJournalStage (h : G.Pending phase disk) (journalStage : Option (Option Journal)) :
    G.Pending phase { disk with journalStage := journalStage } :=
  ⟨h.early, h.journal, h.manifest, h.mixed.congr fun _ ↦ rfl⟩

theorem Pending.advance (h : G.Pending phase disk) :
    G.Pending .applying { disk with journal := some (G.journal .applying), journalStage := none } :=
  ⟨.inr rfl, rfl, h.manifest, h.mixed.congr fun _ ↦ rfl⟩

theorem Pending.wp_crash_startApplying (h : G.Pending .prepared disk) (hI : ∀ after, G.Durable after → I after) :
    Command.wp (crashContract (machine R) I) (advanceJournal R (G.journal .prepared) .applying)
      (fun journal _ after ↦ journal = G.journal .applying ∧
        after = { disk with journal := some (G.journal .applying), journalStage := none } ∧
        ¬G.Oversized .applying)
      (fun error _ after ↦ G.Durable after ∧ error = tooLong ∧ G.Oversized .applying) m disk := by
  apply Command.wp_mono (wp_crash_advanceJournal (by decide) h.journal
    (fun journalStage ↦ hI _ (.pending _ (h.setJournalStage journalStage))) (hI _ (.pending _ h.advance)))
  · exact fun _ _ _ hdone ↦ hdone
  · intro _ _ after ⟨hafter, hfailed⟩
    subst hafter
    exact ⟨.pending _ h.advance, hfailed⟩

theorem whole_congr {before after : Disk} (h : ∀ location, after.file location = before.file location) :
    G.Whole after ↔ G.Whole before := by
  have hdigest : ∀ location, after.digest R.sha256 location = before.digest R.sha256 location :=
    fun location ↦ Disk.digest_congr (h location)
  simp only [Whole, WholeTarget, WholeStage, Awaits, hdigest]

theorem fitsAfter_prepared : G.FitsAfter .prepared ↔ ¬G.Oversized .applying ∧ G.FitsAfter .applying := by
  constructor
  · intro h
    refine ⟨h .applying (by decide), fun later hlater ↦ h later ?_⟩
    exact lt_trans (by decide) hlater
  · intro ⟨happlying, hafter⟩ later hlater
    cases later with
    | prepared => simp at hlater
    | applying => exact happlying
    | manifestPublished => exact hafter _ (by decide)
    | generationPublished => exact hafter _ (by decide)

/-! ## Recovery -/

theorem Pending.wp_crash_recoverLocked (h : G.Pending phase disk) (hI : ∀ after, G.Durable after → I after) :
    Command.wp (crashContract (machine R) I) (recoverLocked R runtime (G.journal phase))
      (fun _ _ after ↦ G.Completed after ∧ G.Whole disk ∧ G.FitsAfter phase)
      (fun error _ after ↦ G.Durable after ∧ G.Refusal phase disk error) m disk := by
  have hhere : I disk := hI _ (.pending _ h)
  have hworkspace : ¬(G.journal phase).workspaceUid ≠ runtime.workspaceUid := not_not.mpr rfl
  have hstate : ¬(R.manifestDigest G.base ≠ (G.journal phase).baseManifestDigest ∧
      R.manifestDigest G.base ≠ (G.journal phase).proposedManifestDigest) := fun hstate ↦ hstate.1 rfl
  have hbase : ¬R.manifestDigest G.base = (G.journal phase).proposedManifestDigest :=
    Ne.symm G.validPlan.advances
  have hearly : ¬((G.journal phase).phase = .manifestPublished ∨
      (G.journal phase).phase = .generationPublished) := by
    rw [G.journal_phase]
    rcases h.early with rfl | rfl <;> decide
  rw [recoverLocked, if_neg hworkspace]
  apply (observes_readRuntimeManifest h.manifest G.validBase.decodes).wp_crash_bind hhere
  dsimp only
  rw [if_neg hstate, if_neg hbase, if_neg hearly]
  apply (h.mixed.recoverable phase).observes.wp_crash_bind hhere
  rcases h.early with rfl | rfl
  · rw [G.journal_phase, if_pos rfl]
    apply Command.wp_seq (h.wp_crash_startApplying hI)
    · intro _ _ advanced ⟨hjournal, hadvanced, hsize⟩
      subst hjournal hadvanced
      apply Command.wp_seq (h.advance.wp_crash_finishTargets hI)
      · intro _ _ _ ⟨hcompleted, hwhole, hfits⟩
        exact ⟨hcompleted, (whole_congr fun _ ↦ rfl).mp hwhole, fitsAfter_prepared.mpr ⟨hsize, hfits⟩⟩
      · intro _ _ _ ⟨hdurable, hrefusal⟩
        refine ⟨hdurable, ?_⟩
        cases hrefusal with
        | cutShort hwhole => exact .cutShort fun hgood ↦ hwhole ((whole_congr fun _ ↦ rfl).mpr hgood)
        | tooLong hfits => exact .tooLong fun hgood ↦ hfits (fitsAfter_prepared.mp hgood).2
    · intro _ _ _ ⟨hdurable, herror, hsize⟩
      subst herror
      exact ⟨hdurable, .tooLong fun hfits ↦ (fitsAfter_prepared.mp hfits).1 hsize⟩
  · rw [G.journal_phase, if_neg (by decide)]
    apply Command.Observes.wp_crash_bind (.pure _) hhere
    apply Command.wp_seq (h.wp_crash_finishTargets hI)
    · exact fun _ _ _ hdone ↦ hdone
    · exact fun _ _ _ hfailed ↦ hfailed

/-- Where the goal stands nothing waits for a stage file. -/
theorem whole_of_goal (h : ∀ location, disk.file location = G.goal location) : G.Whole disk := by
  intro target htarget hawaits
  refine absurd ?_ hawaits.2
  rw [Disk.digest, h]
  exact G.goal_digest htarget

theorem Published.wp_crash_recoverLocked (h : G.Published phase disk) (hI : ∀ after, G.Durable after → I after) :
    Command.wp (crashContract (machine R) I) (recoverLocked R runtime (G.journal phase))
      (fun _ _ after ↦ G.Completed after ∧ G.Whole disk ∧ G.FitsAfter phase)
      (fun error _ after ↦ G.Durable after ∧ G.Refusal phase disk error) m disk := by
  have hhere : I disk := hI _ (.published _ h)
  have hworkspace : ¬(G.journal phase).workspaceUid ≠ runtime.workspaceUid := not_not.mpr rfl
  have hstate : ¬(R.manifestDigest G.plan.proposedManifest ≠ (G.journal phase).baseManifestDigest ∧
      R.manifestDigest G.plan.proposedManifest ≠ (G.journal phase).proposedManifestDigest) :=
    fun hstate ↦ hstate.2 rfl
  have hproposed : R.manifestDigest G.plan.proposedManifest = (G.journal phase).proposedManifestDigest := rfl
  have hwhole := whole_of_goal h.files
  rw [recoverLocked, if_neg hworkspace]
  apply (observes_readRuntimeManifest h.manifest G.validPlan.decodes).wp_crash_bind hhere
  dsimp only
  rw [if_neg hstate, if_pos hproposed]
  apply (observes_proposed h.files).wp_crash_bind hhere
  rw [if_neg (not_not.mpr hproposed)]
  apply Command.wp_seq (h.wp_crash_completeGeneration hI)
  · exact fun _ _ _ hdone ↦ ⟨hdone.1, hwhole, hdone.2⟩
  · intro _ _ _ ⟨hdurable, herror, hfits⟩
    subst herror
    exact ⟨hdurable, .tooLong hfits⟩

/-- A journal is there, and this is how far the generation has got. -/
inductive InProgress (G : Generation R runtime) (phase : Phase) (disk : Disk) : Prop
  | pending (h : G.Pending phase disk)
  | published (h : G.Published phase disk)

theorem InProgress.journal (h : G.InProgress phase disk) :
    disk.journal = some (G.journal phase) := by
  cases h with
  | pending h => exact h.journal
  | published h => exact h.journal

theorem InProgress.durable (h : G.InProgress phase disk) : G.Durable disk := by
  cases h with
  | pending h => exact .pending _ h
  | published h => exact .published _ h

/-- What a recovery needs to get through. -/
structure Passable (G : Generation R runtime) (phase : Phase) (disk : Disk) : Prop where
  whole : G.Whole disk
  fits : ¬G.Oversized phase
  fitsAfter : G.FitsAfter phase

/-- A recovery of a durable journal completes the generation, if it can get through. -/
theorem InProgress.wp_crash_recover (h : G.InProgress phase disk) (hI : ∀ after, G.Durable after → I after) :
    Command.wp (crashContract (machine R) I) (recoverWriteSession R runtime)
      (fun _ _ after ↦ G.Completed after ∧ G.Passable phase disk)
      (fun _ _ after ↦ G.Durable after ∧ ¬G.Passable phase disk) m disk := by
  have hhere : I disk := hI _ h.durable
  have hroster : validateTargetRoster R runtime (G.journal phase).targets = .ok () := G.validPlan.roster
  have hlocked : Command.wp (crashContract (machine R) I) (recoverLocked R runtime (G.journal phase))
      (fun _ _ after ↦ G.Completed after ∧ G.Whole disk ∧ G.FitsAfter phase)
      (fun error _ after ↦ G.Durable after ∧ G.Refusal phase disk error) m disk := by
    cases h with
    | pending h => exact h.wp_crash_recoverLocked hI
    | published h => exact h.wp_crash_recoverLocked hI
  have hread := observes_persisted (m := m) h.journal
  rw [recoverWriteSession]
  by_cases hsize : maxJournalBytes < R.journalSize (G.journal phase)
  · rw [if_pos hsize] at hread
    apply hread.bind_error.wp_crash hhere
    · exact fun _ hok ↦ nomatch hok
    · exact fun _ _ ↦ ⟨h.durable, fun hgood ↦ hgood.fits hsize⟩
  · rw [if_neg hsize] at hread
    apply hread.wp_crash_bind hhere
    dsimp only
    rw [hroster]
    apply Command.Observes.wp_crash_bind (.ofExcept _) hhere
    apply Command.wp_seq hlocked
    · exact fun _ _ _ hdone ↦ ⟨hdone.1, hdone.2.1, hsize, hdone.2.2⟩
    · intro _ _ _ ⟨hdurable, hrefusal⟩
      refine ⟨hdurable, fun hgood ↦ ?_⟩
      cases hrefusal with
      | cutShort hwhole => exact hwhole hgood.whole
      | tooLong hfits => exact hfits hgood.fitsAfter

/-- Without a journal there is nothing to recover. -/
theorem observes_recover_none (h : disk.journal = none) :
    Command.Observes (machine R) disk (recoverWriteSession R runtime) m (.ok none) m :=
  .bind (observes_readJournal_none h) (.pure _)

theorem Durable.wp_crash_recover (h : G.Durable disk) (hI : ∀ after, G.Durable after → I after) :
    Command.wp (crashContract (machine R) I) (recoverWriteSession R runtime)
      (fun _ _ after ↦ G.Completed after) (fun _ _ after ↦ G.Durable after) m disk := by
  have hprogress : ∀ phase, G.InProgress phase disk →
      Command.wp (crashContract (machine R) I) (recoverWriteSession R runtime)
        (fun _ _ after ↦ G.Completed after) (fun _ _ after ↦ G.Durable after) m disk := by
    intro phase h
    apply Command.wp_mono (h.wp_crash_recover hI)
    · exact fun _ _ _ hdone ↦ hdone.1
    · exact fun _ _ _ hfailed ↦ hfailed.1
  cases h with
  | pending phase h => exact hprogress phase (.pending h)
  | published phase h => exact hprogress phase (.published h)
  | completed h =>
      apply (observes_recover_none h.journal).wp_crash (hI _ (.completed h))
      · exact fun _ _ ↦ h
      · exact fun _ herror ↦ nomatch herror

/-! ## The session -/

theorem Untouched.mixed (h : G.Untouched disk) : G.Mixed disk := mixed_start.congr h.files

theorem Untouched.setJournalStage (h : G.Untouched disk) (journalStage : Option (Option Journal)) :
    G.Untouched { disk with journalStage := journalStage } :=
  ⟨h.journal, h.manifest, h.files⟩

theorem Untouched.publish (h : G.Untouched disk) :
    G.Pending .prepared { disk with journal := some (G.journal .prepared), journalStage := none } :=
  ⟨.inl rfl, rfl, h.manifest, h.mixed.congr fun _ ↦ rfl⟩

/-- No stage file stands over an untouched base. -/
theorem Untouched.whole (h : G.Untouched disk) : G.Whole disk := by
  intro target _ _ body _ digest hdigest
  obtain ⟨content, hcontent, -⟩ := Option.map_eq_some_iff.mp hdigest
  rw [h.files] at hcontent
  obtain ⟨path, hpath⟩ := G.validBase.artifacts _ (Option.isSome_iff_exists.mpr ⟨content, hcontent⟩)
  cases hpath

theorem fits_prepared : ¬G.Oversized .prepared :=
  not_lt.mpr (buildWriteJournal_ok G.validPlan.journal).2

theorem Untouched.authority (h : G.Untouched disk) : disk.authority = G.start.authority := by
  funext name
  exact h.files _

/-- The base of an untouched disk is verified. -/
theorem Untouched.observes_verifyBaseline (h : G.Untouched disk) :
    Command.Observes (machine R) disk (verifyBaseline R) m (.ok G.base) m := by
  apply WriteSession.observes_verifyBaseline h.manifest G.validBase.decodes
  rw [h.authority]
  exact G.validBase.actual

/-- What the session does before it publishes its journal. -/
theorem Untouched.reaches_execute (h : G.Untouched disk) {J : Disk → Prop}
    {Q : WriteSessionResult → Unit → Disk → Prop} {E : SessionError → Unit → Disk → Prop}
    (hpublish : Command.Reaches (machine R) G.Untouched J (do
        publishJournal R (G.journal .prepared) none
        let journal ← advanceJournal R (G.journal .prepared) .applying
        verifyRecoveryState R runtime journal G.base
        let (_, state) ← finishTargets R runtime journal G.base (G.base.generation + 1)
          (R.manifestDigest G.plan.proposedManifest)
        pure ⟨G.plan.operationId, state.generation, state, false⟩) Q E m disk) :
    Command.Reaches (machine R) G.Untouched J (executeWriteSession R runtime G.plan) Q E m disk := by
  unfold executeWriteSession
  dsimp only
  apply Command.Reaches.observes (observes_readJournal_none h.journal) h
  apply Command.Reaches.observes h.observes_verifyBaseline h
  rw [G.validPlan.roster, G.validPlan.transition, G.validPlan.journal]
  apply Command.Reaches.observes (.ofExcept _) h
  apply Command.Reaches.observes (.ofExcept _) h
  apply Command.Reaches.observes (.ofExcept _) h
  exact hpublish

/-- The session completes its generation, unless the journal outgrows its limit. The publication of
the journal is its point of no return. -/
theorem Untouched.reaches_session (h : G.Untouched disk) (hstage : disk.journalStage = none) :
    Command.Reaches (machine R) G.Untouched G.Durable (executeWriteSession R runtime G.plan)
      (fun _ _ after ↦ G.Completed after)
      (fun error _ after ↦ G.Durable after ∧ error = tooLong) m disk := by
  have hI : ∀ after, G.Durable after → G.Durable after := fun _ h ↦ h
  have hprepared := h.publish
  have happlying := hprepared.advance
  have hnone : disk.journal.map R.journalDigest = none := by rw [h.journal]; rfl
  apply h.reaches_execute
  apply Command.Reaches.seq (reaches_publishJournal hnone (fun _ ↦ hstage) h.setJournalStage
    (.pending _ hprepared))
  · intro _ _ published ⟨hpublished, _⟩
    subst hpublished
    apply Command.wp_seq (hprepared.wp_crash_startApplying hI)
    · intro _ _ advanced ⟨hjournal, hadvanced, hsize⟩
      subst hjournal hadvanced
      apply (happlying.mixed.recoverable .applying).observes.wp_crash_bind (.pending _ happlying)
      apply Command.wp_seq (happlying.wp_crash_finishTargets hI)
      · exact fun _ _ _ hdone ↦ hdone.1
      · intro _ _ _ ⟨hdurable, hrefusal⟩
        refine ⟨hdurable, ?_⟩
        cases hrefusal with
        | cutShort hwhole => exact absurd ((whole_congr fun _ ↦ rfl).mpr h.whole) hwhole
        | tooLong _ => rfl
    · intro _ _ _ ⟨hdurable, herror, _⟩
      exact ⟨hdurable, herror⟩
  · intro _ _ _ ⟨_, _, hsize⟩
    exact absurd hsize fits_prepared

theorem untouched_start : G.Untouched G.start :=
  ⟨G.validBase.journal, G.validBase.manifest, fun _ ↦ rfl⟩

end Generation

/-! ## Crashes -/

/-- Recoveries one after the other, each of which stops before it completes. -/
inductive InterruptedRecoveries (R : SessionRules) (runtime : RuntimeAuthority) : Disk → Disk → Prop
  | none (disk : Disk) : InterruptedRecoveries R runtime disk disk
  | crash {before between after : Disk}
      (stopped : CrashState (machine R) (recoverWriteSession R runtime ()) before between)
      (rest : InterruptedRecoveries R runtime between after) : InterruptedRecoveries R runtime before after

namespace Generation

variable {G : Generation R runtime}

/-- What a crash of the session leaves. -/
theorem crash_session {events : List (Event (machine R))}
    {q : Prog diskSignature (Except SessionError WriteSessionResult × Unit)} {crashed : Disk}
    (hrun : Run (machine R) (alone (machine R)) (executeWriteSession R runtime G.plan ()) G.start events q
      crashed) :
    (G.Untouched crashed ∧ ∀ o before, .own o before ∈ events → before.journal = none) ∨
      G.Durable crashed := by
  have hsession := (untouched_start (G := G)).reaches_session (m := ()) G.validBase.journalStage
  have hcrash := hsession.crash (fun _ _ _ h ↦ .completed h) (fun _ _ _ h ↦ h.1) hrun
  apply hcrash.imp_left
  intro ⟨huntouched, hevents⟩
  exact ⟨huntouched, fun o before hbefore ↦ (hevents o before hbefore).journal⟩

theorem Untouched.interrupted {before after : Disk} (hrun : InterruptedRecoveries R runtime before after)
    (h : G.Untouched before) : after = before := by
  induction hrun with
  | none disk => rfl
  | crash stopped rest ih =>
      obtain ⟨events, q, hstopped⟩ := stopped
      have hbetween := ((observes_recover_none h.journal).run_until hstopped).1
      subst hbetween
      exact ih h

theorem Durable.interrupted {before after : Disk} (hrun : InterruptedRecoveries R runtime before after)
    (h : G.Durable before) : G.Durable after := by
  induction hrun with
  | none disk => exact h
  | crash stopped rest ih =>
      apply ih
      apply stopped.invariant (h.wp_crash_recover (m := ()) fun _ h ↦ h)
      rintro ⟨error | result, _⟩ after hafter
      · exact hafter
      · exact .completed hafter

end Generation

/-- After any crash of a session and any interrupted recoveries, the first recovery that completes
leaves no journal. The manifest is then the proposed one and every file is the proposed one, or, only
if the journal never became durable, the manifest is the base and every file is as it was. In both
cases the manifest is the one of the files. -/
theorem writeSession_crash_safe (R : SessionRules) (runtime : RuntimeAuthority)
    (G : Generation R runtime) (events : List (Event (machine R)))
    (q : Prog diskSignature (Except SessionError WriteSessionResult × Unit))
    (crashed recovered after : Disk) (result : Option WriteSessionResult)
    (hcrash : Run (machine R) (alone (machine R)) (executeWriteSession R runtime G.plan ()) G.start events
      q crashed)
    (hrecoveries : InterruptedRecoveries R runtime crashed recovered)
    (hcomplete : (recoverWriteSession R runtime).run (machine R) () recovered = ((.ok result, ()), after)) :
    after.journal = none ∧
      (after.manifest = some G.plan.proposedManifest ∧ (∀ location, after.file location = G.goal location) ∨
        after.manifest = some G.base ∧ (∀ location, after.file location = G.start.file location) ∧
          ∀ o before, .own o before ∈ events → before.journal = none) ∧
      ∃ manifest, after.manifest = some manifest ∧
        manifestOf R manifest.generation after.authority = some manifest := by
  rcases G.crash_session hcrash with ⟨huntouched, hevents⟩ | hdurable
  · have hsame := huntouched.interrupted hrecoveries
    subst hsame
    have hafter := (Generation.observes_recover_none huntouched.journal).run.symm.trans hcomplete
    cases hafter
    refine ⟨huntouched.journal, .inr ⟨huntouched.manifest, huntouched.files, hevents⟩, G.base,
      huntouched.manifest, ?_⟩
    rw [huntouched.authority]
    exact G.validBase.actual
  · have hrecovered := hdurable.interrupted hrecoveries
    have hfinished := wp_crash_run (hrecovered.wp_crash_recover (m := ()) fun _ h ↦ h)
    rw [show (recoverWriteSession R runtime ()).run (machine R) recovered = ((.ok result, ()), after) from
      hcomplete] at hfinished
    have hfinished : G.Completed after := hfinished
    refine ⟨hfinished.journal, .inl ⟨hfinished.manifest, hfinished.files⟩, G.plan.proposedManifest,
      hfinished.manifest, ?_⟩
    have hgeneration := manifestOf_generation G.validPlan.proposed
    rw [hgeneration, Generation.authority_of_goal hfinished.files]
    exact G.validPlan.proposed

section Reached

variable {R : SessionRules} {runtime : RuntimeAuthority} (G : Generation R runtime)

/-- A crash behind a step whose answer is known. -/
theorem crash_step {α : Type} {o : DiskOp} {f : o.Answer → SessionCommand α} {answer : o.Answer}
    {before after crashed : Disk} {m : Unit} (hstep : before.perform R.sha256 o = (answer, after))
    (h : CrashState (machine R) (f answer m) after crashed) :
    CrashState (machine R) ((step o >>= f) m) before crashed := by
  apply Command.crash_perform
  change CrashState (machine R) (f (before.perform R.sha256 o).1 m) (before.perform R.sha256 o).2 crashed
  rwa [hstep]

/-- A crash in the publication of the journal is a crash of the session. -/
theorem Generation.crash_of_publish {crashed : Disk}
    (h : CrashState (machine R) (publishJournal R (G.journal .prepared) none ()) G.start crashed) :
    CrashState (machine R) (executeWriteSession R runtime G.plan ()) G.start crashed := by
  have huntouched := Generation.untouched_start (G := G)
  unfold executeWriteSession
  apply Command.crash_observes (observes_readJournal_none huntouched.journal)
  apply Command.crash_observes huntouched.observes_verifyBaseline
  dsimp only
  rw [G.validPlan.roster, G.validPlan.transition, G.validPlan.journal]
  exact Command.crash_within h _

/-- The publication gets as far as the stage file of the journal. -/
theorem Generation.publish_stages {crashed : Disk}
    (h : CrashState (machine R) ((do
        let _ ← step (.writeJournalStage (G.journal .prepared))
        let current ← journalFileDigest R
        if current ≠ none then do
          let _ ← step .unlinkJournalStage
          stop "JOURNAL_CAS_MISMATCH"
        else do
          let replaced : Bool ← step .replaceJournal
          if ¬replaced then stop "JOURNAL_PUBLISH_FAILED"
          else do
            let _ ← step .unlinkJournalStage
            match ← readJournal R with
            | none => stop "JOURNAL_PUBLISH_VERIFICATION_FAILED"
            | some persisted =>
                if R.journalDigest persisted ≠ R.journalDigest (G.journal .prepared) then
                  stop "JOURNAL_PUBLISH_VERIFICATION_FAILED"
                else pure () : SessionCommand Unit) ()) { G.start with journalStage := some none } crashed) :
    CrashState (machine R) (publishJournal R (G.journal .prepared) none ()) G.start crashed := by
  have hjournal := G.validBase.journal
  have hstage := G.validBase.journalStage
  rw [publishJournal]
  apply Command.crash_observes observes_journalFileDigest
  rw [hjournal, if_neg (by simp)]
  apply Command.crash_observes observes_journalStageExists
  rw [hstage, if_neg (by decide)]
  have hcreate : G.start.perform R.sha256 .createJournalStage =
      (true, { G.start with journalStage := some none }) := by
    simp [Disk.perform, hstage]
  exact crash_step hcreate h

theorem Generation.crash_journalStage :
    CrashState (machine R) (executeWriteSession R runtime G.plan ()) G.start
      { G.start with journalStage := some none } :=
  G.crash_of_publish (G.publish_stages (Command.crash_here _))

/-- The session gets as far as its durable journal. -/
theorem Generation.crash_journal : CrashState (machine R) (executeWriteSession R runtime G.plan ()) G.start
    { G.start with journal := some (G.journal .prepared), journalStage := none } := by
  apply G.crash_of_publish
  apply G.publish_stages
  have hwrite : Disk.perform R.sha256 (.writeJournalStage (G.journal .prepared))
      { G.start with journalStage := some none } =
        ((), { G.start with journalStage := some (some (G.journal .prepared)) }) := rfl
  have hreplace : Disk.perform R.sha256 .replaceJournal
      { G.start with journalStage := some (some (G.journal .prepared)) } =
        (true, { G.start with journal := some (G.journal .prepared), journalStage := none }) := rfl
  apply crash_step hwrite
  apply Command.crash_observes observes_journalFileDigest
  have hjournal : ¬(G.start.journal.map R.journalDigest ≠ none) := by simp [G.validBase.journal]
  rw [if_neg hjournal]
  exact crash_step hreplace (Command.crash_here _)

end Reached

/-! ## A sample generation -/

def sampleUid : String := "6f1c2b7e-9a54-4d3e-8f10-2b7c5a9d4e61"

@[irreducible] def sampleStore : Bytes := Json.compactJson (.obj [("format", .str "workstack.ssot"),
  ("schema_version", .int 4), ("schema_set", .str "workstack.ssot.v4"), ("workspace_uid", .str sampleUid),
  ("created_at", .str "2026-09-01T00:00:00Z")])

@[irreducible] def sampleWorkspace (revision : ℤ) (name : String) : Bytes := Json.compactJson (.obj [
  ("format", .str "workstack.workspace"), ("schema_version", .int 1), ("workspace_uid", .str sampleUid),
  ("uid", .str sampleUid), ("revision", .int revision), ("created_at", .null), ("updated_at", .null),
  ("display_id", .str sampleUid), ("name", .str name)])

def sampleRules : SessionRules where
  sha256 := Sha256.digest
  readV4 files :=
    if (files (.artifact "store.json")).isSome ∧ (files (.artifact "workspace.json")).isSome then
      some ⟨sampleUid, ["store.json", "workspace.json"], ""⟩
    else none
  fingerprint _ roster :=
    Sha256.digest (Json.compactJson (.arr (roster.map fun entry ↦ .str ("sha256:" ++ entry.2.hex))))
  manifestDigest manifest :=
    Sha256.digest (Json.compactJson (.arr [.int manifest.generation, .str manifest.workspaceUid]))
  manifestDefect _ := none
  journalDigest journal := Sha256.digest (Json.compactJson (.str journal.operationId))
  journalSize journal := 1024 + (journal.targets.map fun target ↦ (target.proposedBytes.getD []).length).sum
  fromIsoFormat stamp := some (stamp.toList.drop 19 = "+00:00".toList)
  ledgerDefect _ _ := none

def sampleRuntime : RuntimeAuthority := ⟨sampleUid⟩

def sampleManifest (generation : ℕ) (workspace : Bytes) : Manifest :=
  ⟨generation, sampleUid, [("store.json", Sha256.digest sampleStore),
    ("workspace.json", Sha256.digest workspace)], ""⟩

def sampleBase : Manifest := sampleManifest 0 (sampleWorkspace 0 "Work")

def sampleStart : Disk where
  files := [(⟨.authority, .artifact "store.json"⟩, sampleStore),
    (⟨.authority, .artifact "workspace.json"⟩, sampleWorkspace 0 "Work")]
  journal := none
  journalStage := none
  manifest := some sampleBase

def sampleTarget : JournalTarget where
  action := .replace
  scope := .authority
  artifact := "workspace.json"
  expectedDigest := some (Sha256.digest (sampleWorkspace 0 "Work"))
  proposedDigest := some (Sha256.digest (sampleWorkspace 1 "Home"))
  proposedBytes := some (sampleWorkspace 1 "Home")

def samplePlan : Plan where
  targets := [sampleTarget]
  proposedManifest := sampleManifest 1 (sampleWorkspace 1 "Home")
  operationId := "rename-0001"
  createdAt := "2026-09-01T00:00:00Z"

theorem sampleWorkspace_digest_ne :
    Sha256.digest (sampleWorkspace 0 "Work") ≠ Sha256.digest (sampleWorkspace 1 "Home") := by
  decide +kernel

theorem sampleWorkspace_length : (sampleWorkspace 1 "Home").length ≤ 1024 := by decide +kernel

theorem sampleManifest_digest_ne :
    sampleRules.manifestDigest samplePlan.proposedManifest ≠ sampleRules.manifestDigest sampleBase := by
  decide

theorem sampleStart_file (location : Location) : sampleStart.file location =
    if ⟨.authority, .artifact "store.json"⟩ = location then some sampleStore
    else if ⟨.authority, .artifact "workspace.json"⟩ = location then some (sampleWorkspace 0 "Work")
    else none := by
  simp only [Disk.file, sampleStart, Dict.get_cons, Dict.get_nil]

/-- The manifest of a store file and a workspace file. -/
theorem manifestOf_sample (generation : ℕ) (files : FileName → Option Bytes) (workspace : Bytes)
    (hstore : files (.artifact "store.json") = some sampleStore)
    (hworkspace : files (.artifact "workspace.json") = some workspace)
    (hgeneration : generation ≤ maxCanonicalInteger) :
    manifestOf sampleRules generation files = some (sampleManifest generation workspace) := by
  simp [manifestOf, buildManifest, rosterOf, sampleRules, sampleManifest, hstore, hworkspace,
    not_lt.mpr hgeneration]

theorem sample_validBase : ValidBase sampleRules sampleStart sampleBase where
  journal := rfl
  journalStage := rfl
  manifest := rfl
  decodes := rfl
  actual := by
    apply manifestOf_sample
    · simp [Disk.authority, sampleStart_file]
    · simp [Disk.authority, sampleStart_file]
    · decide
  artifacts location h := by
    rw [sampleStart_file] at h
    split at h
    · exact ⟨_, congrArg Location.name (Eq.symm ‹_›)⟩
    · split at h
      · exact ⟨_, congrArg Location.name (Eq.symm ‹_›)⟩
      · cases h
  known path h := by
    rw [Disk.authority, sampleStart_file] at h
    split at h
    · rename_i heq
      cases heq
      decide
    · split at h
      · rename_i heq
        cases heq
        decide
      · cases h

theorem sortedTargets_singleton (target : JournalTarget) : sortedTargets [target] = [target] := rfl

theorem sampleTarget_valid : validateTarget sampleRules sampleTarget = .ok () := by
  have hlength := sampleWorkspace_length
  have hartifact : isArtifact "workspace.json" = true := by decide
  have hsize : ¬maxTargetBytes < (sampleWorkspace 1 "Home").length := by
    rw [maxTargetBytes]
    omega
  simp [validateTarget, sampleTarget, hartifact, hsize, sampleRules]

theorem samplePlan_journal : buildWriteJournal sampleRules
    (samplePlan.journal sampleRules sampleRuntime sampleBase) =
      .ok (samplePlan.journal sampleRules sampleRuntime sampleBase) := by
  have hlength := sampleWorkspace_length
  have huid : isRecordArtifact.isUuidText sampleUid = true := by decide
  have hid : isOperationId "rename-0001" = true := by decide
  have htime : validateTimestamp sampleRules "2026-09-01T00:00:00Z" = .ok () := by
    have hstamp : sampleRules.fromIsoFormat (String.ofList ("2026-09-01T00:00:00Z".toList.flatMap
        fun c ↦ if c = 'Z' then "+00:00".toList else [c])) = some true := by decide
    rw [validateTimestamp, hstamp]
  have hsize : ¬maxJournalBytes < sampleRules.journalSize
      (samplePlan.journal sampleRules sampleRuntime sampleBase) := by
    have hjournal : sampleRules.journalSize (samplePlan.journal sampleRules sampleRuntime sampleBase) =
        1024 + ((sampleWorkspace 1 "Home").length + 0) := rfl
    rw [hjournal, maxJournalBytes]
    omega
  have htarget := sampleTarget_valid
  have hvalid : validateJournal sampleRules (samplePlan.journal sampleRules sampleRuntime sampleBase) =
      .ok () := by
    simp only [validateJournal, Plan.journal, samplePlan, sortedTargets_singleton, sampleRuntime, huid, hid,
      htime]
    simp [htarget, sampleBase, sampleManifest, maxCanonicalInteger, maxTargets]
  rw [buildWriteJournal, hvalid]
  exact if_neg hsize

/-- A manifest that differs from its base in the digest of the workspace file. -/
theorem sample_transition {store old new : Digest} (body : Bytes) (h : old ≠ new) :
    validateManifestTransition sampleRuntime
      ⟨0, sampleUid, [("store.json", store), ("workspace.json", old)], ""⟩
      ⟨1, sampleUid, [("store.json", store), ("workspace.json", new)], ""⟩
      [⟨.replace, .authority, "workspace.json", some old, some new, some body⟩] = .ok () := by
  have hbase : manifestArtifacts ⟨0, sampleUid, [("store.json", store), ("workspace.json", old)], ""⟩ =
      .ok [("store.json", store), ("workspace.json", old)] := if_pos (by simp)
  have hproposed : manifestArtifacts ⟨1, sampleUid, [("store.json", store), ("workspace.json", new)], ""⟩ =
      .ok [("store.json", store), ("workspace.json", new)] := if_pos (by simp)
  rw [validateManifestTransition, sampleRuntime, if_neg (not_not.mpr rfl), if_neg (not_not.mpr rfl), if_neg (by simp),
    hbase, hproposed]
  dsimp only [bind, Except.bind]
  rw [if_neg]
  · apply forM_eq_ok.mpr
    intro target htarget
    simp only [List.filter_cons, decide_true, if_true, List.filter_nil, List.mem_singleton] at htarget
    subst htarget
    rw [if_neg, if_neg]
    · simp [Dict.get_cons]
    · simp [Dict.get_cons]
  · simp only [Dict.keys, List.map_cons, List.map_nil, List.cons_append, List.nil_append, List.filter_cons,
      List.filter_nil, decide_true, if_true]
    have hstore : Dict.get [("store.json", store), ("workspace.json", old)] "store.json" = some store := rfl
    have hold : Dict.get [("store.json", store), ("workspace.json", old)] "workspace.json" = some old := rfl
    have hstore' : Dict.get [("store.json", store), ("workspace.json", new)] "store.json" = some store := rfl
    have hnew : Dict.get [("store.json", store), ("workspace.json", new)] "workspace.json" = some new := rfl
    simp [hstore, hold, hstore', hnew, h]

theorem sample_proposed {new : Digest} (body : Bytes)
    (h : sampleRules.sha256 (sampleWorkspace 0 "Work") ≠ new) :
    proposedFile sampleRules
      [⟨.replace, .authority, "workspace.json", some (sampleRules.sha256 (sampleWorkspace 0 "Work")), some new,
        some body⟩] sampleStart.file ⟨.authority, .artifact "workspace.json"⟩ = some body := by
  have hfile : sampleStart.file ⟨.authority, .artifact "workspace.json"⟩ = some (sampleWorkspace 0 "Work") := by
    simp [sampleStart_file]
  have hdigest : ¬(some (sampleWorkspace 0 "Work")).map sampleRules.sha256 = some new :=
    fun heq ↦ h (Option.some.inj heq)
  rw [proposedFile, List.find?_cons_of_pos (by simp [JournalTarget.location])]
  dsimp only
  rw [hfile, if_neg hdigest]

theorem sample_validPlan : ValidPlan sampleRules sampleRuntime sampleStart sampleBase samplePlan where
  roster := by
    have hartifact : isAuthorityArtifact sampleTarget.artifact = true := by decide
    have hpath : targetPath sampleRules sampleRuntime sampleTarget = .ok sampleTarget.location := by
      rw [targetPath]
      exact if_pos hartifact
    rw [samplePlan, sortedTargets_singleton, validateTargetRoster, if_neg]
    · apply forM_eq_ok.mpr
      intro target h
      rw [List.mem_singleton] at h
      rw [h, hpath]
      rfl
    · rw [sortedTargets_singleton]
      simp
  transition := by
    rw [samplePlan, sortedTargets_singleton]
    exact sample_transition _ sampleWorkspace_digest_ne
  journal := samplePlan_journal
  current target h := by
    rw [samplePlan, sortedTargets_singleton, List.mem_singleton] at h
    subst h
    simp [Disk.digest, JournalTarget.location, sampleStart_file, sampleTarget, sampleRules]
  proposed := by
    apply manifestOf_sample
    · simp [samplePlan, sortedTargets_singleton, proposedFile, sampleTarget, JournalTarget.location,
        sampleStart_file]
    · rw [samplePlan, sortedTargets_singleton]
      exact sample_proposed _ sampleWorkspace_digest_ne
    · decide
  decodes := rfl
  advances := sampleManifest_digest_ne

def sampleGeneration : Generation sampleRules sampleRuntime :=
  ⟨sampleStart, sampleBase, samplePlan, sample_validBase, sample_validPlan⟩

theorem sample_fits (phase : Phase) : ¬sampleGeneration.Oversized phase := by
  have hlength := sampleWorkspace_length
  have hsize : sampleRules.journalSize (sampleGeneration.journal phase) =
      1024 + ((sampleWorkspace 1 "Home").length + 0) := rfl
  rw [Generation.Oversized, hsize, maxJournalBytes]
  omega

/-- The session stops behind its durable journal, and the recovery renames the workspace. -/
theorem writeSession_crash_safe_sample : ∃ (events : List (Event (machine sampleRules))) (after : Disk),
    after.journal = none ∧
      (after.manifest = some samplePlan.proposedManifest ∧
          (∀ location, after.file location = sampleGeneration.goal location) ∨
        after.manifest = some sampleBase ∧ (∀ location, after.file location = sampleStart.file location) ∧
          ∀ o before, .own o before ∈ events → before.journal = none) ∧
      ∃ manifest, after.manifest = some manifest ∧
        manifestOf sampleRules manifest.generation after.authority = some manifest := by
  obtain ⟨events, q, hcrash⟩ := sampleGeneration.crash_journal
  have hpending := (Generation.untouched_start (G := sampleGeneration)).publish
  have hpassable : sampleGeneration.Passable .prepared
      { sampleGeneration.start with journal := some (sampleGeneration.journal .prepared), journalStage := none } :=
    ⟨(Generation.whole_congr fun _ ↦ rfl).mpr Generation.untouched_start.whole, sample_fits _,
      fun later _ ↦ sample_fits later⟩
  have hrecover := (Generation.InProgress.pending hpending).wp_crash_recover (I := fun _ ↦ True) (m := ())
    fun _ _ ↦ trivial
  rcases Command.run_cases hrecover with ⟨result, m, after, hrun, -⟩ | ⟨_, _, _, _, -, hfailed⟩
  · exact ⟨events, after, writeSession_crash_safe sampleRules sampleRuntime sampleGeneration events q _ _ after
      result hcrash (.none _) hrun⟩
  · exact absurd hpassable hfailed

end WorkStack.WriteSession
