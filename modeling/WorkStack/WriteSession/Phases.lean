import WorkStack.Effect.Reaches
import WorkStack.WriteSession.Generation

/-!
# The phases of a generation

Stage, apply, publish, finish: each phase of a session or a recovery is undisturbed here but may
crash at any of its steps, and every crash leaves one of the situations of the generation. A phase
fails in two cases only. A stage file that a crash cut short is refused, and a journal that fits into
the byte limit in its first phases may outgrow it in its last ones.
-/

namespace WorkStack.WriteSession

open Effect Effect.Outcome Python
open Store (Digest)

variable {R : SessionRules} {runtime : RuntimeAuthority}

variable {before after : Disk} {E : SessionError → Unit → Disk → Prop}

section Steps

variable {I : Disk → Prop} {disk : Disk} {m : Unit}

theorem wp_crash_step {o : DiskOp} {Q : o.Answer → Unit → Disk → Prop} :
    Command.wp (crashContract (machine R) I) (step o) Q E m disk ↔
      I disk ∧ Q (disk.perform R.sha256 o).1 m (disk.perform R.sha256 o).2 :=
  Command.wp_crash_perform (M := machine R) (S := diskSignature) o

/-- A step whose answer is known, in a longer command. -/
theorem wp_crash_step_bind {α : Type} {o : DiskOp} {f : o.Answer → SessionCommand α} {answer : o.Answer} {after : Disk}
    {Q : α → Unit → Disk → Prop} (hstep : disk.perform R.sha256 o = (answer, after)) (hI : I disk)
    (hrest : Command.wp (crashContract (machine R) I) (f answer) Q E m after) :
    Command.wp (crashContract (machine R) I) (step o >>= f) Q E m disk := by
  rw [Command.wp_bind, wp_crash_step, hstep]
  exact ⟨hI, hrest⟩

/-- Two disks with the same journal and manifest. -/
structure SameControl (before after : Disk) : Prop where
  journal : after.journal = before.journal
  journalStage : after.journalStage = before.journalStage
  manifest : after.manifest = before.manifest

/-- Two disks that differ in one file at most. -/
structure SameBut (location : Location) (before after : Disk) : Prop extends
    SameControl before after where
  files : ∀ other ≠ location, after.file other = before.file other

theorem SameControl.refl (disk : Disk) : SameControl disk disk := ⟨rfl, rfl, rfl⟩

theorem SameControl.trans {first second third : Disk} (h : SameControl first second)
    (h' : SameControl second third) : SameControl first third :=
  ⟨h'.journal.trans h.journal, h'.journalStage.trans h.journalStage, h'.manifest.trans h.manifest⟩

theorem SameBut.refl (location : Location) (disk : Disk) : SameBut location disk disk :=
  ⟨.refl disk, fun _ _ ↦ rfl⟩

variable {location : Location}

theorem SameBut.write (h : SameBut location before after) (body : Bytes) :
    SameBut location before (after.write location body) := by
  refine ⟨⟨h.journal, h.journalStage, h.manifest⟩, fun other hother ↦ ?_⟩
  rw [Disk.file_write, if_neg (Ne.symm hother)]
  exact h.files other hother

theorem SameBut.remove (h : SameBut location before after) :
    SameBut location before (after.remove location) := by
  refine ⟨⟨h.journal, h.journalStage, h.manifest⟩, fun other hother ↦ ?_⟩
  rw [Disk.file_remove, if_neg (Ne.symm hother)]
  exact h.files other hother

/-! ## Stage files -/

/-- The refusal of a stage file that a crash cut short. -/
abbrev cutShort : SessionError := .refused "STAGE_FILE_CONFLICT" ""

/-- The refusal of a journal that has outgrown its limit. -/
abbrev tooLong : SessionError := .refused "JOURNAL_BYTE_LIMIT_EXCEEDED" ""

/-- Writing the bytes passes through every beginning of them. -/
theorem wp_crash_appendBytes {before : Disk} (body written : Bytes)
    (hI : ∀ after, SameBut location before after → I after) (hsame : SameBut location before disk)
    (hfile : disk.file location = some written) :
    Command.wp (crashContract (machine R) I)
      (Command.fold (fun _ byte ↦ step (.appendByte location byte)) body () : SessionCommand Unit)
      (fun _ _ after ↦ SameBut location before after ∧ after.file location = some (written ++ body))
      (fun _ _ _ ↦ False) m disk := by
  induction body generalizing disk written with
  | nil => exact ⟨hsame, by rw [hfile, List.append_nil]⟩
  | cons byte body ih =>
      have hstep : disk.perform R.sha256 (.appendByte location byte) =
          ((), disk.write location (written ++ [byte])) := by
        simp [Disk.perform, hfile]
      rw [Command.fold]
      apply wp_crash_step_bind hstep (hI _ hsame)
      have hfile' : (disk.write location (written ++ [byte])).file location = some (written ++ [byte]) := by
        simp
      have hrest := ih (written ++ [byte]) (hsame.write _) hfile'
      rwa [List.append_assoc] at hrest

/-- A stage file that is missing or whole. -/
def WholeStage (R : SessionRules) (disk : Disk) (location : Location) (body : Bytes) : Prop :=
  ∀ digest, disk.digest R.sha256 location = some digest → digest = R.sha256 body

theorem wp_crash_writeStage {body : Bytes} (hI : ∀ after, SameBut location disk after → I after) :
    Command.wp (crashContract (machine R) I) (writeStage R location body)
      (fun _ _ after ↦ SameBut location disk after ∧ after.file location = some body ∧
        WholeStage R disk location body)
      (fun error _ after ↦ after = disk ∧ error = cutShort ∧
        ¬WholeStage R disk location body) m disk := by
  have hhere : I disk := hI disk (.refl _ _)
  have hcreate : ∀ before, SameBut location disk before → before.file location = none →
      WholeStage R disk location body →
      Command.wp (crashContract (machine R) I) (do
        let created : Bool ← step (.createFile location)
        if created then
          Command.fold (fun _ byte ↦ step (.appendByte location byte)) body ()
          let written ← fileDigest R location
          if written ≠ some (R.sha256 body) then stop "TARGET_STAGE_VERIFICATION_FAILED" else pure ()
        else stop "TARGET_STAGE_FAILED")
      (fun _ _ after ↦ SameBut location disk after ∧ after.file location = some body ∧
        WholeStage R disk location body)
      (fun error _ after ↦ after = disk ∧ error = cutShort ∧
        ¬WholeStage R disk location body) m before := by
    intro before hsame hnone hwhole
    have hstep : before.perform R.sha256 (.createFile location) = (true, before.write location []) := by
      simp [Disk.perform, hnone]
    apply wp_crash_step_bind hstep (hI _ hsame)
    rw [if_pos rfl]
    apply Command.wp_seq (wp_crash_appendBytes body [] hI (hsame.write []) (by simp))
    · intro _ _ after hafter
      rw [List.nil_append] at hafter
      apply (observes_fileDigest location).wp_crash_bind (hI _ hafter.1)
      rw [Disk.digest, hafter.2, if_neg (by simp)]
      exact ⟨hafter.1, hafter.2, hwhole⟩
    · intro _ _ _ hfalse
      exact hfalse.elim
  rw [writeStage]
  apply (observes_fileDigest location).wp_crash_bind hhere
  cases hdigest : disk.digest R.sha256 location with
  | none =>
      apply hcreate disk (.refl _ _)
      · rwa [Disk.digest, Option.map_eq_none_iff] at hdigest
      · intro digest hsome
        rw [hdigest] at hsome
        cases hsome
  | some digest =>
      by_cases hbody : digest = R.sha256 body
      · have hwhole : WholeStage R disk location body := by
          intro other hother
          rw [hdigest] at hother
          exact (Option.some.inj hother).symm.trans hbody
        dsimp only
        rw [if_neg (not_not.mpr hbody)]
        have hstep : disk.perform R.sha256 (.unlinkFile location) =
            ((disk.file location).isSome, disk.remove location) := rfl
        apply wp_crash_step_bind hstep hhere
        exact hcreate _ (SameBut.refl _ _).remove (by simp) hwhole
      · dsimp only
        rw [if_pos hbody]
        refine ⟨rfl, rfl, fun hwhole ↦ hbody (hwhole digest hdigest)⟩

end Steps

namespace Generation

variable (G : Generation R runtime)

/-- The stage file of a target, if there is one, holds the proposed bytes. -/
def WholeTarget (disk : Disk) (target : JournalTarget) : Prop :=
  ∀ body, target.proposedBytes = some body → WholeStage R disk (G.stage target) body

/-- No stage file that a recovery has to write anew is cut short. -/
def Whole (disk : Disk) : Prop := ∀ target ∈ G.targets, Awaits (R := R) disk target → G.WholeTarget disk target

/-- The loop of `_stage_targets`, with the targets that are still to come. -/
structure Staging (before : Disk) (items : List JournalTarget) (stages : Stages) (after : Disk) : Prop
    extends SameControl before after where
  artifacts : ∀ scope path, after.file ⟨scope, .artifact path⟩ = before.file ⟨scope, .artifact path⟩
  mixed : G.Mixed after
  owners : ∀ entry ∈ stages, entry.1 ∉ items ∧ entry.2 = G.stage entry.1
  staged : ∀ target ∈ G.targets, target ∉ items → Awaits (R := R) after target →
    stages.lookup target = some (G.stage target) ∧
      after.file (G.stage target) = target.proposedBytes ∧ G.WholeTarget before target
  rest : ∀ target ∈ items, after.file (G.stage target) = before.file (G.stage target)

variable {G} {I : Disk → Prop} {disk : Disk} {m : Unit}

theorem awaits_congr {target : JournalTarget} (h : after.file target.location = before.file target.location) :
    Awaits (R := R) after target ↔ Awaits (R := R) before target := by
  rw [Awaits, Awaits, Disk.digest_congr h]

variable {items : List JournalTarget} {stages : Stages}

theorem Staging.awaits (h : G.Staging before items stages after) (target : JournalTarget) :
    Awaits (R := R) after target ↔ Awaits (R := R) before target :=
  awaits_congr (h.artifacts target.scope target.artifact)

variable {item : JournalTarget}

/-- A target that needs no stage file is passed over. -/
theorem Staging.skip (h : G.Staging before (item :: items) stages after) (hitem : ¬Awaits (R := R) after item) :
    G.Staging before items stages after := by
  refine ⟨h.toSameControl, h.artifacts, h.mixed, fun entry hentry ↦ ⟨fun hmem ↦
    (h.owners entry hentry).1 (List.mem_cons_of_mem _ hmem), (h.owners entry hentry).2⟩,
    fun target htarget hnot hawaits ↦ ?_,
    fun target hmem ↦ h.rest target (List.mem_cons_of_mem _ hmem)⟩
  apply h.staged target htarget _ hawaits
  intro hmem
  rcases List.mem_cons.mp hmem with rfl | hmem
  · exact hitem hawaits
  · exact hnot hmem

theorem Staging.push {before after written : Disk} (h : G.Staging before (item :: items) stages after)
    (hitem : item ∈ G.targets) (hitems : items ⊆ G.targets) (hfresh : item ∉ items)
    (hawaits : Awaits (R := R) after item) (hsame : SameBut (G.stage item) after written)
    (hfile : written.file (G.stage item) = item.proposedBytes) (hwhole : G.WholeTarget before item) :
    G.Staging before items (stages ++ [(item, G.stage item)]) written := by
  have hartifact : ∀ scope path, written.file ⟨scope, .artifact path⟩ = after.file ⟨scope, .artifact path⟩ :=
    fun scope path ↦ hsame.files _ (by simp [stage, stageLocation])
  have hstages : ∀ target ∈ G.targets, target ≠ item →
      written.file (G.stage target) = after.file (G.stage target) :=
    fun target htarget hne ↦ hsame.files _ fun heq ↦ hne (G.eq_of_stage htarget hitem heq)
  refine ⟨h.toSameControl.trans hsame.toSameControl, fun scope path ↦
    (hartifact scope path).trans (h.artifacts scope path), h.mixed.of_stage hitem hawaits hsame.files,
    ?_, ?_, ?_⟩
  · intro entry hentry
    rcases List.mem_append.mp hentry with hentry | hentry
    · have howner := h.owners entry hentry
      exact ⟨fun hmem ↦ howner.1 (List.mem_cons_of_mem _ hmem), howner.2⟩
    · rw [List.mem_singleton] at hentry
      subst hentry
      exact ⟨hfresh, rfl⟩
  · intro target htarget hnot hwaits
    by_cases heq : target = item
    · subst heq
      have hnone : stages.lookup target = none := by
        rw [List.lookup_eq_none_iff]
        intro entry hentry
        apply bne_iff_ne.mpr
        intro hkey
        exact (h.owners entry hentry).1 (hkey ▸ List.mem_cons_self ..)
      exact ⟨by simp [List.lookup_append, hnone], hfile, hwhole⟩
    · have hold : Awaits (R := R) after target :=
        (awaits_congr (hartifact target.scope target.artifact)).mp hwaits
      obtain ⟨hlookup, hold, hwhole⟩ := h.staged target htarget (by simp [heq, hnot]) hold
      exact ⟨by simp [List.lookup_append, hlookup], (hstages target htarget heq).trans hold, hwhole⟩
  · intro target hmem
    have hne : target ≠ item := fun heq ↦ hfresh (heq ▸ hmem)
    rw [hstages target (hitems hmem) hne]
    exact h.rest target (List.mem_cons_of_mem _ hmem)

variable {phase : Phase}

theorem wp_crash_stageTarget (hI : ∀ after, SameControl before after → G.Mixed after → I after)
    (hitem : item ∈ G.targets) (hitems : items ⊆ G.targets) (hfresh : item ∉ items)
    (h : G.Staging before (item :: items) stages after) :
    Command.wp (crashContract (machine R) I)
      (stageTarget R runtime (G.journal phase) stages item)
      (fun stages _ after ↦ G.Staging before items stages after)
      (fun error _ after ↦ (SameControl before after ∧ G.Mixed after) ∧
        error = cutShort ∧ ¬G.Whole before) m after := by
  have hhere : I after := hI after h.toSameControl h.mixed
  rw [stageTarget, G.targetPath_eq hitem]
  apply Command.Observes.wp_crash_bind (.ofExcept _) hhere
  apply (observes_fileDigest _).wp_crash_bind hhere
  by_cases hproposed : after.digest R.sha256 item.location = item.proposedDigest
  · rw [if_pos hproposed]
    exact h.skip fun hawaits ↦ hawaits.2 hproposed
  · rw [if_neg hproposed]
    cases haction : item.action with
    | delete =>
        rw [if_pos rfl]
        exact h.skip fun hawaits ↦ nomatch haction.symm.trans hawaits.1
    | replace =>
        rw [if_neg (by decide)]
        have hawaits : Awaits (R := R) after item := ⟨haction, hproposed⟩
        obtain ⟨body, hbody⟩ := Option.isSome_iff_exists.mp ((G.target_spec hitem).2.2 haction)
        have hrest := h.rest item (List.mem_cons_self ..)
        have hwhole : WholeStage R after (G.stage item) body ↔ WholeStage R before (G.stage item) body := by
          rw [WholeStage, WholeStage, Disk.digest_congr hrest]
        rw [hbody]
        dsimp only
        apply Command.wp_seq (wp_crash_writeStage ?_)
        · intro _ _ written ⟨hsame, hfile, hstage⟩
          apply h.push hitem hitems hfresh hawaits hsame (hfile.trans hbody.symm)
          intro other hother
          cases hbody.symm.trans hother
          exact hwhole.mp hstage
        · intro error _ written ⟨hwritten, herror, hstage⟩
          subst hwritten
          refine ⟨⟨h.toSameControl, h.mixed⟩, herror, fun hall ↦ hstage (hwhole.mpr ?_)⟩
          exact hall item hitem ((h.awaits item).mp hawaits) body hbody
        · intro written hsame
          exact hI written (h.toSameControl.trans hsame.toSameControl)
            (h.mixed.of_stage hitem hawaits hsame.files)

theorem wp_crash_stageTargets {before : Disk} (hI : ∀ after, SameControl before after → G.Mixed after → I after)
    (h : G.Mixed before) :
    Command.wp (crashContract (machine R) I) (stageTargets R runtime (G.journal phase))
      (fun stages _ after ↦ G.Staging before [] stages after)
      (fun error _ after ↦ (SameControl before after ∧ G.Mixed after) ∧
        error = cutShort ∧ ¬G.Whole before) m before := by
  have hloop := Command.wp_fold (M := machine R) (C := crashContract (machine R) I) (m := m) (w := before)
    (stageTarget R runtime (G.journal phase))
    (I := fun items stages _ after ↦ (items.Nodup ∧ items ⊆ G.targets) ∧ G.Staging before items stages after)
    (R := fun error _ after ↦ (SameControl before after ∧ G.Mixed after) ∧
        error = cutShort ∧ ¬G.Whole before) ?_ G.targets []
    ⟨⟨G.nodup_targets, List.Subset.refl _⟩, .refl before, fun _ _ ↦ rfl, h, by simp, fun _ hmem hnot ↦
      absurd hmem hnot, fun _ _ ↦ rfl⟩
  · exact Command.wp_mono hloop (fun _ _ _ hstaging ↦ hstaging.2) fun _ _ _ herror ↦ herror
  · intro stages item items _ after ⟨⟨hnodup, hsubset⟩, hstaging⟩
    rw [List.nodup_cons] at hnodup
    rw [List.cons_subset] at hsubset
    apply Command.wp_mono (wp_crash_stageTarget hI hsubset.1 hsubset.2 hnodup.1 hstaging)
    · exact fun _ _ _ hnext ↦ ⟨⟨hnodup.2, hsubset.2⟩, hnext⟩
    · exact fun _ _ _ herror ↦ herror

/-! ## Applying the targets -/

/-- The loop of `_apply_stages`, with the targets that are still to come. -/
structure Applying (before : Disk) (stages : Stages) (items : List JournalTarget) (after : Disk) : Prop
    extends SameControl before after where
  mixed : G.Mixed after
  staged : ∀ target ∈ items, Awaits (R := R) after target →
    stages.lookup target = some (G.stage target) ∧ after.file (G.stage target) = target.proposedBytes
  applied : ∀ target ∈ G.targets, target ∉ items →
    after.digest R.sha256 target.location = target.proposedDigest

theorem Applying.next {before after other : Disk} (h : G.Applying before stages (item :: items) after)
    (hitems : items ⊆ G.targets) (hfresh : item ∉ items) (hcontrol : SameControl after other) (hmixed : G.Mixed other)
    (hproposed : other.digest R.sha256 item.location = item.proposedDigest)
    (hfiles : ∀ target ∈ G.targets, target ≠ item → other.file target.location = after.file target.location ∧
      other.file (G.stage target) = after.file (G.stage target)) :
    G.Applying before stages items other := by
  refine ⟨h.toSameControl.trans hcontrol, hmixed, fun target hmem hawaits ↦ ?_,
    fun target htarget hnot ↦ ?_⟩
  · have hne : target ≠ item := fun heq ↦ hfresh (heq ▸ hmem)
    obtain ⟨hlocation, hstage⟩ := hfiles target (hitems hmem) hne
    rw [hstage]
    exact h.staged target (List.mem_cons_of_mem _ hmem) ((awaits_congr hlocation).mp hawaits)
  · by_cases heq : target = item
    · rwa [heq]
    · rw [Disk.digest_congr (hfiles target htarget heq).1]
      exact h.applied target htarget (by simp [heq, hnot])

/-- One turn of the loop finds its target applied already, or applies it. -/
theorem Applying.perform (h : G.Applying before stages (item :: items) after) (hitem : item ∈ G.targets)
    (hitems : items ⊆ G.targets) (hfresh : item ∉ items) :
    ∃ applied other, after.applyTarget R.sha256 item (stages.lookup item) = (applied, other) ∧
      (applied = .already ∨ applied = .deleted ∨ applied = .replaced) ∧
      G.Applying before stages items other := by
  have hspec := G.target_spec hitem
  rcases h.mixed.target_cases hitem with ⟨hproposed, -⟩ | ⟨hproposed, hexpected, hgoal⟩
  · refine ⟨.already, after, if_pos hproposed, .inl rfl, ?_⟩
    exact h.next hitems hfresh (.refl after) h.mixed hproposed fun _ _ _ ↦ ⟨rfl, rfl⟩
  · unfold Disk.applyTarget
    dsimp only
    rw [if_neg hproposed, if_neg (not_not.mpr hexpected)]
    cases haction : item.action with
    | delete =>
        obtain ⟨hsome, hnone⟩ := hspec.2.1 haction
        have hpresent : (after.file item.location).isSome := by
          rw [← hexpected, Disk.digest] at hsome
          exact Option.isSome_iff_ne_none.mpr fun hfile ↦ hsome (by rw [hfile]; rfl)
        dsimp only
        rw [if_pos hpresent]
        have hremoved : (after.remove item.location).file item.location = G.goal item.location := by
          rw [Disk.file_remove, if_pos rfl, hgoal, hnone]
        refine ⟨.deleted, _, rfl, .inr (.inl rfl), h.next hitems hfresh ⟨rfl, rfl, rfl⟩ ?_ ?_ ?_⟩
        · apply h.mixed.of_applied hitem hremoved (fun hreplace ↦ absurd (haction.symm.trans hreplace) (by decide))
          intro location hne
          rw [Disk.file_remove, if_neg (Ne.symm hne)]
          exact .inl rfl
        · rw [Disk.digest, hremoved]
          exact G.goal_digest hitem
        · intro target htarget hne
          have hlocation : item.location ≠ target.location := fun heq ↦
            hne (G.eq_of_location htarget hitem heq.symm)
          rw [Disk.file_remove, if_neg hlocation, Disk.file_remove,
            if_neg (G.stage_ne_location target item).symm]
          exact ⟨rfl, rfl⟩
    | replace =>
        obtain ⟨hlookup, hstage⟩ := h.staged item (List.mem_cons_self ..) ⟨haction, hproposed⟩
        obtain ⟨body, hbody⟩ := Option.isSome_iff_exists.mp (hspec.2.2 haction)
        have hdigest : after.digest R.sha256 (G.stage item) = item.proposedDigest := by
          rw [Disk.digest, hstage]
          exact hspec.1
        rw [hlookup]
        dsimp only
        rw [if_neg (not_not.mpr hdigest), hstage, hbody]
        dsimp only
        have hwritten : ((after.remove (G.stage item)).write item.location body).file item.location =
            G.goal item.location := by
          rw [Disk.file_write, if_pos rfl, hgoal, hbody]
        refine ⟨.replaced, _, rfl, .inr (.inr rfl), h.next hitems hfresh ⟨rfl, rfl, rfl⟩ ?_ ?_ ?_⟩
        · apply h.mixed.of_applied hitem hwritten
          · intro _
            rw [Disk.file_write, if_neg (G.stage_ne_location item item).symm, Disk.file_remove, if_pos rfl]
          · intro location hother
            rw [Disk.file_write, if_neg (Ne.symm hother), Disk.file_remove]
            split
            · exact .inr ⟨Eq.symm ‹_›, rfl⟩
            · exact .inl rfl
        · rw [Disk.digest, hwritten]
          exact G.goal_digest hitem
        · intro target htarget hother
          have hlocation : item.location ≠ target.location := fun heq ↦
            hother (G.eq_of_location htarget hitem heq.symm)
          have hstages : G.stage item ≠ G.stage target := fun heq ↦
            hother (G.eq_of_stage htarget hitem heq.symm)
          rw [Disk.file_write, if_neg hlocation, Disk.file_remove, if_neg (G.stage_ne_location item target),
            Disk.file_write, if_neg (G.stage_ne_location target item).symm, Disk.file_remove, if_neg hstages]
          exact ⟨rfl, rfl⟩

theorem mixed_of_goal (h : ∀ location, disk.file location = G.goal location) : G.Mixed disk := by
  refine ⟨fun _ _ ↦ .inr (h _), fun scope path suffix hsome ↦ ?_⟩
  rw [h, G.goal_stage] at hsome
  cases hsome

theorem wp_crash_applyStages (hI : ∀ after, SameControl before after → G.Mixed after → I after)
    (h : G.Applying before stages G.targets after) :
    Command.wp (crashContract (machine R) I) (applyStages R runtime (G.journal phase) G.base stages)
      (fun _ _ after ↦ SameControl before after ∧ ∀ location, after.file location = G.goal location)
      (fun _ _ _ ↦ False) m after := by
  have hloop := Command.wp_fold (M := machine R) (C := crashContract (machine R) I) (m := m) (w := after)
    (applyTarget R runtime (G.journal phase) G.base stages)
    (I := fun items _ _ after ↦ (items.Nodup ∧ items ⊆ G.targets) ∧ G.Applying before stages items after)
    (R := fun _ _ _ ↦ False) ?_ G.targets () ⟨⟨G.nodup_targets, List.Subset.refl _⟩, h⟩
  · apply Command.wp_mono hloop
    · intro _ _ after hdone
      exact ⟨hdone.2.toSameControl, hdone.2.mixed.goal fun target htarget ↦
        hdone.2.applied target htarget List.not_mem_nil⟩
    · exact fun _ _ _ hfalse ↦ hfalse
  · intro _ item items _ current ⟨⟨hnodup, hsubset⟩, hcurrent⟩
    rw [List.nodup_cons] at hnodup
    rw [List.cons_subset] at hsubset
    obtain ⟨applied, other, hperform, hcases, hnext⟩ :=
      hcurrent.perform hsubset.1 hsubset.2 hnodup.1
    have hhere : I current := hI current hcurrent.toSameControl hcurrent.mixed
    have hother : I other := hI other hnext.toSameControl hnext.mixed
    have hverify : ∀ m, Command.wp (crashContract (machine R) I)
        (verifyRecoveryState R runtime (G.journal phase) G.base)
        (fun _ _ after ↦ (items.Nodup ∧ items ⊆ G.targets) ∧ G.Applying before stages items after)
        (fun _ _ _ ↦ False) m other := fun m ↦
      (hnext.mixed.recoverable phase).observes.wp_crash hother (fun _ _ ↦ ⟨⟨hnodup.2, hsubset.2⟩, hnext⟩)
        fun _ herror ↦ nomatch herror
    rw [applyTarget, G.targetPath_eq hsubset.1]
    apply Command.Observes.wp_crash_bind (.ofExcept _) hhere
    apply wp_crash_step_bind (o := .applyTarget item (stages.lookup item)) hperform hhere
    rcases hcases with rfl | rfl | rfl
    · exact ⟨⟨hnodup.2, hsubset.2⟩, hnext⟩
    · exact hverify _
    · exact hverify _

theorem wp_crash_cleanupStages (hI : ∀ after, SameControl before after → G.Mixed after → I after)
    (howners : ∀ entry ∈ stages, entry.2 = G.stage entry.1) (hcontrol : SameControl before after)
    (hfiles : ∀ location, after.file location = G.goal location) :
    Command.wp (crashContract (machine R) I) (cleanupStages stages)
      (fun _ _ after ↦ SameControl before after ∧ ∀ location, after.file location = G.goal location)
      (fun _ _ _ ↦ False) m after := by
  induction stages generalizing after m with
  | nil => exact ⟨hcontrol, hfiles⟩
  | cons entry stages ih =>
      have hstep : after.perform R.sha256 (.unlinkFile entry.2) =
          ((after.file entry.2).isSome, after.remove entry.2) := rfl
      have hremoved : ∀ location, (after.remove entry.2).file location = G.goal location := by
        intro location
        rw [Disk.file_remove]
        split
        · rename_i heq
          rw [← heq, howners entry (List.mem_cons_self ..)]
          exact (G.goal_stage _ _ _).symm
        · exact hfiles location
      rw [cleanupStages, Command.fold]
      rw [Command.wp_bind]
      apply wp_crash_step_bind hstep (hI after hcontrol (mixed_of_goal hfiles))
      exact ih (fun other h ↦ howners other (List.mem_cons_of_mem _ h)) (hcontrol.trans ⟨rfl, rfl, rfl⟩)
        hremoved

/-- The targets are applied, unless a stage file was cut short before. -/
theorem wp_crash_applyTargets {before : Disk} (hI : ∀ after, SameControl before after → G.Mixed after → I after)
    (h : G.Mixed before) :
    Command.wp (crashContract (machine R) I) (applyTargets R runtime (G.journal phase) G.base)
      (fun _ _ after ↦ (SameControl before after ∧ ∀ location, after.file location = G.goal location) ∧
        G.Whole before)
      (fun error _ after ↦ (SameControl before after ∧ G.Mixed after) ∧
        error = cutShort ∧ ¬G.Whole before) m before := by
  rw [applyTargets]
  apply Command.wp_seq (wp_crash_stageTargets hI h)
  · intro stages m staged hstaging
    have hwhole : G.Whole before := fun target htarget hawaits ↦
      (hstaging.staged target htarget List.not_mem_nil ((hstaging.awaits target).mpr hawaits)).2.2
    have happlying : G.Applying before stages G.targets staged := by
      refine ⟨hstaging.toSameControl, hstaging.mixed, fun target htarget hawaits ↦ ?_,
        fun target htarget hnot ↦ absurd htarget hnot⟩
      obtain ⟨hlookup, hfile, -⟩ := hstaging.staged target htarget List.not_mem_nil hawaits
      exact ⟨hlookup, hfile⟩
    rw [Command.wp_bind, Command.wp_catching]
    apply Command.wp_mono (wp_crash_applyStages hI happlying)
    · intro _ m after hafter
      apply Command.wp_mono (wp_crash_cleanupStages hI
        (fun entry hentry ↦ (hstaging.owners entry hentry).2) hafter.1 hafter.2)
      · exact fun _ _ _ hdone ↦ ⟨hdone, hwhole⟩
      · exact fun _ _ _ hfalse ↦ hfalse.elim
    · exact fun _ _ _ hfalse ↦ hfalse.elim
  · exact fun _ _ _ herror ↦ herror

/-! ## The journal -/

/-- The journal outgrows its byte limit in this phase. -/
def Oversized (phase : Phase) : Prop := maxJournalBytes < R.journalSize (G.journal phase)

theorem observes_persisted (h : disk.journal = some (G.journal phase)) :
    Command.Observes (machine R) disk (readJournal R) m (if maxJournalBytes < R.journalSize (G.journal phase)
      then .error (.refused "JOURNAL_BYTE_LIMIT_EXCEEDED" "") else .ok (some (G.journal phase))) m := by
  have hparse := parseWriteJournal_eq (G.validJournal phase)
  split
  · rename_i hsize
    rw [if_pos hsize] at hparse
    apply Command.Observes.bind observes_journal
    rw [h]
    have hadmit : Command.Observes (machine R) disk (admitted (parseWriteJournal R (G.journal phase))) m
        (.error (.refused "JOURNAL_BYTE_LIMIT_EXCEEDED" "")) m := by
      rw [hparse]
      exact .ofExcept _
    exact hadmit.bind_error
  · rename_i hsize
    rw [if_neg hsize] at hparse
    exact observes_readJournal h hparse

/-- A step whose answer is known, before the point of no return. -/
theorem reaches_step_bind {α : Type} {I J : Disk → Prop} {o : DiskOp} {f : o.Answer → SessionCommand α}
    {answer : o.Answer} {after : Disk} {Q : α → Unit → Disk → Prop} (hstep : disk.perform R.sha256 o = (answer, after))
    (hI : I disk) (hrest : Command.Reaches (machine R) I J (f answer) Q E m after) :
    Command.Reaches (machine R) I J (step o >>= f) Q E m disk := by
  apply Command.Reaches.perform hI
  change Command.Reaches (machine R) I J (f (disk.perform R.sha256 o).1) Q E m
    (disk.perform R.sha256 o).2
  rwa [hstep]

/-- Publishing a phase of the journal either fails because of its size or leaves nothing behind. The
replacement of the journal is its point of no return. -/
theorem reaches_publishJournal {I J : Disk → Prop} {expected : Option Digest}
    (hexpected : disk.journal.map R.journalDigest = expected) (hstage : expected = none → disk.journalStage = none)
    (hbefore : ∀ journalStage, I { disk with journalStage })
    (hafter : J { disk with journal := some (G.journal phase), journalStage := none }) :
    Command.Reaches (machine R) I J (publishJournal R (G.journal phase) expected)
      (fun _ _ after ↦ after = { disk with journal := some (G.journal phase), journalStage := none } ∧
        ¬G.Oversized phase)
      (fun error _ after ↦ after = { disk with journal := some (G.journal phase), journalStage := none } ∧
        error = tooLong ∧ G.Oversized phase) m disk := by
  have hcreate : ∀ m, Command.Reaches (machine R) I J (publishCreated R (G.journal phase) expected)
      (fun _ _ after ↦ after = { disk with journal := some (G.journal phase), journalStage := none } ∧
        ¬G.Oversized phase)
      (fun error _ after ↦ after = { disk with journal := some (G.journal phase), journalStage := none } ∧
        error = tooLong ∧ G.Oversized phase)
      m { disk with journalStage := none } := by
    intro m
    have hcreated : Disk.perform R.sha256 .createJournalStage { disk with journalStage := none } =
        (true, { disk with journalStage := some none }) := rfl
    have hwritten : Disk.perform R.sha256 (.writeJournalStage (G.journal phase))
        { disk with journalStage := some none } =
          ((), { disk with journalStage := some (some (G.journal phase)) }) := rfl
    have hreplaced : Disk.perform R.sha256 .replaceJournal
        { disk with journalStage := some (some (G.journal phase)) } =
          (true, { disk with journal := some (G.journal phase), journalStage := none }) := rfl
    have hcleaned : Disk.perform R.sha256 .unlinkJournalStage
        { disk with journal := some (G.journal phase), journalStage := none } =
          ((), { disk with journal := some (G.journal phase), journalStage := none }) := rfl
    rw [publishCreated]
    apply reaches_step_bind hcreated (hbefore none)
    rw [if_neg (by decide)]
    apply reaches_step_bind hwritten (hbefore _)
    apply Command.Reaches.observes observes_journalFileDigest (hbefore _)
    rw [if_neg (not_not.mpr hexpected)]
    apply reaches_step_bind hreplaced (hbefore _)
    apply Command.Reaches.of_wp
    rw [if_neg (by decide)]
    apply wp_crash_step_bind hcleaned hafter
    rw [Command.wp_bind]
    apply Command.Observes.wp_crash (observes_persisted rfl) hafter
    · intro persisted hpersisted
      split at hpersisted
      · cases hpersisted
      · cases hpersisted
        dsimp only
        rw [if_neg (not_not.mpr rfl)]
        exact ⟨rfl, ‹_›⟩
    · intro error herror
      split at herror
      · cases herror
        exact ⟨rfl, rfl, ‹_›⟩
      · cases herror
  have hhere : I disk := hbefore disk.journalStage
  rw [publishJournal]
  apply Command.Reaches.observes observes_journalFileDigest hhere
  rw [if_neg (not_not.mpr hexpected)]
  apply Command.Reaches.observes observes_journalStageExists hhere
  cases hpresent : disk.journalStage with
  | none =>
      have hdisk : disk = { disk with journalStage := none } := by rw [← hpresent]
      rw [if_neg (by decide)]
      rw [hdisk]
      exact hcreate m
  | some content =>
      have hpublished : expected ≠ none := by
        intro hnone
        rw [hstage hnone] at hpresent
        cases hpresent
      dsimp only [Option.isSome_some]
      rw [if_pos rfl, if_neg hpublished]
      have hremoved : disk.perform R.sha256 .unlinkJournalStage = ((), { disk with journalStage := none }) :=
        rfl
      exact reaches_step_bind hremoved hhere (hcreate m)

theorem wp_crash_advanceJournal {phase next : Phase} (hphase : phase.index ≤ next.index)
    (hjournal : disk.journal = some (G.journal phase))
    (hbefore : ∀ journalStage, I { disk with journalStage := journalStage })
    (hafter : I { disk with journal := some (G.journal next), journalStage := none }) :
    Command.wp (crashContract (machine R) I) (advanceJournal R (G.journal phase) next)
      (fun journal _ after ↦ journal = G.journal next ∧
        after = { disk with journal := some (G.journal next), journalStage := none } ∧ ¬G.Oversized next)
      (fun error _ after ↦ after = { disk with journal := some (G.journal next), journalStage := none } ∧
        error = tooLong ∧ G.Oversized next) m disk := by
  have hadvance : advanceJournalPhase R (G.journal phase) next = .ok (G.journal next) :=
    advanceJournalPhase_eq (G.validJournal phase) hphase
  rw [advanceJournal, hadvance]
  apply Command.Observes.wp_crash_bind (.ofExcept _) (hbefore disk.journalStage)
  have hexpected : disk.journal.map R.journalDigest = some (R.journalDigest (G.journal phase)) := by
    rw [hjournal]
    rfl
  have hstage : some (R.journalDigest (G.journal phase)) = none → disk.journalStage = none :=
    fun hnone ↦ nomatch hnone
  apply Command.wp_seq ((reaches_publishJournal hexpected hstage hbefore hafter).wp_crash
    (fun _ h ↦ h) fun _ h ↦ h)
  · intro _ _ _ ⟨hpublished, hsize⟩
    exact ⟨rfl, hpublished, hsize⟩
  · exact fun _ _ _ herror ↦ herror

/-! ## Publication -/

/-- No phase after this one outgrows the byte limit. -/
def FitsAfter (G : Generation R runtime) (phase : Phase) : Prop :=
  ∀ later : Phase, phase.index < later.index → ¬G.Oversized later

theorem Published.setJournalStage (h : G.Published phase disk) (hphase : phase ≠ .generationPublished)
    (journalStage : Option (Option Journal)) :
    G.Published phase { disk with journalStage } :=
  ⟨h.late, h.journal, fun hpublished ↦ absurd hpublished hphase, h.manifest, h.files⟩

theorem Published.advance {phase next : Phase} (h : G.Published phase disk) (hnext : next ≠ .prepared) :
    G.Published next { disk with journal := some (G.journal next), journalStage := none } :=
  ⟨hnext, rfl, fun _ ↦ rfl, h.manifest, h.files⟩

theorem Published.wp_crash_reachPhase {phase next : Phase} (h : G.Published phase disk)
    (hnext : next ≠ .prepared) (hI : ∀ after, G.Durable after → I after) :
    Command.wp (crashContract (machine R) I) (reachPhase R (G.journal phase) next)
      (fun journal _ after ↦ ∃ reached, reached.index = max phase.index next.index ∧
        journal = G.journal reached ∧ G.Published reached after ∧
        (phase.index < next.index → ¬G.Oversized next))
      (fun error _ after ↦ G.Durable after ∧ error = tooLong ∧ phase.index < next.index ∧
        G.Oversized next) m disk := by
  rw [reachPhase, G.journal_phase]
  by_cases hphase : phase.index < next.index
  · have hearly : phase ≠ .generationPublished := by
      rintro rfl
      cases next <;> simp [Phase.index] at hphase
    have hadvanced := h.advance hnext
    rw [if_pos hphase]
    apply Command.wp_mono (wp_crash_advanceJournal hphase.le h.journal
      (fun journalStage ↦ hI _ (.published phase (h.setJournalStage hearly journalStage)))
      (hI _ (.published next hadvanced)))
    · intro _ _ after ⟨hjournal, hafter, hsize⟩
      subst hafter
      exact ⟨next, by omega, hjournal, hadvanced, fun _ ↦ hsize⟩
    · intro _ _ after ⟨hafter, herror, hsize⟩
      subst hafter
      exact ⟨.published next hadvanced, herror, hphase, hsize⟩
  · rw [if_neg hphase]
    exact ⟨phase, by omega, rfl, h, fun hlt ↦ absurd hlt hphase⟩

theorem Phase.index_injective {left right : Phase} (h : left.index = right.index) : left = right := by
  cases left <;> cases right <;> first | rfl | cases h

theorem Published.wp_crash_removeJournal (h : G.Published .generationPublished disk)
    (hI : ∀ after, G.Durable after → I after) :
    Command.wp (crashContract (machine R) I) (removeJournal R (G.journal .generationPublished))
      (fun _ _ after ↦ G.Completed after) (fun _ _ _ ↦ False) m disk := by
  have hhere : I disk := hI disk (.published _ h)
  rw [removeJournal]
  apply observes_journalFileDigest.wp_crash_bind hhere
  rw [h.journal, if_neg (by simp)]
  have hremoved : disk.perform R.sha256 .unlinkJournal = (true, { disk with journal := none }) := by
    simp [Disk.perform, h.journal]
  apply wp_crash_step_bind hremoved hhere
  rw [if_pos rfl]
  exact ⟨rfl, h.journalStage rfl, h.manifest, h.files⟩

/-- The last phases of a published generation. -/
theorem Published.wp_crash_finish {α : Type} (value : α) (h : G.Published phase disk)
    (hI : ∀ after, G.Durable after → I after) :
    Command.wp (crashContract (machine R) I) (do
        let journal ← reachPhase R (G.journal phase) .manifestPublished
        let journal ← reachPhase R journal .generationPublished
        removeJournal R journal
        pure (journal, value))
      (fun _ _ after ↦ G.Completed after ∧ G.FitsAfter phase)
      (fun error _ after ↦ G.Durable after ∧ error = tooLong ∧ ¬G.FitsAfter phase) m disk := by
  have happlying : 1 ≤ phase.index := by
    have hphase := h.late
    cases phase <;> simp_all [Phase.index]
  apply Command.wp_seq (h.wp_crash_reachPhase (by decide) hI)
  · intro _ m first ⟨reached, hindex, hjournal, hfirst, hsize⟩
    subst hjournal
    apply Command.wp_seq (hfirst.wp_crash_reachPhase (by decide) hI)
    · intro _ m second ⟨last, hlast, hjournal, hsecond, hsize'⟩
      subst hjournal
      have hpublished : last = .generationPublished := by
        apply Phase.index_injective
        rw [hlast]
        cases reached <;> rfl
      subst hpublished
      apply Command.wp_seq (hsecond.wp_crash_removeJournal hI)
      · intro _ _ third hthird
        refine ⟨hthird, fun later hlater ↦ ?_⟩
        cases later with
        | prepared => simp [Phase.index] at hlater
        | applying => exact absurd hlater (not_lt.mpr happlying)
        | manifestPublished => exact hsize hlater
        | generationPublished =>
            by_cases hreached : reached.index < Phase.generationPublished.index
            · exact hsize' hreached
            · simp only [Phase.index] at hlater hreached hindex
              omega
      · exact fun _ _ _ hfalse ↦ hfalse.elim
    · intro _ _ second ⟨hdurable, herror, hphase, hsize'⟩
      refine ⟨hdurable, herror, fun hfits ↦ hfits .generationPublished ?_ hsize'⟩
      simp only [Phase.index] at hphase hindex ⊢
      omega
  · intro _ _ first ⟨hdurable, herror, hphase, hsize⟩
    exact ⟨hdurable, herror, fun hfits ↦ hfits _ hphase hsize⟩

end Generation

end WorkStack.WriteSession
