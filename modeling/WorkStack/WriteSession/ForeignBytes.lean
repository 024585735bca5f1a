import WorkStack.Effect.Answers
import WorkStack.WriteSession.CrashSafety
import WorkStack.WriteSession.Interference

/-!
# Foreign bytes

A target is replaced or deleted only where its expected digest has just been found. A target with
neither the expected nor the proposed digest ends the call: it only removes its stage files and
raises, and the journal stays where it is. A call that completes has come to a decision about every
target.
-/

namespace WorkStack.WriteSession

open Effect Python
open Store (Digest)

variable {R : SessionRules} {runtime : RuntimeAuthority}

/-! ## After a mismatch -/

/-- The target was found with neither digest. -/
def Mismatch (target : JournalTarget) : (o : DiskOp) → o.Answer → Prop
  | .applyTarget other _, answer => other = target ∧ answer = .mismatch
  | _, _ => False

/-- The journal was removed. -/
def Removed : (o : DiskOp) → o.Answer → Prop
  | .unlinkJournal, answer => answer = true
  | _, _ => False

def DiskOp.Cleans : DiskOp → Prop
  | unlinkFile _ => True
  | _ => False

/-- Operations that neither apply a target nor remove the journal. -/
def DiskOp.Aside (o : DiskOp) : Prop := o.Keeps ∨ o.Publishes

theorem DiskOp.Aside.no_mismatch {o : DiskOp} (h : o.Aside) (target : JournalTarget) (answer : o.Answer) :
    ¬Mismatch target o answer := by
  cases o with
  | applyTarget => exact h.elim (fun hkeeps ↦ hkeeps.elim) fun hpublishes ↦ hpublishes.elim
  | _ => exact fun hfalse ↦ hfalse

theorem DiskOp.Aside.not_removed {o : DiskOp} (h : o.Aside) (answer : o.Answer) : ¬Removed o answer := by
  cases o with
  | unlinkJournal => exact h.elim (fun hkeeps ↦ hkeeps.elim) fun hpublishes ↦ hpublishes.elim
  | _ => exact fun hfalse ↦ hfalse

section Aside

variable {α : Type} {c : SessionCommand α}

theorem reads_aside (hc : c.Within (.same DiskOp.Reads)) : c.Within (.same DiskOp.Aside) :=
  hc.mono (fun _ h ↦ .inl h.keeps) fun _ _ h ↦ h

theorem keeps_aside (hc : c.Within (.same DiskOp.Keeps)) : c.Within (.same DiskOp.Aside) :=
  hc.mono (fun _ ↦ .inl) fun _ _ h ↦ h

theorem publishes_aside (hc : c.Within (.same DiskOp.Publishes)) : c.Within (.same DiskOp.Aside) :=
  hc.mono (fun _ ↦ .inr) fun _ _ h ↦ h

end Aside

section Within

theorem within_stageTargets (journal : Journal) :
    (stageTargets R runtime journal).Within (.same DiskOp.Keeps) := by
  apply Command.Within.fold
  intro stages target
  apply Command.Within.bind (within_admitted _)
  intro path
  apply Command.Within.bind (reads_within (within_fileDigest _) fun _ ↦ DiskOp.Reads.keeps)
  intro current
  apply Command.Within.ite (.pure _)
  apply Command.Within.ite (.pure _)
  cases target.proposedBytes with
  | none => exact within_stop _ _
  | some body => exact .bind (within_writeStage _ _ ⟨_, _, rfl⟩) fun _ ↦ .pure _

theorem within_advanceJournal (journal : Journal) (phase : Phase) :
    (advanceJournal R journal phase).Within (.same DiskOp.Publishes) := by
  apply Command.Within.bind (within_admitted _)
  intro advanced
  exact .bind (within_publishJournal _ _) fun _ ↦ .pure _

theorem within_reachPhase (journal : Journal) (phase : Phase) :
    (reachPhase R journal phase).Within (.same DiskOp.Publishes) :=
  .ite (within_advanceJournal _ _) (.pure _)

end Within

/-- What a mismatch ends in. -/
abbrev Mismatched {α : Type} (target : JournalTarget) (outcome : Except SessionError α) : Prop :=
  ∃ error, outcome = .error error ∧ error = .refused "TARGET_CAS_MISMATCH" target.artifact

section Steps

variable {α : Type} {o : DiskOp} {f : o.Answer → SessionCommand α} {P : DiskOp → Prop}
variable {bad : (o : DiskOp) → o.Answer → Prop} {L : Except SessionError α → Prop}

theorem only_step (ho : P o) :
    Command.Only P (fun outcome ↦ ∃ answer, outcome = .ok answer) (step o : SessionCommand o.Answer) :=
  Command.Only.perform (S := diskSignature) ho

theorem after_step_bind (hbad : ∀ answer, bad o answer → (f answer).Only P L)
    (hf : ∀ answer, (f answer).After bad P L) : Command.After bad P L (step o >>= f) :=
  Command.After.perform_bind (S := diskSignature) hbad hf

theorem visits_step_bind (h : ∀ answer, bad o answer ∨ (f answer).Visits bad) :
    Command.Visits bad (step o >>= f) :=
  Command.Visits.perform_bind (S := diskSignature) h

end Steps

section Stops

variable {target : JournalTarget}

theorem applyStages_mismatch (journal : Journal) (reference : Manifest) (stages : Stages) :
    (applyStages R runtime journal reference stages).After (Mismatch target) DiskOp.Cleans
      (Mismatched target) := by
  apply Command.After.fold
  intro _ item _
  apply Command.After.bind_within (F := .same DiskOp.Aside) (within_admitted _)
  · exact fun _ answer h ↦ h.no_mismatch target answer
  · intro _
    have hverify : Command.Within (.same DiskOp.Aside) (verifyRecoveryState R runtime journal reference) :=
      reads_aside (within_verifyRecoveryState journal reference)
    apply after_step_bind
    · intro answer ⟨hitem, hmismatch⟩
      subst hitem hmismatch
      exact .throw ⟨_, rfl, rfl⟩
    · intro answer
      cases answer with
      | already => exact .pure _
      | deleted => exact .of_within hverify fun _ answer h ↦ h.no_mismatch target answer
      | replaced => exact .of_within hverify fun _ answer h ↦ h.no_mismatch target answer
      | mismatch | notStaged | stageInvalid | failed => exact .throw _

theorem only_cleanupStages (stages : Stages) :
    (cleanupStages stages).Only DiskOp.Cleans fun outcome ↦ ∃ value, outcome = .ok value := by
  apply Command.Only.fold
  intro _ stage
  apply Command.Only.bind (only_step trivial)
  · exact fun _ _ ↦ .pure ⟨(), rfl⟩
  · exact fun _ ⟨_, h⟩ ↦ nomatch h

theorem applyTargets_mismatch (journal : Journal) (reference : Manifest) :
    (applyTargets R runtime journal reference).After (Mismatch target) DiskOp.Cleans
      (Mismatched target) := by
  apply Command.After.bind_within (keeps_aside (within_stageTargets journal))
  · exact fun _ answer h ↦ h.no_mismatch target answer
  · intro stages
    have hclean : Command.Within (.same DiskOp.Cleans) (cleanupStages stages) :=
      within_cleanupStages fun _ _ ↦ trivial
    have hno : ∀ (o : DiskOp) (answer : o.Answer), o.Cleans → ¬Mismatch target o answer := by
      intro o answer ho
      cases o with
      | unlinkFile => exact fun hfalse ↦ hfalse
      | _ => cases ho
    apply Command.After.bind
    · apply Command.After.catching (applyStages_mismatch journal reference stages)
      · exact fun _ h ↦ h
      · intro error herror
        apply Command.Only.bind (only_cleanupStages stages)
        · exact fun _ _ ↦ .throw herror
        · exact fun _ ⟨_, h⟩ ↦ nomatch h
      · intro error
        exact .bind_within hclean hno fun _ ↦ .throw _
    · exact fun _ ⟨_, h, _⟩ ↦ nomatch h
    · exact fun _ h ↦ h
    · exact fun _ ↦ .of_within hclean hno

end Stops

/-! ## Whole calls -/

/-- The outcomes of a command that has met the bad answer: one of these errors, or a value if it may
return. -/
def Ends {α : Type} (returns : Prop) (E : SessionError → Prop) : Except SessionError α → Prop
  | .ok _ => returns
  | .error error => E error

section Calls

variable {α β : Type} {bad : (o : DiskOp) → o.Answer → Prop} {P : DiskOp → Prop}
variable {E : SessionError → Prop} {returns : Prop}

theorem after_aside {c : SessionCommand β} {f : β → SessionCommand α}
    (haside : ∀ (o : DiskOp) (answer : o.Answer), o.Aside → ¬bad o answer)
    (hc : c.Within (.same DiskOp.Aside)) (hf : ∀ b, (f b).After bad P (Ends returns E)) :
    (c >>= f).After bad P (Ends returns E) :=
  .bind_within hc haside hf

/-- The bad answer ends the first part of a sequence with an error. -/
theorem after_error {c : SessionCommand β} {f : β → SessionCommand α}
    (hc : c.After bad P (Ends False E)) (hf : ∀ b, (f b).After bad P (Ends returns E)) :
    (c >>= f).After bad P (Ends returns E) :=
  .bind hc (fun _ h ↦ h.elim) (fun _ h ↦ h) hf

/-- The first part of a sequence is all that matters. -/
theorem after_last {c : SessionCommand β} {g : β → α} (hc : c.After bad P (Ends returns E)) :
    (c >>= fun b ↦ (pure (g b) : SessionCommand α)).After bad P (Ends returns E) :=
  .bind hc (fun _ h ↦ .pure h) (fun _ h ↦ h) fun _ ↦ .pure _

theorem after_ite {c d : SessionCommand α} {p : Prop} [Decidable p] (hc : c.After bad P (Ends returns E))
    (hd : d.After bad P (Ends returns E)) : (if p then c else d).After bad P (Ends returns E) := by
  by_cases hp : p
  · rwa [if_pos hp]
  · rwa [if_neg hp]

/-- What a whole call does after an answer that only the application of the targets and the removal
of the journal can give. -/
structure Confined (R : SessionRules) (runtime : RuntimeAuthority) (bad : (o : DiskOp) → o.Answer → Prop)
    (P : DiskOp → Prop) (returns : Prop) (E : SessionError → Prop) : Prop where
  aside : ∀ (o : DiskOp) (answer : o.Answer), o.Aside → ¬bad o answer
  apply : ∀ journal reference,
    (applyTargets R runtime journal reference).After bad P (Ends False E)
  remove : ∀ journal, (removeJournal R journal).After bad P (Ends returns E)

theorem Confined.completeGeneration (h : Confined R runtime bad P returns E) (journal : Journal)
    (manifest : Manifest) (current : Digest) :
    (completeGeneration R journal manifest current).After bad P (Ends returns E) := by
  apply after_aside h.aside (keeps_aside (within_publishedState _ _ _))
  intro state
  apply after_aside h.aside (publishes_aside (within_reachPhase _ _))
  intro journal
  apply after_aside h.aside (publishes_aside (within_reachPhase _ _))
  intro journal
  exact after_last (h.remove journal)

theorem Confined.finishTargets (h : Confined R runtime bad P returns E) (journal : Journal)
    (reference : Manifest) (generation : ℕ) (proposed : Digest) :
    (finishTargets R runtime journal reference generation proposed).After bad P (Ends returns E) := by
  apply after_error (h.apply journal reference)
  intro _
  apply after_aside h.aside (reads_aside (within_actualManifest _))
  intro actual
  exact after_ite (.throw _) (h.completeGeneration _ _ _)

theorem Confined.execute (h : Confined R runtime bad P returns E) (plan : Plan) :
    (executeWriteSession R runtime plan).After bad P (Ends returns E) := by
  unfold executeWriteSession
  dsimp only
  apply after_aside h.aside (reads_aside within_readJournal)
  intro pending
  cases pending with
  | some _ => exact .throw _
  | none =>
      apply after_aside h.aside (reads_aside within_verifyBaseline)
      intro base
      apply after_aside h.aside (within_admitted _)
      intro _
      apply after_aside h.aside (within_admitted _)
      intro _
      apply after_aside h.aside (within_admitted _)
      intro journal
      apply after_aside h.aside (publishes_aside (within_publishJournal _ _))
      intro _
      apply after_aside h.aside (publishes_aside (within_advanceJournal _ _))
      intro advanced
      apply after_aside h.aside (reads_aside (within_verifyRecoveryState _ _))
      intro _
      exact after_last (h.finishTargets advanced base _ _)

theorem Confined.recoverLocked (h : Confined R runtime bad P returns E) (journal : Journal) :
    (recoverLocked R runtime journal).After bad P (Ends returns E) := by
  apply after_ite (.throw _)
  apply after_aside h.aside (reads_aside within_readRuntimeManifest)
  intro state
  cases state with
  | none => exact .throw _
  | some state =>
      apply after_ite (.throw _)
      apply after_ite
      · apply after_aside h.aside (reads_aside (within_actualManifest _))
        intro actual
        exact after_ite (.throw _) (after_last (h.completeGeneration _ _ _))
      · apply after_ite (.throw _)
        apply after_aside h.aside (reads_aside (within_verifyRecoveryState _ _))
        intro _
        apply after_aside h.aside
          (Command.Within.ite (publishes_aside (within_advanceJournal _ _)) (.pure _))
        intro current
        exact after_last (h.finishTargets current state _ _)

theorem Confined.call (h : Confined R runtime bad P returns E) (call : Call) :
    (call.command R runtime).After bad P (Ends returns E) := by
  cases call with
  | execute plan => exact after_last (h.execute plan)
  | recover =>
      apply after_last
      apply after_aside h.aside (reads_aside within_readJournal)
      intro pending
      cases pending with
      | none => exact .pure _
      | some journal =>
          apply after_aside h.aside (within_admitted _)
          intro _
          exact after_last (h.recoverLocked journal)

end Calls

theorem confined_mismatch (target : JournalTarget) :
    Confined R runtime (Mismatch target) DiskOp.Cleans False
      (· = .refused "TARGET_CAS_MISMATCH" target.artifact) where
  aside _ answer h := h.no_mismatch target answer
  apply journal reference := by
    apply (applyTargets_mismatch journal reference).mono
    rintro outcome ⟨error, rfl, herror⟩
    exact herror
  remove journal := by
    apply after_aside (fun _ answer h ↦ h.no_mismatch target answer) (reads_aside within_journalFileDigest)
    intro current
    apply after_ite (.throw _)
    apply after_step_bind
    · exact fun _ hfalse ↦ hfalse.elim
    · exact fun _ ↦ after_ite (.pure _) (.throw _)

theorem within_applyTargets (journal : Journal) (reference : Manifest) :
    (applyTargets R runtime journal reference).Within (.same (· ≠ DiskOp.unlinkJournal)) := by
  have hkeeps : ∀ o : DiskOp, o.Keeps → o ≠ .unlinkJournal := by
    rintro o ho rfl
    cases ho
  have hclean : ∀ stages, Command.Within (.same (· ≠ DiskOp.unlinkJournal)) (cleanupStages stages) :=
    fun stages ↦ within_cleanupStages fun _ _ ↦ fun heq ↦ nomatch heq
  have hstage : Command.Within (.same (· ≠ DiskOp.unlinkJournal)) (stageTargets R runtime journal) :=
    (within_stageTargets journal).mono hkeeps fun _ _ h ↦ h
  apply Command.Within.bind hstage
  intro stages
  apply Command.Within.bind _ fun _ ↦ hclean stages
  apply Command.Within.catching
  · apply Command.Within.fold
    intro _ target
    apply Command.Within.bind (within_admitted _)
    intro _
    apply Command.Within.bind (within_step fun heq ↦ nomatch heq)
    intro applied
    have hverify : Command.Within (.same (· ≠ DiskOp.unlinkJournal))
        (verifyRecoveryState R runtime journal reference) :=
      reads_within (within_verifyRecoveryState journal reference) fun o ho ↦ hkeeps o ho.keeps
    cases applied with
    | already => exact .pure _
    | deleted | replaced => exact hverify
    | mismatch | notStaged | stageInvalid | failed => exact .throw _
  · exact fun _ ↦ .bind (hclean stages) fun _ ↦ .throw _

theorem confined_removed :
    Confined R runtime Removed (fun _ ↦ True) True fun _ ↦ False where
  aside _ answer h := h.not_removed answer
  apply journal reference := by
    have hF : ∀ (o : DiskOp) (answer : o.Answer), (o ≠ .unlinkJournal) → ¬Removed o answer := by
      intro o answer ho
      cases o with
      | unlinkJournal => exact absurd rfl ho
      | _ => exact fun hfalse ↦ hfalse
    exact .of_within (within_applyTargets journal reference) hF
  remove journal := by
    apply after_aside (fun _ answer h ↦ h.not_removed answer) (reads_aside within_journalFileDigest)
    intro current
    apply after_ite (.throw _)
    apply after_step_bind
    · intro answer hanswer
      rw [if_pos (show answer = true from hanswer)]
      exact .pure trivial
    · exact fun _ ↦ after_ite (.pure _) (.throw _)

/-! ## Decisions -/

/-- The loop has come to this target. -/
def Decides (target : JournalTarget) : (o : DiskOp) → o.Answer → Prop
  | .applyTarget other _, _ => other = target
  | _, _ => False

section Decisions

variable {journal : Journal} {target : JournalTarget}

theorem applyTargets_decides (reference : Manifest) (h : target ∈ journal.targets) :
    (applyTargets R runtime journal reference).Visits (Decides target) := by
  apply Command.Visits.bind_right
  intro stages
  apply Command.Visits.bind_left
  apply Command.Visits.catching
  · apply Command.Visits.fold h
    intro _
    apply Command.Visits.bind_right
    intro _
    apply visits_step_bind
    exact fun _ ↦ .inl rfl
  · intro error
    apply Command.Visits.bind_right
    exact fun _ ↦ .throw error

theorem finishTargets_decides (reference : Manifest) (generation : ℕ) (proposed : Digest)
    (h : target ∈ journal.targets) :
    (finishTargets R runtime journal reference generation proposed).Visits (Decides target) :=
  .bind_left (applyTargets_decides reference h)

/-- Advancing a journal keeps its targets. -/
theorem only_advanceJournal (journal : Journal) (phase : Phase) :
    (advanceJournal R journal phase).Only (fun _ ↦ True) fun outcome ↦
      ∀ advanced, outcome = .ok advanced → advanced.targets = journal.targets := by
  have hadmitted : Command.Only (fun _ ↦ True) (fun outcome ↦ ∀ advanced, outcome = .ok advanced →
      advanced.targets = journal.targets) (admitted (advanceJournalPhase R journal phase)) :=
    .ofExcept fun _ ↦ advanceJournalPhase_targets
  apply Command.Only.bind hadmitted
  · intro advanced htargets
    apply Command.Only.bind (Command.Only.anything _)
    · intro _ _
      apply Command.Only.pure
      intro current hcurrent
      cases hcurrent
      exact htargets advanced rfl
    · exact fun _ _ _ h ↦ nomatch h
  · exact fun _ _ _ h ↦ nomatch h

theorem buildWriteJournal_targets {built : Journal} (h : buildWriteJournal R journal = .ok built) :
    built.targets = journal.targets := by
  obtain ⟨_, -, hsize⟩ := Outcome.bind_eq_ok.mp h
  split at hsize
  · cases hsize
  · cases hsize
    rfl

theorem execute_decides {plan : Plan} (h : target ∈ sortedTargets plan.targets) :
    (executeWriteSession R runtime plan).Visits (Decides target) := by
  unfold executeWriteSession
  dsimp only
  apply Command.Visits.bind_right
  intro pending
  cases pending with
  | some _ => exact .throw _
  | none =>
      apply Command.Visits.bind_right
      intro base
      apply Command.Visits.bind_right
      intro _
      apply Command.Visits.bind_right
      intro _
      have hbuild : Command.Only (fun _ ↦ True) (fun outcome ↦ ∀ built, outcome = .ok built →
          built.targets = sortedTargets plan.targets)
          (admitted (buildWriteJournal R (plan.journal R runtime base))) :=
        .ofExcept fun _ hbuilt ↦ buildWriteJournal_targets hbuilt
      apply Command.Visits.bind_only hbuild
      intro built hbuilt
      apply Command.Visits.bind_right
      intro _
      apply Command.Visits.bind_only (only_advanceJournal built .applying)
      intro advanced hadvanced
      apply Command.Visits.bind_right
      intro _
      apply Command.Visits.bind_left
      apply finishTargets_decides
      rw [hadvanced advanced rfl, hbuilt built rfl]
      exact h

/-- Operations that are not the application of a target. -/
def DiskOp.Spares : DiskOp → Prop
  | applyTarget _ _ => False
  | _ => True

theorem aside_spares {α : Type} {c : SessionCommand α} (hc : c.Within (.same DiskOp.Aside)) :
    c.Within (.same DiskOp.Spares) := by
  have hspares : ∀ o : DiskOp, o.Aside → o.Spares := by
    intro o ho
    cases o with
    | applyTarget => exact ho.elim (fun hkeeps ↦ hkeeps) fun hpublishes ↦ hpublishes
    | _ => trivial
  exact hc.mono hspares fun _ _ h ↦ h

theorem within_completeGeneration (journal : Journal) (manifest : Manifest) (current : Digest) :
    (completeGeneration R journal manifest current).Within (.same DiskOp.Spares) := by
  apply Command.Within.bind (aside_spares (keeps_aside (within_publishedState _ _ _)))
  intro state
  apply Command.Within.bind (aside_spares (publishes_aside (within_reachPhase _ _)))
  intro journal
  apply Command.Within.bind (aside_spares (publishes_aside (within_reachPhase _ _)))
  intro journal
  apply Command.Within.bind _ fun _ ↦ .pure _
  apply Command.Within.bind (aside_spares (reads_aside within_journalFileDigest))
  intro current
  apply Command.Within.ite (within_stop _ _)
  exact .bind (within_step trivial) fun _ ↦ .ite (.pure _) (within_stop _ _)

/-- A recovery comes to a decision about every target, or it applies none. -/
theorem recoverLocked_splits (h : target ∈ journal.targets) :
    (recoverLocked R runtime journal).Splits (Decides target) DiskOp.Spares := by
  have hreads := fun {α : Type} {c : SessionCommand α} (hc : c.Within (.same DiskOp.Reads)) ↦
    aside_spares (reads_aside hc)
  apply Command.Splits.ite (.of_within (within_stop _ _))
  apply Command.Splits.bind (hreads within_readRuntimeManifest)
  intro state
  cases state with
  | none => exact .of_within (within_stop _ _)
  | some state =>
      apply Command.Splits.ite (.of_within (within_stop _ _))
      apply Command.Splits.ite
      · apply Command.Splits.of_within
        apply Command.Within.bind (hreads (within_actualManifest _))
        intro actual
        apply Command.Within.ite (within_stop _ _)
        exact .bind (within_completeGeneration _ _ _) fun _ ↦ .pure _
      · apply Command.Splits.ite (.of_within (within_stop _ _))
        apply Command.Splits.of_visits
        apply Command.Visits.bind_right
        intro _
        have hstart : Command.Only (fun _ ↦ True) (fun outcome ↦ ∀ current, outcome = .ok current →
            current.targets = journal.targets) (if journal.phase = .prepared then
              advanceJournal R journal .applying else pure journal) := by
          split
          · exact only_advanceJournal journal .applying
          · apply Command.Only.pure
            intro current hcurrent
            cases hcurrent
            rfl
        apply Command.Visits.bind_only hstart
        intro current hcurrent
        apply Command.Visits.bind_left
        apply finishTargets_decides
        rw [hcurrent current rfl]
        exact h

end Decisions

/-! ## Runs -/

/-- A target that holds neither what is expected nor what is proposed. -/
def Foreign (R : SessionRules) (disk : Disk) (target : JournalTarget) : Prop :=
  disk.digest R.sha256 target.location ≠ target.expectedDigest ∧
    disk.digest R.sha256 target.location ≠ target.proposedDigest

/-- The loop came to this target and found what it expects or proposes. -/
def Decided (R : SessionRules) (events : List (Event (machine R))) (target : JournalTarget) : Prop :=
  ∃ stage before, .own (.applyTarget target stage) before ∈ events ∧ ¬Foreign R before target

/-- What an execution of a call beside an external writer is like, up to where it stopped. -/
structure KeepsForeignBytes (R : SessionRules) (call : Call) (start : Disk)
    (events : List (Event (machine R))) (q : Prog diskSignature (Except SessionError Unit × Unit))
    (after : Disk) : Prop where
  /-- An artifact is replaced or deleted only as a target that holds what the journal expects. -/
  replaced : ∀ o before, .own o before ∈ events → ∀ scope path,
    (before.perform R.sha256 o).2.file ⟨scope, .artifact path⟩ ≠ before.file ⟨scope, .artifact path⟩ →
      ∃ journal target stage, o = .applyTarget target stage ∧ before.journal = some journal ∧
        target ∈ journal.targets ∧ target.location = ⟨scope, .artifact path⟩ ∧
        before.digest R.sha256 target.location = target.expectedDigest
  /-- A foreign target ends the call, with the journal retained and nothing done but cleaning up. -/
  stopped : ∀ earlier target stage before rest,
    events = earlier ++ .own (.applyTarget target stage) before :: rest → Foreign R before target →
      (∃ journal, before.journal = some journal ∧ target ∈ journal.targets ∧ after.journal = some journal) ∧
        (∀ o between, .own o between ∈ rest → ∃ location, o = .unlinkFile location ∧ location.isStage) ∧
        ∀ outcome m, q = .pure (outcome, m) →
          outcome = .error (.refused "TARGET_CAS_MISMATCH" target.artifact)
  /-- A call that ends with an error has left the journal where it was. -/
  retained : ∀ error m, q = .pure (.error error, m) → ∀ o before, .own o before ∈ events →
    before.journal.isSome → (before.perform R.sha256 o).2.journal.isSome
  /-- A session that completes has decided every target; a recovery has, or has applied none. -/
  decided : ∀ m, q = .pure (.ok (), m) → match call with
    | .execute plan => ∀ target ∈ sortedTargets plan.targets, Decided R events target
    | .recover => ∀ journal, start.journal = some journal →
        (∀ target ∈ journal.targets, Decided R events target) ∨
          ∀ o before, .own o before ∈ events → o.Spares

section Runs

variable {call : Call} {start after : Disk} {events : List (Event (machine R))}
variable {q : Prog diskSignature (Except SessionError Unit × Unit)}

theorem Foreign.applyTarget {disk : Disk} {target : JournalTarget} (h : Foreign R disk target)
    (stage : Option Location) : disk.applyTarget R.sha256 target stage = (.mismatch, disk) := by
  unfold Disk.applyTarget
  dsimp only
  rw [if_neg h.2, if_pos h.1]

/-- While stage files are being removed the journal stays. -/
theorem journal_of_cleans {α : Type} {p q : Prog diskSignature α} {w w' : (machine R).World}
    {events : List (Event (machine R))} (hrun : Run (machine R) ExternalWrite p w events q w')
    (h : ∀ (o : DiskOp) (u : Disk), .own o u ∈ events → o.Cleans) : w'.journal = w.journal := by
  induction hrun with
  | refl p w => rfl
  | env move rest ih => exact (ih fun o u hu ↦ h o u (List.mem_cons_of_mem _ hu)).trans move.1
  | @own o next q w w'' events rest ih =>
      have ho := h o w (List.mem_cons_self ..)
      rw [ih fun o u hu ↦ h o u (List.mem_cons_of_mem _ hu)]
      cases o with
      | unlinkFile location => rfl
      | _ => cases ho

theorem permitted_of_run (hrun : Run (machine R) ExternalWrite (call.command R runtime ()) start events q after) :
    ∀ o before, .own o before ∈ events → o.Permitted before :=
  (wp_run (wp_writer_call (m := ()) call) hrun (fun _ _ h ↦ h) fun _ _ _ ↦ trivial).1

theorem stopped_of_run (hrun : Run (machine R) ExternalWrite (call.command R runtime ()) start events q after)
    {earlier rest : List (Event (machine R))} {target : JournalTarget} {stage : Option Location}
    {before : Disk} (hevents : events = earlier ++ .own (.applyTarget target stage) before :: rest)
    (hforeign : Foreign R before target) :
    (∃ journal, before.journal = some journal ∧ target ∈ journal.targets ∧ after.journal = some journal) ∧
      (∀ o between, .own o between ∈ rest → ∃ location, o = .unlinkFile location ∧ location.isStage) ∧
      ∀ outcome m, q = .pure (outcome, m) →
        outcome = .error (.refused "TARGET_CAS_MISMATCH" target.artifact) := by
  subst hevents
  have hpermitted := permitted_of_run hrun
  have happlied := hforeign.applyTarget stage
  have hbad : Mismatch target (.applyTarget target stage)
      (before.applyTarget R.sha256 target stage).1 := ⟨rfl, congrArg Prod.fst happlied⟩
  obtain ⟨hcleans, hq, p', hrest⟩ := ((confined_mismatch target).call call ()).run hrun hbad
  refine ⟨?_, fun o between ho ↦ ?_, fun outcome m hpure ↦ ?_⟩
  · obtain ⟨⟨journal, hjournal, htarget⟩, -⟩ := hpermitted (.applyTarget target stage) before (by simp)
    refine ⟨journal, hjournal, htarget, ?_⟩
    rw [journal_of_cleans hrest hcleans]
    exact (congrArg (fun applied ↦ applied.2.journal) happlied).trans hjournal
  · have ho' := hcleans o between ho
    have hstage := hpermitted o between (by simp [ho])
    cases o with
    | unlinkFile location => exact ⟨location, rfl, hstage⟩
    | _ => cases ho'
  · subst hpure
    cases outcome with
    | ok value => exact hq.elim
    | error error => exact congrArg Except.error hq

theorem retained_of_run (hrun : Run (machine R) ExternalWrite (call.command R runtime ()) start events q after)
    {error : SessionError} {m : Unit} (hq : q = .pure (.error error, m)) {o : DiskOp} {before : Disk}
    (ho : .own o before ∈ events) (hjournal : before.journal.isSome) :
    (before.perform R.sha256 o).2.journal.isSome := by
  have hpermitted := permitted_of_run hrun o before ho
  cases o with
  | unlinkJournal =>
      exfalso
      obtain ⟨earlier, rest, hevents⟩ := List.append_of_mem ho
      subst hevents
      have hremoved : (call.command R runtime).After Removed (fun _ ↦ True) (Ends True fun _ ↦ False) :=
        confined_removed.call call
      obtain ⟨-, hend, -⟩ := (hremoved ()).run hrun hjournal
      subst hq
      exact hend
  | replaceJournal =>
      rw [Disk.perform]
      cases hstage : before.journalStage with
      | none => exact hjournal
      | some content =>
          cases content with
          | none => exact absurd hstage hpermitted
          | some journal => rfl
  | createFile location =>
      rw [Disk.perform]
      split <;> exact hjournal
  | appendByte location byte =>
      rw [Disk.perform]
      split <;> exact hjournal
  | createJournalStage =>
      rw [Disk.perform]
      split <;> exact hjournal
  | applyTarget target stage =>
      change (before.applyTarget R.sha256 target stage).2.journal.isSome
      rwa [applyTarget_journal]
  | _ => exact hjournal

/-- In a call that returns, whatever target the loop came to was not foreign. -/
theorem decided_of_mem (hrun : Run (machine R) ExternalWrite (call.command R runtime ()) start events q after)
    {m : Unit} (hq : q = .pure (.ok (), m)) {target : JournalTarget} {stage : Option Location} {before : Disk}
    (h : .own (.applyTarget target stage) before ∈ events) : Decided R events target := by
  refine ⟨stage, before, h, fun hforeign ↦ ?_⟩
  obtain ⟨earlier, rest, hevents⟩ := List.append_of_mem h
  have hstopped := (stopped_of_run hrun hevents hforeign).2.2 _ _ hq
  cases hstopped

theorem exists_applied {target : JournalTarget}
    (h : ∃ (o : DiskOp) (u : Disk), .own o u ∈ events ∧ Decides target o (u.perform R.sha256 o).1) :
    ∃ stage before, .own (.applyTarget target stage) before ∈ events := by
  obtain ⟨o, u, hu, hdecides⟩ := h
  cases o with
  | applyTarget other stage =>
      cases hdecides
      exact ⟨stage, u, hu⟩
  | _ => cases hdecides

theorem execute_decided {plan : Plan} {m : Unit}
    (hrun : Run (machine R) ExternalWrite ((Call.execute plan).command R runtime ()) start events
      (.pure (.ok (), m)) after) {target : JournalTarget} (h : target ∈ sortedTargets plan.targets) :
    Decided R events target := by
  have hvisits : ((Call.execute plan).command R runtime).Visits (Decides target) :=
    .bind_left (execute_decides h)
  obtain ⟨stage, before, happlied⟩ := exists_applied ((hvisits ()).run hrun rfl ⟨(), rfl⟩)
  exact decided_of_mem hrun rfl happlied

/-- A recovery reads the journal it starts with. -/
theorem wp_writer_readsJournal {journal : Journal} {m : Unit} (hjournal : start.journal = some journal) :
    Command.wp (writerContract R) (readJournal R) (fun pending _ _ ↦ pending = some journal)
      (fun _ _ _ ↦ True) m start := by
  apply wp_writer_step
  intro u hu
  refine ⟨trivial, ?_⟩
  have hread : Disk.perform R.sha256 .readJournal u = (some journal, u) := Prod.ext (hu.1.trans hjournal) rfl
  rw [hread]
  apply (Command.wp_bind _ _).mpr
  apply Command.wp_ofExcept
  · intro parsed hparsed
    exact congrArg some (parseWriteJournal_ok hparsed)
  · exact fun _ _ ↦ trivial

theorem recover_decided {m : Unit} {journal : Journal} (hjournal : start.journal = some journal)
    (hrun : Run (machine R) ExternalWrite (Call.recover.command R runtime ()) start events
      (.pure (.ok (), m)) after) {target : JournalTarget} (h : target ∈ journal.targets) :
    Decided R events target ∨ ∀ o before, .own o before ∈ events → o.Spares := by
  have hwhole := hrun
  obtain ⟨⟨outcome, m'⟩, u, inner, last, hsplit, hinner, hlast⟩ := hrun.bind_pure_cases
  obtain ⟨⟨pending, m''⟩, v, first, rest, hinner', hread, hrest⟩ := hinner.bind_pure_cases
  have hsettled := (wp_run (wp_writer_readsJournal hjournal) hread (fun _ _ h ↦ h) fun _ _ _ ↦ trivial).2
  obtain ⟨x, -, hpending⟩ := hsettled
  have hfirst : ∀ o before, .own o before ∈ first → o.Spares :=
    (Prog.Within.run (aside_spares (reads_aside within_readJournal) ()) hread).1
  cases outcome with
  | error error => cases (Prog.pure_of_run hlast).2
  | ok result =>
      have hlast := (Prog.pure_of_run hlast).1
      cases pending with
      | error error => cases (Prog.pure_of_run hrest).2
      | ok pending =>
          have hpending : pending = some journal := hpending
          subst hpending
          have hsplits : Command.Splits (Decides target) DiskOp.Spares (do
              admitted (validateTargetRoster R runtime journal.targets)
              let result ← recoverLocked R runtime journal
              pure (some result)) :=
            .bind (within_admitted _) fun _ ↦ (recoverLocked_splits h).map some
          rcases (hsplits m'').run hrest rfl ⟨result, rfl⟩ with hdecides | hrest
          · obtain ⟨stage, before, happlied⟩ := exists_applied hdecides
            left
            have hmem : .own (.applyTarget target stage) before ∈ first ++ rest ++ last :=
              List.mem_append_left _ (List.mem_append_right _ happlied)
            rw [← hinner', ← hsplit] at hmem
            exact decided_of_mem hwhole rfl hmem
          · right
            intro o before ho
            rw [hsplit, hinner'] at ho
            rcases List.mem_append.mp ho with ho | ho
            · exact (List.mem_append.mp ho).elim (hfirst o before) (hrest o before)
            · exact absurd ho (hlast o before)

end Runs

/-- Sessions and recoveries beside an external writer never destroy foreign bytes. -/
theorem writeSession_keeps_foreign_bytes (R : SessionRules) (runtime : RuntimeAuthority) (call : Call)
    (start after : Disk) (events : List (Event (machine R)))
    (q : Prog diskSignature (Except SessionError Unit × Unit))
    (hrun : Run (machine R) ExternalWrite (call.command R runtime ()) start events q after) :
    KeepsForeignBytes R call start events q after where
  replaced o before ho scope path hchanged :=
    (permitted_of_run hrun o before ho).artifact scope path hchanged
  stopped earlier target stage before rest hevents hforeign := stopped_of_run hrun hevents hforeign
  retained error m hq o before ho hjournal := retained_of_run hrun hq ho hjournal
  decided m hq := by
    subst hq
    cases call with
    | execute plan => exact fun target h ↦ execute_decided hrun h
    | recover =>
        intro journal hjournal
        by_cases hspares : ∀ o before, .own o before ∈ events → o.Spares
        · exact .inr hspares
        · exact .inl fun target h ↦ (recover_decided hjournal hrun h).resolve_right hspares

/-- An external writer changes the workspace record just before a session over it. -/
theorem writeSession_keeps_foreign_bytes_sample : ∃ events after,
    KeepsForeignBytes sampleRules (.execute samplePlan) sampleStart
      (.env sampleStart (sampleStart.write ⟨.authority, .artifact "workspace.json"⟩ [0]) :: events)
      (.pure (((Call.execute samplePlan).command sampleRules sampleRuntime ()).run (machine sampleRules)
        (sampleStart.write ⟨.authority, .artifact "workspace.json"⟩ [0])).1) after := by
  obtain ⟨events, hrun⟩ := Run.of_run (M := machine sampleRules)
    ((Call.execute samplePlan).command sampleRules sampleRuntime ())
    (sampleStart.write ⟨.authority, .artifact "workspace.json"⟩ [0])
  have hforeign : Run (machine sampleRules) ExternalWrite _ _ events _ _ :=
    hrun.mono fun _ _ move ↦ move.elim
  exact ⟨_, _, writeSession_keeps_foreign_bytes sampleRules sampleRuntime (.execute samplePlan) sampleStart
    _ _ _ (.env ⟨rfl, rfl⟩ hforeign)⟩

end WorkStack.WriteSession
