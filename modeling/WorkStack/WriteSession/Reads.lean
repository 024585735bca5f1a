import WorkStack.Effect.Outcome
import WorkStack.WriteSession.Session

/-!
# What an undisturbed session reads

While nobody disturbs it, every reading part of a session returns a function of the disk. The two
that matter are the manifest of the authority and the check of the files before a target is applied.
-/

namespace WorkStack.WriteSession

open Effect Python
open Store (Digest)

variable {R : SessionRules} {disk : Disk} {m : Unit}

namespace Disk

@[simp] theorem file_write (disk : Disk) (location other : Location) (body : Bytes) :
    (disk.write location body).file other = if location = other then some body else disk.file other :=
  Dict.get_set ..

@[simp] theorem file_remove (disk : Disk) (location other : Location) :
    (disk.remove location).file other = if location = other then none else disk.file other :=
  Dict.get_erase ..

@[simp] theorem journal_write (disk : Disk) (location : Location) (body : Bytes) :
    (disk.write location body).journal = disk.journal := rfl

@[simp] theorem journal_remove (disk : Disk) (location : Location) :
    (disk.remove location).journal = disk.journal := rfl

theorem digest_congr {left right : Disk} {location : Location}
    (h : left.file location = right.file location) :
    left.digest R.sha256 location = right.digest R.sha256 location := by
  rw [digest, digest, h]

end Disk

/-- The files that `os.walk` finds below the authority root. -/
def Disk.walked (disk : Disk) : List FileName :=
  (disk.files.keys.filter fun location ↦ location.scope = .authority).map Location.name

theorem Disk.mem_walked (name : FileName) : name ∈ disk.walked ↔ (disk.authority name).isSome := by
  rw [walked, authority, file, ← Dict.mem_keys, List.mem_map]
  constructor
  · intro ⟨location, hmem, hname⟩
    rw [List.mem_filter, decide_eq_true_iff] at hmem
    rw [← hname, ← hmem.2]
    exact hmem.1
  · intro h
    exact ⟨⟨.authority, name⟩, List.mem_filter.mpr ⟨h, decide_eq_true rfl⟩, rfl⟩

/-! ## Single steps -/

theorem observes_walk : Command.Observes (machine R) disk (step .walk) m (.ok disk.walked) m :=
  ⟨rfl, rfl⟩

theorem observes_readFile (location : Location) :
    Command.Observes (machine R) disk (step (.readFile location)) m (.ok (disk.file location)) m :=
  ⟨rfl, rfl⟩

theorem observes_fileDigest (location : Location) :
    Command.Observes (machine R) disk (fileDigest R location) m
      (.ok (disk.digest R.sha256 location)) m :=
  .bind (observes_readFile location) (.pure _)

theorem observes_journal :
    Command.Observes (machine R) disk (step .readJournal) m (.ok disk.journal) m :=
  ⟨rfl, rfl⟩

theorem observes_manifest :
    Command.Observes (machine R) disk (step .readManifest) m (.ok disk.manifest) m :=
  ⟨rfl, rfl⟩

theorem observes_journalFileDigest :
    Command.Observes (machine R) disk (journalFileDigest R) m
      (.ok (disk.journal.map R.journalDigest)) m :=
  .bind observes_journal (.pure _)

theorem observes_journalStageExists :
    Command.Observes (machine R) disk (step .journalStageExists) m (.ok disk.journalStage.isSome) m :=
  ⟨rfl, rfl⟩

theorem observes_readJournal_none (h : disk.journal = none) :
    Command.Observes (machine R) disk (readJournal R) m (.ok none) m := by
  apply Command.Observes.bind observes_journal
  rw [h]
  exact .pure _

theorem observes_readJournal {journal : Journal} (h : disk.journal = some journal)
    (hvalid : parseWriteJournal R journal = .ok journal) :
    Command.Observes (machine R) disk (readJournal R) m (.ok (some journal)) m := by
  apply Command.Observes.bind observes_journal
  rw [h]
  have hparse : Command.Observes (machine R) disk (admitted (parseWriteJournal R journal)) m
      (.ok journal) m := by
    rw [hvalid]
    exact .ofExcept _
  exact .bind hparse (.pure _)

theorem observes_readRuntimeManifest {manifest : Manifest} (h : disk.manifest = some manifest)
    (hvalid : R.manifestDefect manifest = none) :
    Command.Observes (machine R) disk (readRuntimeManifest R) m (.ok (some manifest)) m := by
  apply Command.Observes.bind observes_manifest
  rw [h]
  dsimp only
  rw [hvalid]
  exact .pure _

theorem observes_currentManifestDigest {manifest : Manifest} (h : disk.manifest = some manifest)
    (hvalid : R.manifestDefect manifest = none) :
    Command.Observes (machine R) disk (currentManifestDigest R) m
      (.ok (some (R.manifestDigest manifest))) m :=
  .bind (observes_readRuntimeManifest h hvalid) (.pure _)

/-! ## The manifest of the authority -/

/-- Collecting the files that are listed and present leaves nothing of them out. -/
theorem observes_collectFiles {names : List FileName} (hpresent : ∀ name ∈ names, (disk.authority name).isSome)
    (files : FileName → Option Bytes) :
    Command.Observes (machine R) disk (Command.fold collectFile names files) m
      (.ok fun name ↦ if name ∈ names then disk.authority name else files name) m := by
  induction names generalizing files with
  | nil => exact .pure _
  | cons name names ih =>
      obtain ⟨body, hbody⟩ := Option.isSome_iff_exists.mp (hpresent name (List.mem_cons_self ..))
      have hread : Command.Observes (machine R) disk (collectFile files name) m
          (.ok (Function.update files name (some body))) m := by
        apply Command.Observes.bind (observes_readFile _)
        rw [show disk.file ⟨.authority, name⟩ = some body from hbody]
        exact .pure _
      have hrest := ih (fun other h ↦ hpresent other (List.mem_cons_of_mem _ h))
        (Function.update files name (some body))
      rw [Command.fold]
      apply Command.Observes.bind hread
      convert hrest using 2
      funext other
      by_cases hother : other = name
      · subst hother
        simp [hbody]
      · simp [hother]

theorem observes_collected :
    Command.Observes (machine R) disk (Command.fold collectFile disk.walked fun _ ↦ none) m
      (.ok disk.authority) m := by
  have hcollect := @observes_collectFiles R disk m disk.walked
    (fun name h ↦ (Disk.mem_walked name).mp h) fun _ ↦ none
  convert hcollect using 2
  funext name
  by_cases hname : name ∈ disk.walked
  · rw [if_pos hname]
  · rw [if_neg hname]
    simpa [Disk.mem_walked] using hname

theorem observes_readAuthority {read : AuthorityRead} (h : R.readV4 disk.authority = some read) :
    Command.Observes (machine R) disk (readAuthority R) m
      (.ok (read, rosterOf R read disk.authority)) m := by
  apply Command.Observes.bind observes_walk
  apply Command.Observes.bind observes_collected
  rw [h]
  exact .pure _

theorem observes_actualManifest {generation : ℕ} {manifest : Manifest}
    (h : manifestOf R generation disk.authority = some manifest) :
    Command.Observes (machine R) disk (actualManifest R generation) m (.ok manifest) m := by
  obtain ⟨read, hread, hbuild⟩ := Option.bind_eq_some_iff.mp h
  apply Command.Observes.bind (observes_readAuthority hread)
  apply Command.Observes.bind (observes_readAuthority hread)
  rw [if_neg (not_not.mpr rfl), hbuild]
  exact .pure _

theorem observes_verifyBaseline {base : Manifest} (h : disk.manifest = some base)
    (hvalid : R.manifestDefect base = none)
    (hactual : manifestOf R base.generation disk.authority = some base) :
    Command.Observes (machine R) disk (verifyBaseline R) m (.ok base) m := by
  apply Command.Observes.bind (observes_readRuntimeManifest h hvalid)
  apply Command.Observes.bind (observes_actualManifest hactual)
  rw [if_neg (not_not.mpr rfl)]
  exact .pure _

/-! ## The check of the files -/

/-- What `_verify_recovery_state` asks of the disk. -/
structure Recoverable (R : SessionRules) (runtime : RuntimeAuthority) (journal : Journal)
    (reference : Manifest) (disk : Disk) : Prop where
  roster : (reference.roster.map Prod.fst).Nodup
  known : ∀ name, (disk.authority name).isSome → name ∈ ignoredStagePaths R journal ∨
    ∃ path, name = .artifact path ∧ isAuthorityArtifact path ∧
      (path ∈ reference.roster.map Prod.fst ∨
        ∃ target ∈ journal.targets, target.scope = .authority ∧ target.artifact = path)
  unrelated : ∀ entry ∈ reference.roster,
    (∃ target ∈ journal.targets, target.scope = .authority ∧ target.artifact = entry.1) ∨
      disk.digest R.sha256 ⟨.authority, .artifact entry.1⟩ = some entry.2
  paths : ∀ target ∈ journal.targets, targetPath R runtime target = .ok target.location
  targets : ∀ target ∈ journal.targets,
    disk.digest R.sha256 target.location = target.expectedDigest ∨
      disk.digest R.sha256 target.location = target.proposedDigest

theorem foldlM_physicalArtifact {ignored names : List FileName} {known : List String}
    (h : ∀ name ∈ names, name ∈ ignored ∨ ∃ path, name = .artifact path ∧ isAuthorityArtifact path ∧
      path ∈ known) {artifacts : List String} (hartifacts : artifacts ⊆ known) :
    ∃ found, names.foldlM (physicalArtifact ignored) artifacts = .ok found ∧ found ⊆ known := by
  induction names generalizing artifacts with
  | nil => exact ⟨artifacts, rfl, hartifacts⟩
  | cons name names ih =>
      have hrest := fun other hother ↦ h other (List.mem_cons_of_mem _ hother)
      rw [List.foldlM_cons]
      by_cases hignored : name ∈ ignored
      · have hstep : physicalArtifact ignored artifacts name = .ok artifacts := if_pos hignored
        rw [hstep]
        exact ih hrest hartifacts
      · obtain ⟨path, rfl, hpath, hknown⟩ := (h name (List.mem_cons_self ..)).resolve_left hignored
        have hstep : physicalArtifact ignored artifacts (.artifact path) = .ok (path :: artifacts) := by
          simp [physicalArtifact, hignored, hpath]
        rw [hstep]
        exact ih hrest (List.cons_subset.mpr ⟨hknown, hartifacts⟩)

theorem observes_each {ι : Type} {body : Unit → ι → SessionCommand Unit} {items : List ι}
    (h : ∀ item ∈ items, Command.Observes (machine R) disk (body () item) m (.ok ()) m) :
    Command.Observes (machine R) disk (Command.fold body items ()) m (.ok ()) m := by
  have hfold := Command.Observes.fold_ok (g := fun _ _ ↦ ()) (fun _ item hitem ↦ h item hitem) ()
  exact hfold

theorem Recoverable.observes {runtime : RuntimeAuthority} {journal : Journal} {reference : Manifest}
    (h : Recoverable R runtime journal reference disk) :
    Command.Observes (machine R) disk (verifyRecoveryState R runtime journal reference) m (.ok ()) m := by
  have hroster : Command.Observes (machine R) disk (admitted (manifestArtifacts reference)) m
      (.ok reference.roster) m := by
    rw [manifestArtifacts, if_pos h.roster]
    exact .ofExcept _
  let authorityTargets := journal.targets.filter fun target ↦ target.scope = .authority
  have hknown : ∀ name ∈ disk.walked, name ∈ ignoredStagePaths R journal ∨ ∃ path,
      name = .artifact path ∧ isAuthorityArtifact path ∧
        path ∈ reference.roster.map Prod.fst ++ authorityTargets.map JournalTarget.artifact := by
    intro name hname
    apply (h.known name ((Disk.mem_walked name).mp hname)).imp_right
    intro ⟨path, heq, hpath, hknown⟩
    refine ⟨path, heq, hpath, List.mem_append.mpr (hknown.imp_right ?_)⟩
    intro ⟨target, hmem, hscope, hartifact⟩
    exact List.mem_map.mpr ⟨target, List.mem_filter.mpr ⟨hmem, decide_eq_true hscope⟩, hartifact⟩
  obtain ⟨found, hfound, hsubset⟩ := foldlM_physicalArtifact hknown (List.nil_subset _)
  have hphysical : Command.Observes (machine R) disk (physicalAuthorityArtifacts R journal) m
      (.ok found) m := by
    apply Command.Observes.bind observes_walk
    rw [hfound]
    exact .ofExcept _
  apply Command.Observes.bind hroster
  apply Command.Observes.bind hphysical
  have hadded : ¬¬found ⊆ Dict.keys reference.roster ++ (journal.targets.filter fun target ↦
      target.scope = .authority).map JournalTarget.artifact := not_not.mpr hsubset
  rw [if_neg hadded]
  apply Command.Observes.bind (a := ())
  · apply observes_each
    intro entry hentry
    rw [verifyUnrelated]
    by_cases htarget : ∃ target ∈ journal.targets, target.scope = .authority ∧ target.artifact = entry.1
    · rw [if_pos (by simpa [List.any_eq_true] using htarget)]
      exact .pure _
    · rw [if_neg (by simpa [List.any_eq_true] using htarget)]
      apply Command.Observes.bind (observes_fileDigest _)
      rw [if_neg (not_not.mpr ((h.unrelated entry hentry).resolve_left htarget))]
      exact .pure _
  · apply observes_each
    intro target htarget
    rw [verifyTarget, h.paths target htarget]
    apply Command.Observes.bind (.ofExcept _)
    apply Command.Observes.bind (observes_fileDigest _)
    rw [if_neg]
    · exact .pure _
    · intro ⟨hexpected, hproposed⟩
      exact (h.targets target htarget).elim hexpected hproposed

end WorkStack.WriteSession
