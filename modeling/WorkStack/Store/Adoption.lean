import WorkStack.Effect.History
import WorkStack.Store.Footprint
import WorkStack.Store.CrashAtomicity

/-!
# Adoption of a reviewed candidate

An adoption inspects the candidate twice, compares it with what the caller reviewed, and then reads
everything once more to build the manifest. No check connects the last reads with the inspections:
an edit that falls between them is adopted although nobody reviewed it. As long as every document
still is what it was when the last inspection first read it, the manifest is the reviewed one.
-/

namespace WorkStack.Store

open Effect

/-- Which documents are still what they were when the current candidate was first read. -/
def held (R : StoreRules) : Recorder (machine R) (DocName → Bool) where
  own o _ held := match o with
    | .readBytes .candidateHash name => Function.update held name true
    | _ => held
  env u v held := fun name ↦ held name && decide (u.docs name = v.docs name)

/-- The manifest of an adoption is built from the bodies that the caller reviewed. -/
structure AdoptedAsReviewed (R : StoreRules) (expectedGeneration : ℕ) (expectedManifestDigest : Digest)
    (previous manifest : Manifest) : Prop where
  generation : manifest.generation = expectedGeneration + 1
  bodies : ∃ docs, Complete docs ∧ manifest.files = hashesOf R docs ∧
    tasksOf R docs = .ok manifest.tasks
  reviewed : candidateDigest R {
    workspaceId := manifest.workspaceId
    storeSchemaVersion := previous.storeSchemaVersion
    generation := expectedGeneration
    files := manifest.files
    tasks := manifest.tasks } = expectedManifestDigest
  advanced : validateCandidateTasks previous.tasks manifest.tasks = .ok ()

section Contract

variable {R : StoreRules} {e : ℕ} {d : Digest}

/-- No document was edited since the current candidate was first read. -/
def Calm (u : Disk × (DocName → Bool)) : Prop := ∀ name, u.2 name = true

/-- The editor, with what a committed manifest has to be in a calm world. -/
def adoptContract (R : StoreRules) (expectedGeneration : ℕ) (expectedManifestDigest : Digest) :
    Contract (held R).machine where
  rely u v := Disk.ExternalEdit u.1 v.1 ∧
    ∀ name, v.2 name = true → u.2 name = true ∧ u.1.docs name = v.1.docs name
  assume _ _ := True
  ensure o u := match o with
    | .writeManifest .committed manifest => Calm u → ∃ previous, u.1.manifest = some previous ∧
        AdoptedAsReviewed R expectedGeneration expectedManifestDigest previous manifest
    | _ => True
  rely_refl u := ⟨.refl u.1, fun _ h ↦ ⟨h, rfl⟩⟩
  rely_trans u v w h h' := ⟨.trans u.1 v.1 w.1 h.1 h'.1, fun name hname ↦
    ⟨(h.2 name (h'.2 name hname).1).1, (h.2 name (h'.2 name hname).1).2.trans (h'.2 name hname).2⟩⟩

theorem adoptContract_rely {u v : Disk × (DocName → Bool)} (edit : Disk.ExternalEdit u.1 v.1)
    (h : v.2 = (held R).env u.1 v.1 u.2) :
    (adoptContract R e d).rely u v := by
  refine ⟨edit, fun name hname ↦ ?_⟩
  rw [h] at hname
  exact ⟨(Bool.and_eq_true_iff.mp hname).1, of_decide_eq_true (Bool.and_eq_true_iff.mp hname).2⟩

theorem held_own_later {o : DiskOp} (ho : LaterRead o) (u : Disk) (t : DocName → Bool) :
    (held R).own o u t = t := by
  cases o with
  | readBytes site name =>
      cases site with
      | candidateHash => exact absurd rfl ho.2
      | _ => rfl
  | _ => rfl

theorem perform_later {o : DiskOp} (ho : LaterRead o) (u : Disk × (DocName → Bool)) :
    ((held R).machine.perform o u).2 = u :=
  Prod.ext (Disk.perform_reads ho.1.1 u.1) (held_own_later (R := R) ho u.1 u.2)

theorem calms : Calms (adoptContract R e d) LaterRead Calm where
  rely u v hrely hcalm := by
    have hdocs : u.1.docs = v.1.docs := funext fun name ↦ (hrely.2 name (hcalm name)).2
    have hheld : u.2 = v.2 := funext fun name ↦
      (hrely.2 name (hcalm name)).1.trans (hcalm name).symm
    obtain ⟨⟨hjournal, hmanifest, hreceipt⟩, -⟩ := hrely
    exact Prod.ext (Disk.ext hdocs hjournal.symm hmanifest.symm hreceipt.symm) hheld
  own o u ho hcalm := by
    exact perform_later (R := R) ho u ▸ hcalm
  ensure o u ho := by
    cases o with
    | writeManifest site manifest => exact ho.1.1.elim
    | _ => trivial

end Contract

/-! ## Rules -/

section Rules

variable {R : StoreRules} {e : ℕ} {d : Digest} {m : Process} {w : Disk × (DocName → Bool)}
variable {α : Type} {c : StoreCommand α}

/-- The manifest and the generation of the process are what they were. -/
def Kept (m : Process) (w : Disk × (DocName → Bool)) (n : Process) (u : Disk × (DocName → Bool)) :
    Prop :=
  u.1.manifest = w.1.manifest ∧ n.generation = m.generation

theorem Kept.trans {n k : Process} {u v : Disk × (DocName → Bool)} (h : Kept m w n u)
    (h' : Kept n u k v) : Kept m w k v := ⟨h'.1.trans h.1, h'.2.trans h.2⟩

/-- A command that publishes nothing keeps the manifest and the generation of the process. -/
theorem wp_adopt_unpublished (hc : Command.Within (sameGeneration DiskOp.Unpublished) c) :
    Command.wp (adoptContract R e d) c (fun _ ↦ Kept m w) (fun _ ↦ Kept m w) m w := by
  apply Command.Within.wp (C := adoptContract R e d)
    (I := fun u : Disk × (DocName → Bool) ↦ u.1.manifest = w.1.manifest) hc
  · intro u v hu hrely
    exact hrely.1.2.1.trans hu
  · intro o u ho hu _
    cases o with
    | writeManifest site manifest => exact ho.elim
    | replaceDoc name expectation value =>
        refine ⟨trivial, ?_⟩
        change ((u.1.perform R.sha256 (.replaceDoc name expectation value)).2).manifest = _
        rw [Disk.perform]
        split_ifs
        · exact hu
        · exact hu
    | _ => exact ⟨trivial, hu⟩
  · rfl

/-- A command that publishes no committed manifest has nothing to show. -/
theorem wp_adopt_uncommitted (hc : Command.Within (.any DiskOp.Uncommitted) c) :
    Command.wp (adoptContract R e d) c (fun _ _ _ ↦ True) (fun _ _ _ ↦ True) m w := by
  have hwp := Command.Within.wp (C := adoptContract R e d) (I := fun _ ↦ True) (m := m) (w := w) hc
    ?_ ?_ trivial
  · exact Command.wp_mono hwp (fun _ _ _ _ ↦ trivial) fun _ _ _ _ ↦ trivial
  · exact fun _ _ _ _ ↦ trivial
  · intro o u ho _ _
    refine ⟨?_, trivial⟩
    cases o with
    | writeManifest site manifest =>
        cases site with
        | committed => exact absurd rfl ho
        | _ => trivial
    | _ => trivial

/-- Reads that start no candidate keep what is known of a calm world. -/
theorem wp_adopt_later (Φ : Disk × (DocName → Bool) → Prop)
    (hc : Command.Within (sameGeneration LaterRead) c) (hw : Calm w → Φ w) :
    Command.wp (adoptContract R e d) c (fun _ n u ↦ Kept m w n u ∧ (Calm u → Φ u))
      (fun _ ↦ Kept m w) m w := by
  have hwp := Command.Within.wp (C := adoptContract R e d) (m := m) (w := w)
    (I := fun u : Disk × (DocName → Bool) ↦ u.1.manifest = w.1.manifest ∧ (Calm u → Φ u)) hc
    ?_ ?_ ⟨rfl, hw⟩
  · exact Command.wp_mono hwp (fun _ _ _ h ↦ ⟨⟨h.1.1, h.2⟩, h.1.2⟩) fun _ _ _ h ↦ ⟨h.1.1, h.2⟩
  · intro u v hu hrely
    refine ⟨hrely.1.2.1.trans hu.1, fun hcalm ↦ ?_⟩
    rw [← calms.rely u v hrely hcalm]
    exact hu.2 (calms.rely u v hrely hcalm ▸ hcalm)
  · intro o u ho hu _
    exact ⟨calms.ensure o u ho, (perform_later (R := R) ho u).symm ▸ hu⟩

/-- What a reading command shows of the documents, it has shown if the world is still calm. -/
theorem wp_adopt_observed {outcome : Except StoreError α} (hc : Command.Within (.same LaterRead) c)
    (hobserves : Calm w → Command.Observes (machine R) w.1 c m outcome m) :
    Command.wp (adoptContract R e d) c
      (fun a n u ↦ Kept m w n u ∧ (Calm u → outcome = .ok a ∧ u = w)) (fun _ ↦ Kept m w) m w := by
  have hmonitored : Calm w → Command.Observes (held R).machine w c m outcome m := fun hw ↦
    (held R).observes (hobserves hw) (hc m) (fun o u t ho ↦ held_own_later ho u t) w.2
  have hcalm := (calms (R := R) (e := e) (d := d)).wp_command hc hmonitored
  exact Command.wp_mono (Command.wp_and (wp_adopt_unpublished (Within.unpublished hc)) hcalm)
    (fun _ _ _ h ↦ h) fun _ _ _ h ↦ h.1

end Rules

/-! ## Inspection -/

section Inspection

variable {R : StoreRules} {e : ℕ} {d : Digest} {m : Process} {w : Disk × (DocName → Bool)}

/-- What an inspection has checked of a candidate. -/
structure SoundCandidate (R : StoreRules) (manifest : Manifest) (docs : Docs) (workspaceId : String) :
    Prop where
  complete : Complete docs
  readiness : ∃ readiness, verdictOf R docs = .ok readiness ∧ readiness.workspaceUid = workspaceId
  identity : workspaceId = manifest.workspaceId
  tasks : ∃ tasks, tasksOf R docs = .ok tasks ∧ validateCandidateTasks manifest.tasks tasks = .ok ()

/-- In a calm world, a candidate that an inspection admits is sound and made of the documents. -/
def SoundInspection (R : StoreRules) (manifest : Manifest) (inspection : Inspection)
    (u : Disk × (DocName → Bool)) : Prop :=
  inspection.validationError = none → inspection.changedFiles ≠ [] → Calm u →
    SoundCandidate R manifest u.1.docs inspection.candidateWorkspaceId ∧
      inspection.currentHashes = hashesOf R u.1.docs

/-- The reading of a candidate notes every document with the digest it had. -/
theorem wp_adopt_candidateHashes :
    Command.wp (adoptContract R e d) (authoritativeHashes R .candidateHash)
      (fun hashes n u ↦ Kept m w n u ∧
        (Calm u → Complete u.1.docs ∧ hashes = hashesOf R u.1.docs)) (fun _ ↦ Kept m w) m w := by
  have hloop := Command.wp_fold (C := adoptContract R e d) (m := m) (w := w)
    (R := fun _ ↦ Kept m w) (hashDocument R .candidateHash)
    (I := fun names hashes n u ↦ Kept m w n u ∧ ∀ name, name ∉ names → u.2 name = true →
      ∃ body, u.1.docs name = some body ∧ hashes name = some (R.sha256 body))
    ?_ DocName.sortedDefaults (fun _ ↦ none)
    ⟨⟨rfl, rfl⟩, fun name h ↦ absurd (DocName.mem_sortedDefaults name) h⟩
  · apply Command.wp_mono hloop
    · intro hashes n u h
      refine ⟨h.1, fun hcalm ↦ ⟨fun name ↦ ?_, funext fun name ↦ ?_⟩⟩
      · obtain ⟨body, hbody, -⟩ := h.2 name List.not_mem_nil (hcalm name)
        exact ⟨body, hbody⟩
      · obtain ⟨body, hbody, hhash⟩ := h.2 name List.not_mem_nil (hcalm name)
        rw [hhash, hashesOf, hbody]
        rfl
    · exact fun _ _ _ h ↦ h
  · intro hashes name names n u h
    rw [hashDocument, Command.wp_bind]
    intro v hrely _
    have hkept : Kept m w n v := ⟨hrely.1.2.1.trans h.1.1, h.1.2⟩
    refine ⟨trivial, ?_⟩
    cases hbody : v.1.docs name with
    | none =>
        rw [show (((held R).machine.perform (.readBytes .candidateHash name) v)) =
          (none, v.1, Function.update v.2 name true) from Prod.ext hbody rfl]
        exact hkept
    | some body =>
        rw [show (((held R).machine.perform (.readBytes .candidateHash name) v)) =
          (some body, v.1, Function.update v.2 name true) from Prod.ext hbody rfl]
        refine ⟨hkept, fun other hother hheld ↦ ?_⟩
        by_cases hname : other = name
        · subst hname
          exact ⟨body, hbody, Function.update_self ..⟩
        · have hheld : v.2 other = true := (Function.update_of_ne hname true v.2).symm.trans hheld
          obtain ⟨hu, hsame⟩ := hrely.2 other hheld
          obtain ⟨body', hbody', hhash⟩ := h.2 other (by simp [hname, hother]) hu
          exact ⟨body', hsame ▸ hbody', by rw [Function.update_of_ne hname, hhash]⟩

theorem wp_adopt_invalidCandidate (manifest : Manifest) (workspaceId : String) (error : StoreError) :
    Command.wp (adoptContract R e d) (invalidCandidate R manifest workspaceId error)
      (fun inspection n u ↦ Kept m w n u ∧ SoundInspection R manifest inspection u)
      (fun _ ↦ Kept m w) m w := by
  cases error with
  | corrupt message =>
      apply Command.wp_seq
        (wp_adopt_unpublished (Within.unpublished (within_invalidCandidateChangedFiles manifest)))
      · intro changed n u h
        exact ⟨h, fun hnone ↦ nomatch hnone⟩
      · exact fun _ _ _ h ↦ h
  | _ => exact ⟨rfl, rfl⟩

/-- The checks of a candidate, from what is known of the documents in a calm world. -/
theorem wp_adopt_admitCandidate (manifest : Manifest) (hashes : Files) (changed : List DocName)
    (readiness : StoreReadiness)
    (hw : Calm w → Complete w.1.docs ∧ hashes = hashesOf R w.1.docs ∧
      verdictOf R w.1.docs = .ok readiness) :
    Command.wp (adoptContract R e d)
      (admitExternalCandidate R manifest hashes changed readiness.workspaceUid)
      (fun inspection n u ↦ Kept m w n u ∧ SoundInspection R manifest inspection u)
      (fun _ ↦ Kept m w) m w := by
  rw [admitExternalCandidate, Command.wp_bind, validateExternalCandidate]
  split_ifs with hidentity
  · exact ⟨rfl, rfl⟩
  apply Command.wp_seq
    (wp_adopt_observed within_taskSemanticsLocked fun _ ↦ observes_taskSemanticsLocked)
  · rintro tasks n u ⟨hkept, htasks⟩
    rw [Command.wp_bind]
    refine Command.wp_ofExcept _ (fun _ hchecked ↦ ?_) fun _ _ ↦ hkept
    let Sound (v : Disk × (DocName → Bool)) : Prop :=
      SoundCandidate R manifest v.1.docs readiness.workspaceUid ∧ hashes = hashesOf R v.1.docs
    have hsound : Calm u → Sound u := by
      intro hcalm
      obtain ⟨htasks, rfl⟩ := htasks hcalm
      obtain ⟨hcomplete, hhashes, hverdict⟩ := hw hcalm
      refine ⟨⟨hcomplete, ⟨readiness, hverdict, rfl⟩, not_not.mp hidentity, tasks, htasks, ?_⟩, hhashes⟩
      cases hvalid : validateCandidateTasks manifest.tasks tasks with
      | ok => rfl
      | error message =>
          rw [hvalid] at hchecked
          cases hchecked
    apply Command.wp_seq
      (wp_adopt_later Sound (Within.generation (within_laterHashes (by decide))) hsound)
    · rintro recheck n' v ⟨hkept', hfacts⟩
      split_ifs
      · exact hkept.trans hkept'
      · exact ⟨hkept.trans hkept', fun _ _ hcalm ↦ hfacts hcalm⟩
    · exact fun _ _ _ h ↦ hkept.trans h
  · exact fun _ _ _ h ↦ h

theorem wp_adopt_inspectCandidate (manifest : Manifest) :
    Command.wp (adoptContract R e d) (inspectCandidate R manifest)
      (fun inspection n u ↦ Kept m w n u ∧ SoundInspection R manifest inspection u)
      (fun _ ↦ Kept m w) m w := by
  have hinvalid : ∀ workspaceId error n u, Kept m w n u →
      Command.wp (adoptContract R e d) (invalidCandidate R manifest workspaceId error)
        (fun inspection n u ↦ Kept m w n u ∧ SoundInspection R manifest inspection u)
        (fun _ ↦ Kept m w) n u := by
    intro workspaceId error n u h
    exact Command.wp_mono (wp_adopt_invalidCandidate manifest workspaceId error)
      (fun _ _ _ h' ↦ ⟨h.trans h'.1, h'.2⟩) fun _ _ _ h' ↦ h.trans h'
  rw [inspectCandidate, Command.wp_catching, tryCandidate]
  apply Command.wp_seq wp_adopt_candidateHashes
  · rintro hashes n u ⟨hkept, hfacts⟩
    dsimp only
    split_ifs with hchanged
    · exact ⟨hkept, fun _ hne ↦ absurd hchanged hne⟩
    apply Command.wp_seq
      (wp_adopt_observed within_validateReadyState fun _ ↦ observes_validateReadyState)
    · rintro readiness n' v ⟨hkept', hverdict⟩
      rw [Command.wp_catching]
      have hv : Calm v → Complete v.1.docs ∧ hashes = hashesOf R v.1.docs ∧
          verdictOf R v.1.docs = .ok readiness := by
        intro hcalm
        obtain ⟨hverdict, rfl⟩ := hverdict hcalm
        exact ⟨(hfacts hcalm).1, (hfacts hcalm).2, hverdict⟩
      apply Command.wp_mono (wp_adopt_admitCandidate manifest hashes _ readiness hv)
      · exact fun _ _ _ h ↦ ⟨(hkept.trans hkept').trans h.1, h.2⟩
      · intro error k x h
        apply Command.wp_mono (hinvalid readiness.workspaceUid error k x ((hkept.trans hkept').trans h))
        · exact fun _ _ _ h ↦ h
        · exact fun _ _ _ h ↦ hinvalid _ _ _ _ h
    · exact fun error n' v h ↦ hinvalid _ error n' v (hkept.trans h)
  · exact fun error n u h ↦ hinvalid _ error n u h

theorem wp_adopt_readManifest :
    Command.wp (adoptContract R e d) readManifest
      (fun read n u ↦ read = w.1.manifest ∧ Kept m w n u) (fun _ ↦ Kept m w) m w := by
  rw [readManifest, Command.wp_bind]
  intro u hrely _
  have hkept : Kept m w m u := ⟨hrely.1.2.1, rfl⟩
  refine ⟨trivial, ?_⟩
  rw [← hrely.1.2.1]
  cases hmanifest : u.1.manifest with
  | none =>
      rw [show ((held R).machine.perform .readManifest u) = (none, u.1, u.2) from Prod.ext hmanifest rfl]
      exact ⟨rfl, hkept⟩
  | some manifest =>
      rw [show ((held R).machine.perform .readManifest u) = (some manifest, u.1, u.2) from
        Prod.ext hmanifest rfl]
      exact (Command.wp_bind _ _).mpr
        (Command.wp_ofExcept _ (fun _ _ ↦ ⟨rfl, hkept⟩) fun _ _ ↦ hkept)

/-- The process is not ahead of the committed manifest. -/
def NotAhead (m : Process) (u : Disk × (DocName → Bool)) : Prop :=
  ∀ manifest, u.1.manifest = some manifest → m.generation ≤ manifest.generation

theorem Kept.notAhead {n : Process} {u : Disk × (DocName → Bool)} (h : Kept m w n u)
    (hahead : NotAhead m w) : NotAhead n u := by
  intro manifest hmanifest
  rw [h.2]
  exact hahead manifest (h.1 ▸ hmanifest)

/-- After an inspection has made sure of the manifest, the process is not ahead of it. -/
theorem wp_adopt_ensureSyncManifest (hahead : NotAhead m w) :
    Command.wp (adoptContract R e d) (ensureSyncManifest R)
      (fun manifest n u ↦ u.1.manifest = some manifest ∧ n.generation ≤ manifest.generation ∧
        (w.1.manifest.isSome → u.1.manifest = w.1.manifest)) (fun _ _ _ ↦ True) m w := by
  rw [ensureSyncManifest]
  apply Command.wp_seq wp_adopt_readManifest
  · rintro read n u ⟨rfl, hkept⟩
    cases hmanifest : w.1.manifest with
    | some manifest =>
        refine ⟨hkept.1.trans hmanifest, ?_, fun _ ↦ hkept.1.trans hmanifest⟩
        exact hkept.notAhead hahead manifest (hkept.1.trans hmanifest)
    | none =>
        apply Command.wp_seq (wp_adopt_unpublished (Within.unpublished within_validateReadyState))
        · intro readiness n u _
          rw [Command.wp_bind, Command.wp_memory]
          apply Command.wp_seq
            (wp_adopt_unpublished (Within.unpublished (within_laterHashes (by decide))))
          · intro files k v hv
            apply Command.wp_seq (wp_adopt_unpublished (Within.unpublished within_taskSemanticsLocked))
            · intro tasks k' v' hv'
              rw [Command.wp_bind]
              intro x _ _
              refine ⟨trivial, rfl, ?_, nofun⟩
              rw [show k'.generation = n.generation from hv'.2.trans hv.2]
              exact le_max_left ..
            · exact fun _ _ _ _ ↦ trivial
          · exact fun _ _ _ _ ↦ trivial
        · exact fun _ _ _ _ ↦ trivial
  · exact fun _ _ _ _ ↦ trivial

/-- These documents and tasks as a candidate beside a manifest. -/
def candidateOf (R : StoreRules) (manifest : Manifest) (docs : Docs) (tasks : Tasks) : Candidate where
  workspaceId := manifest.workspaceId
  storeSchemaVersion := manifest.storeSchemaVersion
  generation := manifest.generation
  files := hashesOf R docs
  tasks

/-- The digest is the one of these documents as a candidate, and they are a sound one. -/
def DigestOfCandidate (R : StoreRules) (manifest : Manifest) (docs : Docs) (digest : Digest) : Prop :=
  SoundCandidate R manifest docs manifest.workspaceId ∧ ∃ tasks,
    tasksOf R docs = .ok tasks ∧ digest = candidateDigest R (candidateOf R manifest docs tasks)

/-- What an inspection reports of the manifest and, in a calm world, of the candidate. -/
structure Inspected (R : StoreRules) (status : SyncStatus) (manifest : Manifest) (n : Process)
    (u : Disk × (DocName → Bool)) : Prop where
  committed : u.1.manifest = some manifest
  notAhead : n.generation = manifest.generation
  generation : status.generation = manifest.generation
  detected : status.status = .externalChangeDetected → status.candidateDigest.isSome
  candidate : ∀ digest, status.candidateDigest = some digest → Calm u →
    DigestOfCandidate R manifest u.1.docs digest

/-- The digest of a sound candidate is taken over the documents of a calm world. -/
theorem wp_adopt_candidateManifestDigest (manifest : Manifest) (inspection : Inspection)
    (hw : SoundInspection R manifest inspection w) :
    Command.wp (adoptContract R e d) (candidateManifestDigest R manifest inspection)
      (fun digest n u ↦ Kept m w n u ∧
        (inspection.validationError = none → inspection.changedFiles ≠ [] → digest.isSome) ∧
        ∀ known, digest = some known → Calm u → DigestOfCandidate R manifest u.1.docs known)
      (fun _ _ _ ↦ True) m w := by
  rw [candidateManifestDigest]
  split_ifs with hnone
  · refine ⟨⟨rfl, rfl⟩, fun hvalid hchanged ↦ ?_, nofun⟩
    rcases hnone with h | h
    · rw [hvalid] at h
      cases h
    · exact absurd h hchanged
  rw [not_or] at hnone
  apply Command.wp_seq
    (wp_adopt_observed within_taskSemanticsLocked fun _ ↦ observes_taskSemanticsLocked)
  · rintro tasks n u ⟨hkept, htasks⟩
    refine ⟨hkept, fun _ _ ↦ rfl, fun known hknown hcalm ↦ ?_⟩
    obtain ⟨htasks, rfl⟩ := htasks hcalm
    obtain ⟨hsound, hhashes⟩ := hw (by simpa using hnone.1) hnone.2 hcalm
    cases hknown
    have hidentity := hsound.identity
    rw [hidentity] at hsound
    exact ⟨hsound, tasks, htasks, by rw [hhashes, hidentity]; rfl⟩
  · exact fun _ _ _ _ ↦ trivial

theorem wp_adopt_inspectSync (hahead : NotAhead m w) :
    Command.wp (adoptContract R e d) (inspectSync R)
      (fun status n u ↦ (∃ manifest, Inspected R status manifest n u) ∧
        (w.1.manifest.isSome → u.1.manifest = w.1.manifest)) (fun _ _ _ ↦ True) m w := by
  rw [inspectSync]
  apply Command.wp_seq (wp_adopt_ensureSyncManifest hahead)
  · rintro manifest n u ⟨hmanifest, hbound, hsame⟩
    rw [Command.wp_bind, Command.wp_remember]
    apply Command.wp_seq (wp_adopt_inspectCandidate manifest)
    · rintro inspection k v ⟨hkept, hsound⟩
      have hfacts : Calm v → SoundInspection R manifest inspection v := fun _ ↦ hsound
      apply Command.wp_seq (wp_adopt_later (fun x ↦ SoundInspection R manifest inspection x)
        (within_rememberInspection inspection) hfacts)
      · rintro ⟨⟩ k' v' ⟨hkept', hsound'⟩
        have hsound' : SoundInspection R manifest inspection v' := fun hvalid hchanged hcalm ↦
          hsound' hcalm hvalid hchanged hcalm
        apply Command.wp_seq (wp_adopt_candidateManifestDigest manifest inspection hsound')
        · rintro digest x y ⟨hkept'', hsome, hdigest⟩
          have hall := (hkept.trans hkept').trans hkept''
          refine ⟨⟨manifest, hall.1.trans hmanifest, hall.2.trans (max_eq_right hbound), rfl, ?_, ?_⟩, ?_⟩
          · intro hdetected
            have hstate : syncInspectionState inspection.changedFiles inspection.validationError =
                .externalChangeDetected := hdetected
            rw [syncInspectionState] at hstate
            split_ifs at hstate with hinvalid hempty
            · exact hsome (by simpa using hinvalid) hempty
          · exact hdigest
          · exact fun hpresent ↦ hall.1.trans (hsame hpresent)
        · exact fun _ _ _ _ ↦ trivial
      · exact fun _ _ _ _ ↦ trivial
    · exact fun _ _ _ _ ↦ trivial
  · exact fun _ _ _ _ ↦ trivial

end Inspection

/-! ## Recovery before an adoption -/

section Recovery

variable {R : StoreRules} {e : ℕ} {d : Digest} {m : Process} {w : Disk × (DocName → Bool)}

/-- A local baseline is published with the generation the process moves to. -/
theorem wp_adopt_writeLocalBaseline (previous : Manifest) (files : Files) (tasks : Tasks)
    (changedFiles : List DocName) :
    Command.wp (adoptContract R e d) (writeLocalBaseline previous files tasks changedFiles)
      (fun _ ↦ NotAhead) (fun _ _ _ ↦ True) m w := by
  rw [writeLocalBaseline, advanceGeneration, Command.wp_bind, Command.wp_bind, Command.wp_memory,
    Command.wp_bind, Command.wp_remember, Command.wp_pure, Command.wp_bind]
  intro u _ _
  refine ⟨trivial, ?_⟩
  set published : Manifest := {
    version := 1
    workspaceId := previous.workspaceId
    storeSchemaVersion := previous.storeSchemaVersion
    generation := max m.generation previous.generation + 1
    files
    tasks }
  have hahead : NotAhead { m with generation := max m.generation previous.generation + 1 }
      ({ u.1 with manifest := some published }, u.2) := by
    intro manifest hmanifest
    cases hmanifest
    exact le_rfl
  have hrest : Command.Within (sameGeneration DiskOp.Unpublished) (do
      rememberInSync
      emitEvent "store.committed" previous.workspaceId changedFiles) :=
    .bind within_rememberInSync fun _ ↦ within_emitEvent _ _ _
  exact Command.wp_mono (wp_adopt_unpublished hrest) (fun _ _ _ h ↦ h.notAhead hahead)
    fun _ _ _ _ ↦ trivial

theorem wp_adopt_finishRecovery (baseline : Option Manifest) (writes : Writes)
    (hnone : baseline = none → w.1.manifest = none) :
    Command.wp (adoptContract R e d) (finishRecovery R baseline writes)
      (fun _ ↦ NotAhead) (fun _ _ _ ↦ True) m w := by
  have hunlink : Command.Within (sameGeneration DiskOp.Unpublished)
      (step .unlinkJournal : StoreCommand Unit) := within_step trivial
  cases baseline with
  | some manifest =>
      apply Command.wp_seq (wp_adopt_unpublished ((within_localBaselineTasks _ _ _).mono
        (fun _ h ↦ h.1.unpublished) fun _ _ h ↦ h ▸ rfl))
      · intro tasks n u _
        apply Command.wp_seq (wp_adopt_writeLocalBaseline _ _ _ _)
        · intro _ k v hahead
          apply Command.wp_seq (wp_adopt_unpublished hunlink)
          · intro _ k' v' hkept
            apply Command.wp_seq (wp_adopt_inspectSync (hkept.notAhead hahead))
            · rintro status x y ⟨⟨manifest, hinspected⟩, -⟩ known hknown
              have hsame : manifest = known := Option.some.inj (hinspected.committed.symm.trans hknown)
              exact (hsame ▸ hinspected.notAhead).le
            · exact fun _ _ _ _ ↦ trivial
          · exact fun _ _ _ _ ↦ trivial
        · exact fun _ _ _ _ ↦ trivial
      · exact fun _ _ _ _ ↦ trivial
  | none =>
      apply Command.wp_seq (wp_adopt_unpublished hunlink)
      · intro _ n u hkept manifest hmanifest
        rw [hkept.1.trans (hnone rfl)] at hmanifest
        cases hmanifest
      · exact fun _ _ _ _ ↦ trivial

/-- A replay leaves the process ahead of the manifest only where it replays over an older schema. -/
theorem wp_adopt_replayJournal (journal : Journal)
    (hschema : ∀ manifest, w.1.manifest = some manifest →
      manifest.storeSchemaVersion = storeSchemaVersion) :
    Command.wp (adoptContract R e d) (replayJournal R journal) (fun _ ↦ NotAhead)
      (fun _ _ _ ↦ True) m w := by
  refine (Command.wp_bind _ _).mpr (Command.wp_ofExcept _ (fun writes _ ↦ ?_) fun _ _ ↦ trivial)
  apply Command.wp_seq wp_adopt_readManifest
  · rintro baseline n₁ u₁ ⟨rfl, hkept₁⟩
    apply Command.wp_seq
      (wp_adopt_unpublished (Within.unpublished (within_assertRecoveryTargetsSafe _ _)))
    · intro _ n₂ u₂ hkept₂
      apply Command.wp_seq (wp_adopt_unpublished ((within_collectExpectations writes).mono
        (fun _ h ↦ h.unpublished) fun _ _ h ↦ h ▸ rfl))
      · intro expectations n₃ u₃ hkept₃
        apply Command.wp_seq (wp_adopt_unpublished
          ((within_replaceDocuments expectations writes).mono (fun _ h ↦ h) fun _ _ h ↦ h ▸ rfl))
        · intro _ n₄ u₄ hkept₄
          apply wp_adopt_finishRecovery
          intro hnone
          rw [(((hkept₁.trans hkept₂).trans hkept₃).trans hkept₄).1]
          cases hmanifest : w.1.manifest with
          | none => rfl
          | some manifest =>
              rw [replayableBaseline, hmanifest] at hnone
              simp [hschema manifest hmanifest] at hnone
        · exact fun _ _ _ _ ↦ trivial
      · exact fun _ _ _ _ ↦ trivial
    · exact fun _ _ _ _ ↦ trivial
  · exact fun _ _ _ _ ↦ trivial

theorem wp_adopt_recoverLocked (hahead : NotAhead m w)
    (hschema : w.1.journal.isSome → ∀ manifest, w.1.manifest = some manifest →
      manifest.storeSchemaVersion = storeSchemaVersion) :
    Command.wp (adoptContract R e d) (recoverLocked R) (fun _ ↦ NotAhead) (fun _ _ _ ↦ True)
      m w := by
  rw [recoverLocked, Command.wp_bind]
  intro u hrely _
  refine ⟨trivial, ?_⟩
  change Command.wp (adoptContract R e d) (if u.1.journal.isSome = true then _ else _) _ _ m u
  by_cases hpresent : u.1.journal.isSome = true
  swap
  · rw [if_neg hpresent]
    exact fun manifest h ↦ hahead manifest (hrely.1.2.1 ▸ h)
  rw [if_pos hpresent, Command.wp_bind]
  intro v hrely' _
  refine ⟨trivial, ?_⟩
  cases hjournal : v.1.journal with
  | none =>
      rw [show ((held R).machine.perform .readJournal v) = (none, v.1, v.2) from Prod.ext hjournal rfl]
      trivial
  | some journal =>
      rw [show ((held R).machine.perform .readJournal v) = (some journal, v.1, v.2) from
        Prod.ext hjournal rfl]
      apply wp_adopt_replayJournal journal
      intro manifest hmanifest
      apply hschema (hrely.1.1 ▸ hpresent)
      rw [← hrely.1.2.1, ← hrely'.1.2.1]
      exact hmanifest

end Recovery

/-! ## Publication -/

section Publication

variable {R : StoreRules} {e : ℕ} {d : Digest} {m : Process} {w : Disk × (DocName → Bool)}

/-- Built from a calm world, the committed manifest is the one that was reviewed. -/
theorem wp_adopt_writeCommittedManifest {manifest : Manifest} (changedFiles : List DocName)
    (eventType : String) (hmanifest : w.1.manifest = some manifest)
    (hahead : m.generation = manifest.generation) (hgeneration : manifest.generation = e)
    (hreviewed : Calm w → DigestOfCandidate R manifest w.1.docs d) :
    Command.wp (adoptContract R e d) (writeCommittedManifest R changedFiles eventType none)
      (fun _ _ _ ↦ True) (fun _ _ _ ↦ True) m w := by
  let Reviewed (u : Disk × (DocName → Bool)) : Prop := DigestOfCandidate R manifest u.1.docs d
  rw [writeCommittedManifest]
  apply Command.wp_seq
    (wp_adopt_later Reviewed (Within.generation (within_laterHashes (by decide))) hreviewed)
  · rintro hashesBefore n₁ u₁ ⟨hkept₁, hreviewed₁⟩
    rw [if_neg (by simp)]
    apply Command.wp_seq
      (wp_adopt_later Reviewed (Within.generation within_taskSemanticsLocked) hreviewed₁)
    · rintro tasksBefore n₂ u₂ ⟨hkept₂, hreviewed₂⟩
      apply Command.wp_seq
        (wp_adopt_observed within_validateReadyState fun _ ↦ observes_validateReadyState)
      · rintro readiness n₃ u₃ ⟨hkept₃, hverdict⟩
        have hreviewed₃ : Calm u₃ → Reviewed u₃ ∧ verdictOf R u₃.1.docs = .ok readiness := by
          intro hcalm
          obtain ⟨hverdict, rfl⟩ := hverdict hcalm
          exact ⟨hreviewed₂ hcalm, hverdict⟩
        apply Command.wp_seq (wp_adopt_observed (within_laterHashes (by decide)) fun hcalm ↦
          observes_authoritativeHashes _ (hreviewed₃ hcalm).1.1.complete)
        · rintro hashesAfter n₄ u₄ ⟨hkept₄, hhashes⟩
          apply Command.wp_seq
            (wp_adopt_observed within_taskSemanticsLocked fun _ ↦ observes_taskSemanticsLocked)
          · rintro tasksAfter n₅ u₅ ⟨hkept₅, htasks⟩
            split_ifs with hchanged hexpected
            · trivial
            · simp at hexpected
            let Facts (u : Disk × (DocName → Bool)) : Prop :=
              Reviewed u ∧ verdictOf R u.1.docs = .ok readiness ∧ hashesAfter = hashesOf R u.1.docs ∧
                tasksOf R u.1.docs = .ok tasksAfter
            have hfacts : Calm u₅ → Facts u₅ := by
              intro hcalm
              obtain ⟨htasks, rfl⟩ := htasks hcalm
              obtain ⟨hhashes, rfl⟩ := hhashes hcalm
              cases hhashes
              exact ⟨(hreviewed₃ hcalm).1, (hreviewed₃ hcalm).2, rfl, htasks⟩
            apply Command.wp_seq (Command.wp_and wp_adopt_readManifest
              (wp_adopt_later Facts (Within.generation within_readManifest) hfacts))
            · rintro previous n₆ u₆ ⟨⟨rfl, hkept₆⟩, -, hfacts⟩
              have hkept := (((hkept₁.trans hkept₂).trans hkept₃).trans hkept₄).trans hkept₅
              have hadvance : max n₆.generation manifest.generation + 1 = e + 1 := by
                rw [(hkept.trans hkept₆).2, hahead, max_self, hgeneration]
              rw [hkept.1.trans hmanifest, advanceGeneration, Command.wp_bind, Command.wp_bind,
                Command.wp_memory, Command.wp_bind, Command.wp_remember, Command.wp_pure,
                Command.wp_bind]
              intro v hrely _
              refine ⟨fun hcalm ↦ ?_, ?_⟩
              · cases calms.rely u₆ v hrely hcalm
                obtain ⟨⟨hsound, tasks, htasks, hdigest⟩, hverdict, hhashes, htasksAfter⟩ := hfacts hcalm
                cases htasks.symm.trans htasksAfter
                obtain ⟨known, hknown, hidentity⟩ := hsound.readiness
                cases hknown.symm.trans hverdict
                obtain ⟨checked, hchecked, hadvanced⟩ := hsound.tasks
                cases htasks.symm.trans hchecked
                refine ⟨manifest, (hkept.trans hkept₆).1.trans hmanifest, hadvance, ?_, ?_, hadvanced⟩
                · exact ⟨u₆.1.docs, hsound.complete, hhashes, htasks⟩
                · rw [hdigest, ← hgeneration]
                  dsimp only
                  rw [hidentity, hhashes]
                  rfl
              · have hrest : Command.Within (.any DiskOp.Uncommitted) (do
                    Command.remember fun memory ↦ { memory with readiness := some readiness }
                    rememberInSync
                    emitEvent eventType readiness.workspaceUid changedFiles) :=
                  .bind (.remember fun _ ↦ trivial) fun _ ↦ .bind (.remember fun _ ↦ trivial) fun _ ↦
                    .remember fun _ ↦ trivial
                exact wp_adopt_uncommitted hrest
            · exact fun _ _ _ _ ↦ trivial
          · exact fun _ _ _ _ ↦ trivial
        · exact fun _ _ _ _ ↦ trivial
      · exact fun _ _ _ _ ↦ trivial
    · exact fun _ _ _ _ ↦ trivial
  · exact fun _ _ _ _ ↦ trivial

/-- The second inspection of an adoption and what follows it. -/
theorem wp_adopt_adoptReviewed {manifest : Manifest} {status : SyncStatus}
    (idempotencyKey : Option String) (hmanifest : w.1.manifest = some manifest)
    (hahead : NotAhead m w) (hgeneration : manifest.generation = e)
    (hdigest : status.candidateDigest = some d) :
    Command.wp (adoptContract R e d) (adoptReviewed R status idempotencyKey e d)
      (fun _ _ _ ↦ True) (fun _ _ _ ↦ True) m w := by
  rw [adoptReviewed]
  apply Command.wp_seq (wp_adopt_inspectSync hahead)
  · rintro current n u ⟨⟨known, hinspected⟩, hsame⟩
    have hu : u.1.manifest = some manifest := (hsame (hmanifest ▸ rfl)).trans hmanifest
    cases hu.symm.trans hinspected.committed
    split_ifs with hchanged
    · trivial
    have hcurrent : current.candidateDigest = some d := (not_not.mp hchanged).trans hdigest
    apply Command.wp_seq (wp_adopt_writeCommittedManifest _ _ hu hinspected.notAhead hgeneration
      (hinspected.candidate d hcurrent))
    · intro _ k v _
      apply wp_adopt_uncommitted
      apply Command.Within.bind (within_readManifest.any fun _ h ↦ h.1.1.inspects.uncommitted)
      intro published
      cases published with
      | none => exact .throw _
      | some published =>
          exact .bind (within_step trivial) fun _ ↦ Within.uncommitted within_syncStatus
    · exact fun _ _ _ _ ↦ trivial
  · exact fun _ _ _ _ ↦ trivial

theorem wp_adopt_adoptLocked (idempotencyKey : Option String) (hahead : NotAhead m w) :
    Command.wp (adoptContract R e d) (adoptLocked R e d idempotencyKey)
      (fun _ _ _ ↦ True) (fun _ _ _ ↦ True) m w := by
  rw [adoptLocked]
  apply Command.wp_seq (wp_adopt_inspectSync hahead)
  · rintro status n u ⟨⟨manifest, hinspected⟩, -⟩
    apply Command.wp_seq (wp_adopt_unpublished (Within.unpublished within_readAdoptionReceipt))
    · intro receipt n₁ u₁ hkept₁
      rw [Command.wp_bind]
      refine Command.wp_ofExcept _ (fun _ _ ↦ ?_) fun _ _ ↦ trivial
      apply Command.wp_seq
        (wp_adopt_unpublished (Within.unpublished (within_adoptionReplay _ _ _ _)))
      · intro replayed n₂ u₂ hkept₂
        split_ifs with hreplayed hrefused
        · exact wp_adopt_uncommitted (Within.uncommitted within_syncStatus)
        · trivial
        · simp only [not_or, not_not] at hrefused
          obtain ⟨hdetected, hgeneration, hdigest⟩ := hrefused
          obtain ⟨digest, hsome⟩ := Option.isSome_iff_exists.mp (hinspected.detected hdetected)
          rw [hsome, Option.getD_some] at hdigest
          have hkept := hkept₁.trans hkept₂
          apply wp_adopt_adoptReviewed idempotencyKey (hkept.1.trans hinspected.committed) _
            (hinspected.generation.symm.trans hgeneration) (hsome.trans (congrArg some hdigest))
          intro known hknown
          cases (hkept.1.trans hinspected.committed).symm.trans hknown
          rw [hkept.2, hinspected.notAhead]
      · exact fun _ _ _ _ ↦ trivial
    · exact fun _ _ _ _ ↦ trivial
  · exact fun _ _ _ _ ↦ trivial

theorem wp_adopt_adoptExternalChange (idempotencyKey : Option String) (hahead : NotAhead m w)
    (hschema : w.1.journal.isSome → ∀ manifest, w.1.manifest = some manifest →
      manifest.storeSchemaVersion = storeSchemaVersion) :
    Command.wp (adoptContract R e d) (adoptExternalChange R e d idempotencyKey)
      (fun _ _ _ ↦ True) (fun _ _ _ ↦ True) m w := by
  rw [adoptExternalChange]
  split_ifs
  · apply Command.wp_seq (wp_adopt_recoverLocked hahead hschema)
    · exact fun _ n u h ↦ wp_adopt_adoptLocked idempotencyKey h
    · exact fun _ _ _ _ ↦ trivial
  · trivial

end Publication

section Returns

variable {R : StoreRules} {disk : Disk} {m : Process} {manifest : Manifest} {tasks : Tasks}
variable {readiness : StoreReadiness}

/-- The documents hold a candidate that an inspection admits. -/
structure Admissible (R : StoreRules) (manifest : Manifest) (docs : Docs) (tasks : Tasks)
    (readiness : StoreReadiness) : Prop where
  complete : Complete docs
  verdict : verdictOf R docs = .ok readiness
  identity : readiness.workspaceUid = manifest.workspaceId
  advanced : validateCandidateTasks manifest.tasks tasks = .ok ()
  tasks : tasksOf R docs = .ok tasks
  changed : changedManifestFiles manifest (hashesOf R docs) ≠ []

theorem run_authoritativeHashes (site : ReadSite) (hcomplete : Complete disk.docs) :
    Run (machine R) (alone (machine R)) (authoritativeHashes R site m) disk
      (DocName.sortedDefaults.map fun name ↦ .own (.readBytes site name) disk)
      (.pure (.ok (hashesOf R disk.docs), m)) disk := by
  have hfold : ∀ (names : List DocName) (hashes : Files), Run (machine R) (alone (machine R))
      (Command.fold (hashDocument R site) names hashes m) disk
      (names.map fun name ↦ .own (.readBytes site name) disk)
      (.pure (.ok (names.foldl (fun hashes name ↦
        Function.update hashes name (hashesOf R disk.docs name)) hashes), m)) disk := by
    intro names
    induction names with
    | nil => exact fun hashes ↦ .refl _ _
    | cons name names ih =>
        intro hashes
        obtain ⟨body, hbody⟩ := hcomplete name
        apply Run.own
        rw [show (machine R).perform (.readBytes site name) disk = (some body, disk) from
          Prod.ext hbody rfl]
        have hhash : hashesOf R disk.docs name = some (R.sha256 body) := by rw [hashesOf, hbody]; rfl
        rw [List.foldl_cons, hhash]
        exact ih _
  have hall := hfold DocName.sortedDefaults fun _ ↦ none
  rwa [foldl_update_eq _ _ _ DocName.mem_sortedDefaults] at hall

theorem observes_rememberInspection (inspection : Inspection) :
    ∃ k, Command.Observes (machine R) disk (rememberInspection R inspection) m (.ok ()) k := by
  have hnotice : ∀ state fingerprint, ∃ k, Command.Observes (machine R) disk
      (noticeInspection inspection state fingerprint) m (.ok ()) k := by
    intro state fingerprint
    have hemit : ∃ k, Command.Observes (machine R) disk (emitEvent ("store." ++ state.text)
        inspection.candidateWorkspaceId inspection.changedFiles) m (.ok ()) k := ⟨_, .remember _⟩
    obtain ⟨k, hk⟩ := hemit
    by_cases hnew : state ≠ .inSync ∧ m.syncFingerprint ≠ some fingerprint
    · exact ⟨k, .bind .memory (by rwa [if_pos hnew])⟩
    · exact ⟨m, .bind .memory (by rw [if_neg hnew]; exact .pure ())⟩
  obtain ⟨k, hobserves⟩ := hnotice
    (syncInspectionState inspection.changedFiles inspection.validationError) _
  exact ⟨_, .bind hobserves (.remember _)⟩

/-- What an inspection returns for an admissible candidate. -/
theorem observes_tryCandidate_rest (h : Admissible R manifest disk.docs tasks readiness) :
    Command.Observes (machine R) disk (do
        let readiness ← validateReadyState R
        (admitExternalCandidate R manifest (hashesOf R disk.docs)
          (changedManifestFiles manifest (hashesOf R disk.docs)) readiness.workspaceUid).catching
            (invalidCandidate R manifest readiness.workspaceUid)) m
      (.ok ⟨manifest.workspaceId, hashesOf R disk.docs,
        changedManifestFiles manifest (hashesOf R disk.docs), none⟩) m := by
  have hverdict := @observes_validateReadyState R disk m
  rw [h.verdict] at hverdict
  have htasks := @observes_taskSemanticsLocked R disk m
  rw [h.tasks] at htasks
  have hadvanced : Command.Observes (machine R) disk (accept (validateCandidateTasks manifest.tasks tasks))
      m (.ok ()) m := by
    rw [h.advanced]
    exact .pure ()
  refine .bind hverdict (.catching_ok ?_)
  rw [h.identity]
  refine .bind (a := ()) ?_ (.pure _)
  rw [validateExternalCandidate, if_neg (not_not.mpr rfl)]
  refine .bind htasks (.bind hadvanced (.bind (observes_authoritativeHashes _ h.complete) ?_))
  rw [if_neg (not_not.mpr rfl)]
  exact .pure ()

/-- An inspection of an admissible candidate, and the reads it starts with. -/
theorem run_inspectSync_candidate (hmanifest : disk.manifest = some manifest)
    (hvalid : validateStoreManifest manifest = .ok ())
    (h : Admissible R manifest disk.docs tasks readiness) :
    ∃ events status k, Run (machine R) (alone (machine R)) (inspectSync R m) disk events
        (.pure (.ok status, k)) disk ∧ k.generation = max m.generation manifest.generation ∧
      status.status = .externalChangeDetected ∧ status.generation = manifest.generation ∧
      status.candidateDigest = some (candidateDigest R (candidateOf R manifest disk.docs tasks)) ∧
      ∀ name, .own (.readBytes .candidateHash name) disk ∈ events := by
  set inspection : Inspection := ⟨manifest.workspaceId, hashesOf R disk.docs,
    changedManifestFiles manifest (hashesOf R disk.docs), none⟩
  set advanced : Process := { m with generation := max m.generation manifest.generation }
  obtain ⟨k, hremember⟩ := @observes_rememberInspection R disk advanced inspection
  have hgeneration : k.generation = advanced.generation :=
    hremember.within (within_rememberInspection (P := fun _ ↦ True) inspection)
  have hadmitted : ¬inspection.validationError.isSome = true := Bool.false_ne_true
  have hstate : syncInspectionState inspection.changedFiles inspection.validationError =
      .externalChangeDetected := by
    rw [syncInspectionState, if_neg hadmitted, if_neg h.changed]
  have htasks := @observes_taskSemanticsLocked R disk k
  rw [h.tasks] at htasks
  have hdigest : Command.Observes (machine R) disk (candidateManifestDigest R manifest inspection) k
      (.ok (some (candidateDigest R (candidateOf R manifest disk.docs tasks)))) k := by
    rw [candidateManifestDigest, if_neg (not_or.mpr ⟨hadmitted, h.changed⟩)]
    exact .bind htasks (.pure _)
  have hensure : Command.Observes (machine R) disk (ensureSyncManifest R) m (.ok manifest) m :=
    .bind (observes_readManifest hmanifest hvalid) (.pure manifest)
  obtain ⟨first, hfirst⟩ := Prog.Observes.exists_run hensure
  obtain ⟨second, hsecond⟩ :=
    Prog.Observes.exists_run (observes_tryCandidate_rest (m := advanced) h)
  obtain ⟨third, hthird⟩ := Prog.Observes.exists_run hremember
  obtain ⟨fourth, hfourth⟩ := Prog.Observes.exists_run hdigest
  have hhashes := run_authoritativeHashes (R := R) (m := advanced) .candidateHash h.complete
  have htry : Run (machine R) (alone (machine R)) (tryCandidate R manifest advanced) disk
      ((DocName.sortedDefaults.map fun name ↦ .own (.readBytes .candidateHash name) disk) ++ second)
      (.pure (.ok inspection, advanced)) disk := by
    apply hhashes.bind
    dsimp only
    rw [if_neg h.changed]
    exact hsecond
  have hadvance : Run (machine R) (alone (machine R)) ((Command.remember fun memory : Process ↦
      { memory with generation := max memory.generation manifest.generation } : StoreCommand Unit) m)
      disk [] (.pure (.ok (), advanced)) disk := .refl _ _
  have hinspect : Run (machine R) (alone (machine R)) (inspectCandidate R manifest advanced) disk _
      (.pure (.ok inspection, advanced)) disk := htry.bind (.refl _ _)
  refine ⟨_, {
      status := syncInspectionState inspection.changedFiles inspection.validationError
      writesAllowed :=
        syncInspectionState inspection.changedFiles inspection.validationError = .inSync
      workspaceId := manifest.workspaceId
      candidateWorkspaceId := inspection.candidateWorkspaceId
      storeSchemaVersion := manifest.storeSchemaVersion
      generation := manifest.generation
      manifestDigest := manifestDigest R manifest
      files := manifest.files
      changedFiles := inspection.changedFiles
      validationError := inspection.validationError
      candidateDigest := _ }, k,
    hfirst.bind (hadvance.bind (hinspect.bind (hthird.bind (hfourth.bind (.refl _ _))))),
    hgeneration, hstate, rfl, rfl, fun name ↦ ?_⟩
  simp [DocName.mem_sortedDefaults]

/-- The manifest that a commit of these documents publishes. -/
def publishedManifest (R : StoreRules) (readiness : StoreReadiness) (generation : ℕ) (docs : Docs)
    (tasks : Tasks) : Manifest where
  version := 1
  workspaceId := readiness.workspaceUid
  storeSchemaVersion := readiness.schemaVersion
  generation
  files := hashesOf R docs
  tasks

/-- The committed manifest is built from what the documents hold when it is written. -/
theorem run_writeCommittedManifest (changedFiles : List DocName) (eventType : String)
    (hmanifest : disk.manifest = some manifest) (hvalid : validateStoreManifest manifest = .ok ())
    (hcomplete : Complete disk.docs) (hverdict : verdictOf R disk.docs = .ok readiness)
    (htasks : tasksOf R disk.docs = .ok tasks) :
    ∃ events generation, (∀ u v, .env u v ∉ events) ∧ Returns (machine R) (alone (machine R))
      (writeCommittedManifest R changedFiles eventType none m) disk
      (events ++ [.own (.writeManifest .committed
        (publishedManifest R readiness generation disk.docs tasks)) disk])
      fun outcome u ↦ outcome.1 = .ok () ∧
        u = { disk with manifest := some (publishedManifest R readiness generation disk.docs tasks) } := by
  have hobserveTasks := @observes_taskSemanticsLocked R disk m
  rw [htasks] at hobserveTasks
  have hobserveReady := @observes_validateReadyState R disk m
  rw [hverdict] at hobserveReady
  have hsame : ¬(hashesOf R disk.docs ≠ hashesOf R disk.docs ∨ ¬tasks.same tasks) := by
    simp [Tasks.same_self (nodup_tasksOf htasks)]
  obtain ⟨first, hfirst⟩ := Prog.Observes.exists_run
    (observes_authoritativeHashes (R := R) (m := m) .authoritativeHash hcomplete)
  obtain ⟨second, hsecond⟩ := Prog.Observes.exists_run hobserveTasks
  obtain ⟨third, hthird⟩ := Prog.Observes.exists_run hobserveReady
  obtain ⟨fourth, hfourth⟩ := Prog.Observes.exists_run
    (observes_readManifest (R := R) (m := m) hmanifest hvalid)
  refine ⟨first ++ (second ++ (third ++ (first ++ (second ++ fourth)))),
    max m.generation manifest.generation + 1, ?_, ?_⟩
  · intro u v
    simp [hfirst.env_not_mem, hsecond.env_not_mem, hthird.env_not_mem, hfourth.env_not_mem]
  · simp only [List.append_assoc]
    apply Returns.bind hfirst
    dsimp only
    rw [if_neg (by simp)]
    apply Returns.bind hsecond
    apply Returns.bind hthird
    apply Returns.bind hfirst
    apply Returns.bind hsecond
    dsimp only
    rw [if_neg hsame, if_neg (by simp)]
    apply Returns.bind hfourth
    apply Returns.own
    exact Returns.pure ⟨rfl, rfl⟩

/-- An adoption of an admissible candidate publishes whatever it finds after its last inspection, and
succeeds. -/
theorem returns_adoption (disk : Disk) {edited : Disk} {edition : StoreReadiness} {editedTasks : Tasks}
    {key : Option String} (hkey : key.all isAdoptionKey = true) (hnone : disk.journal = none) (hreceipt : disk.receipt = none)
    (hmanifest : disk.manifest = some manifest) (hvalid : validateStoreManifest manifest = .ok ())
    (h : Admissible R manifest disk.docs tasks readiness) (hedit : Disk.ExternalEdit disk edited)
    (hcomplete : Complete edited.docs) (hverdict : verdictOf R edited.docs = .ok edition)
    (htasks : tasksOf R edited.docs = .ok editedTasks)
    (hpublished : ∀ generation, validateStoreManifest
      (publishedManifest R edition generation edited.docs editedTasks) = .ok ()) :
    ∃ before rest generation, Returns (machine R) Disk.ExternalEdit
        (adoptExternalChange R manifest.generation
          (candidateDigest R (candidateOf R manifest disk.docs tasks)) key m) disk
        (before ++ .own (.writeManifest .committed
          (publishedManifest R edition generation edited.docs editedTasks)) edited :: rest)
        (fun outcome _ ↦ ∃ report, outcome.1 = .ok report) ∧
      (∀ name, .own (.readBytes .candidateHash name) disk ∈ before) ∧
      ∀ u v, .env u v ∈ before → u = disk ∧ v = edited := by
  have halone : ∀ u v : Disk, alone (machine R) u v → Disk.ExternalEdit u v := fun _ _ h ↦ h.elim
  have hreadReceipt : ∀ k, Command.Observes (machine R) disk readAdoptionReceipt k (.ok none) k := by
    intro k
    refine .bind (a := disk.receipt) ⟨rfl, rfl⟩ ?_
    rw [hreceipt]
    exact .pure none
  obtain ⟨first, hfirst⟩ := Prog.Observes.exists_run (recoverLocked_of_no_journal (R := R) (m := m) hnone)
  obtain ⟨second, status, k, hsecond, -, hdetected, hgeneration, hdigest, -⟩ :=
    run_inspectSync_candidate (m := m) hmanifest hvalid h
  obtain ⟨third, hthird⟩ := Prog.Observes.exists_run (hreadReceipt k)
  have hguard : Run (machine R) Disk.ExternalEdit ((Command.ofExcept (guardAdoptionKey none key
      manifest.generation (candidateDigest R (candidateOf R manifest disk.docs tasks))) :
        StoreCommand Unit) k) disk [] (.pure (.ok (), k)) disk := .refl _ _
  have hreplay : Command.Observes (machine R) disk (adoptionReplay R none status manifest.generation
      (candidateDigest R (candidateOf R manifest disk.docs tasks))) k (.ok false) k := by
    rw [adoptionReplay, if_pos (by rw [hdetected]; decide)]
    exact .pure false
  obtain ⟨fourth, hfourth⟩ := Prog.Observes.exists_run hreplay
  obtain ⟨fifth, current, k', hfifth, -, -, -, hcurrent, hreads⟩ :=
    run_inspectSync_candidate (m := k) hmanifest hvalid h
  obtain ⟨sixth, generation, hquiet, ⟨_, k₆⟩, published, hsixth, rfl, rfl⟩ :=
    run_writeCommittedManifest (m := k') status.changedFiles "store.external-change-adopted"
      (hedit.2.1.trans hmanifest) hvalid hcomplete hverdict htasks
  set next := publishedManifest R edition generation edited.docs editedTasks
  set published : Disk := { edited with manifest := some next }
  obtain ⟨seventh, hseventh⟩ := Prog.Observes.exists_run (observes_readManifest (R := R) (m := k₆)
    (show published.manifest = some next from rfl) (hpublished generation))
  let receipt : AdoptionReceipt := {
    version := 1
    idempotencyKey := key
    expectedGeneration := manifest.generation
    expectedManifestDigest := candidateDigest R (candidateOf R manifest disk.docs tasks)
    resultGeneration := next.generation
    resultManifestDigest := manifestDigest R next
    workspaceId := next.workspaceId }
  have hreceipted : ({ published with receipt := some receipt } : Disk).manifest = some next := rfl
  obtain ⟨report, -, -, hstatus⟩ := observes_inspectSync (R := R) (m := k₆) hreceipted
    (hpublished generation) hcomplete rfl
  obtain ⟨eighth, heighth⟩ := Prog.Observes.exists_run hstatus
  refine ⟨first ++ (second ++ (third ++ (fourth ++ (fifth ++ (.env disk edited :: sixth))))), seventh ++
    (.own (.writeReceipt receipt) published :: eighth), generation, ?_, ?_, ?_⟩
  · simp only [List.append_assoc, List.cons_append]
    rw [adoptExternalChange, if_neg (not_not.mpr hkey)]
    apply Returns.bind (hfirst.mono halone)
    apply Returns.bind (hsecond.mono halone)
    apply Returns.bind (hthird.mono halone)
    apply Returns.bind hguard
    apply Returns.bind (hfourth.mono halone)
    dsimp only
    rw [if_neg Bool.false_ne_true, if_neg (by simp [hdetected, hgeneration, hdigest]), adoptReviewed]
    apply Returns.bind (hfifth.mono halone)
    dsimp only
    rw [if_neg (by rw [hcurrent, hdigest]; exact fun hne ↦ hne rfl)]
    apply Returns.env hedit
    rw [List.append_cons]
    apply Returns.bind (hsixth.mono halone)
    apply Returns.bind (hseventh.mono halone)
    apply Returns.own
    rw [← List.append_nil eighth]
    apply Returns.bind (heighth.mono halone)
    exact Returns.pure ⟨_, rfl⟩
  · intro name
    simp [hreads name]
  · intro u v
    simp [hfirst.env_not_mem, hsecond.env_not_mem, hthird.env_not_mem, hfourth.env_not_mem,
      hfifth.env_not_mem, hquiet]

end Returns

section Held

variable {R : StoreRules}

theorem held_stays {events : List (Event (machine R))}
    (hquiet : ∀ u v, .env u v ∈ events → u.docs = v.docs) {t : DocName → Bool} {name : DocName}
    (ht : t name = true) : (held R).after events t name = true := by
  induction events generalizing t with
  | nil => exact ht
  | cons event events ih =>
      have hrest := fun t ↦ @ih (fun u v hmem ↦ hquiet u v (List.mem_cons_of_mem _ hmem)) t
      cases event with
      | env u v =>
          apply hrest
          simp [held, ht, hquiet u v (List.mem_cons_self ..)]
      | own o u =>
          apply hrest
          cases o with
          | readBytes site other =>
              cases site with
              | candidateHash =>
                  by_cases hname : name = other
                  · subst hname
                    exact Function.update_self ..
                  · exact (Function.update_of_ne hname ..).trans ht
              | _ => exact ht
          | _ => exact ht

/-- What was read as a candidate stays held while no document is edited. -/
theorem held_of_mem {events : List (Event (machine R))}
    (hquiet : ∀ u v, .env u v ∈ events → u.docs = v.docs) {t : DocName → Bool} {name : DocName}
    {disk : Disk} (hmem : .own (.readBytes .candidateHash name) disk ∈ events) :
    (held R).after events t name = true := by
  induction events generalizing t with
  | nil => cases hmem
  | cons event events ih =>
      have hrest : ∀ u v, .env u v ∈ events → u.docs = v.docs := fun u v h ↦
        hquiet u v (List.mem_cons_of_mem _ h)
      rcases List.mem_cons.mp hmem with rfl | hlater
      · exact held_stays hrest (Function.update_self ..)
      · cases event with
        | env u v => exact ih hrest hlater
        | own o u => exact ih hrest hlater

end Held

/-! ## The edit that nobody reviewed -/

theorem validateCandidateTasks_self {tasks : Tasks} (h : (tasks.map Prod.fst).Nodup) :
    validateCandidateTasks tasks tasks = .ok () := by
  rw [validateCandidateTasks, if_neg, Outcome.forM_eq_ok]
  · intro entry hentry
    rw [Tasks.lookup_of_mem h hentry]
    simp
  · simp only [List.any_eq_true, not_exists, not_and]
    intro entry hentry
    rw [Tasks.lookup_of_mem h hentry]
    simp

def sampleTask : Json := .obj [
  ("id", .str "T-0001"), ("uid", .str "0d9c2c3e-5a7b-5c7e-9a55-3d1f0c8e7b21"), ("title", .str "plan"),
  ("status", .str "open"), ("revision", .int 0)]

def sampleBacklog : Json :=
  .obj [("version", .int 1), ("workspace_id", .str sampleWorkspaceId), ("tasks", .arr [sampleTask])]

def reviewRules : StoreRules := sampleRules [sampleBacklog, sampleNotes]

/-- Committed documents with one Task. -/
def committedDocs : Docs :=
  Function.update (freshDocs sampleWorkspaceId) .backlog (some sampleBacklog.serializedJsonBytes)

@[irreducible]
def committedTasks : Tasks := (tasksOf reviewRules committedDocs).toOption.getD []

def committedManifest : Manifest :=
  { freshManifest reviewRules sampleWorkspaceId with
    files := hashesOf reviewRules committedDocs
    tasks := committedTasks }

/-- The committed store with notes that an editor wrote and the caller reviewed. -/
def reviewedDisk : Disk where
  docs := Function.update committedDocs .notes (some sampleNotes.serializedJsonBytes)
  journal := none
  manifest := some committedManifest
  receipt := none

/-- The same store after the editor also emptied the backlog. -/
def emptiedDisk : Disk :=
  reviewedDisk.write .backlog (defaultFor sampleWorkspaceId .backlog).serializedJsonBytes

theorem complete_update {docs : Docs} (h : Complete docs) (name : DocName) (body : Bytes) :
    Complete (Function.update docs name (some body)) := by
  intro other
  by_cases hname : other = name
  · subst hname
    exact ⟨body, by rw [Function.update_self]⟩
  · rw [Function.update_of_ne hname]
    exact h other

theorem reviewedDisk_complete : Complete reviewedDisk.docs :=
  complete_update (complete_update (freshDocs_complete _) _ _) _ _

theorem committedDocs_tasks : tasksOf reviewRules committedDocs = .ok committedTasks := by
  have hsome : (tasksOf reviewRules committedDocs).toOption.isSome = true := by decide +kernel
  unfold committedTasks
  cases htasks : tasksOf reviewRules committedDocs with
  | error error =>
      rw [htasks] at hsome
      cases hsome
  | ok tasks => rfl

theorem reviewedDisk_tasks : tasksOf reviewRules reviewedDisk.docs = .ok committedTasks :=
  (tasksOf_congr (Function.update_of_ne (by decide) ..)).trans committedDocs_tasks

theorem emptiedDisk_tasks : tasksOf reviewRules emptiedDisk.docs = .ok [] :=
  (tasksOf_congr (by rw [emptiedDisk, Disk.write_docs, Function.update_self]; rfl)).trans
    (tasksOf_freshDocs (referenceRules_loads_head _ _))

theorem committedManifest_valid : validateStoreManifest committedManifest = .ok () := by
  have hid : committedManifest.workspaceId = sampleWorkspaceId := rfl
  apply validateStoreManifest_of_full rfl rfl
  · rw [hid]
    exact sampleWorkspaceId_canonical
  · intro name
    obtain ⟨body, hbody⟩ := complete_update (freshDocs_complete sampleWorkspaceId) .backlog
      sampleBacklog.serializedJsonBytes name
    change ((committedDocs name).map reviewRules.sha256).isSome = true
    rw [show committedDocs name = some body from hbody]
    rfl
  · decide +kernel

theorem schemaVersion_of_verdictOf {R : StoreRules} {docs : Docs} {readiness : StoreReadiness}
    (h : verdictOf R docs = .ok readiness) : readiness.schemaVersion = storeSchemaVersion := by
  obtain ⟨values, -, hjudge⟩ := Outcome.bind_eq_ok.mp h
  cases hadmission : R.validateDocumentValues values with
  | error message =>
      rw [judgeDocumentValues, hadmission] at hjudge
      cases hjudge
  | ok admission =>
      rw [judgeDocumentValues, hadmission] at hjudge
      cases hjudge
      rfl

/-- The workspace that validation reads from documents it accepts. -/
def acceptedWorkspace (R : StoreRules) (docs : Docs) : Option String :=
  (verdictOf R docs).toOption.map StoreReadiness.workspaceUid

theorem exists_readiness {R : StoreRules} {docs : Docs} {workspaceId : String}
    (h : acceptedWorkspace R docs = some workspaceId) :
    ∃ readiness, verdictOf R docs = .ok readiness ∧ readiness.workspaceUid = workspaceId := by
  unfold acceptedWorkspace at h
  cases hverdict : verdictOf R docs with
  | error error =>
      rw [hverdict] at h
      cases h
  | ok readiness =>
      rw [hverdict] at h
      exact ⟨readiness, rfl, Option.some.inj h⟩

theorem reviewedDisk_admissible : ∃ readiness,
    Admissible reviewRules committedManifest reviewedDisk.docs committedTasks readiness := by
  obtain ⟨readiness, hverdict, hidentity⟩ : ∃ readiness, verdictOf reviewRules reviewedDisk.docs =
      .ok readiness ∧ readiness.workspaceUid = sampleWorkspaceId := exists_readiness (by decide +kernel)
  have hself : validateCandidateTasks committedTasks committedTasks = .ok () :=
    validateCandidateTasks_self (nodup_tasksOf committedDocs_tasks)
  refine ⟨readiness, reviewedDisk_complete, hverdict, hidentity, hself, reviewedDisk_tasks, ?_⟩
  intro hempty
  have hnotes : DocName.notes ∉ changedManifestFiles committedManifest
      (hashesOf reviewRules reviewedDisk.docs) := by
    rw [hempty]
    exact List.not_mem_nil
  apply hnotes
  rw [changedManifestFiles, List.mem_filter]
  exact ⟨DocName.mem_sortedDefaults _, by decide +kernel⟩

/-- What the caller reviewed. -/
def reviewedDigest : Digest :=
  candidateDigest reviewRules
    (candidateOf reviewRules committedManifest reviewedDisk.docs committedTasks)

/-- The adoption of the reviewed notes, with an edit after its last inspection. -/
theorem reviewedDisk_returns {edited : Disk} {edition : StoreReadiness} {editedTasks : Tasks}
    {key : Option String} (hkey : key.all isAdoptionKey = true) (hedit : Disk.ExternalEdit reviewedDisk edited) (hcomplete : Complete edited.docs)
    (hverdict : verdictOf reviewRules edited.docs = .ok edition)
    (hidentity : edition.workspaceUid = sampleWorkspaceId)
    (htasks : tasksOf reviewRules edited.docs = .ok editedTasks)
    (hvalid : validateStoreManifestTasks editedTasks = .ok ()) :
    ∃ before rest manifest, Returns (machine reviewRules) Disk.ExternalEdit
        (adoptExternalChange reviewRules 1 reviewedDigest key .fresh) reviewedDisk
        (before ++ .own (.writeManifest .committed manifest) edited :: rest)
        (fun outcome _ ↦ ∃ report, outcome.1 = .ok report) ∧
      manifest.files = hashesOf reviewRules edited.docs ∧ manifest.tasks = editedTasks ∧
      (∀ name, .own (.readBytes .candidateHash name) reviewedDisk ∈ before) ∧
      ∀ u v, .env u v ∈ before → u = reviewedDisk ∧ v = edited := by
  obtain ⟨readiness, hadmissible⟩ := reviewedDisk_admissible
  have hmanifest : reviewedDisk.manifest = some committedManifest := rfl
  have hpublished : ∀ generation, validateStoreManifest
      (publishedManifest reviewRules edition generation edited.docs editedTasks) = .ok () := by
    intro generation
    apply validateStoreManifest_of_full rfl (schemaVersion_of_verdictOf hverdict) _ _ hvalid
    · rw [publishedManifest, hidentity]
      exact sampleWorkspaceId_canonical
    · intro name
      obtain ⟨body, hbody⟩ := hcomplete name
      change ((edited.docs name).map reviewRules.sha256).isSome = true
      rw [hbody]
      rfl
  obtain ⟨before, rest, generation, hreturns, hevents⟩ := returns_adoption (m := .fresh) reviewedDisk
    hkey rfl rfl hmanifest committedManifest_valid hadmissible hedit hcomplete hverdict htasks hpublished
  rw [reviewedDigest]
  exact ⟨before, rest, _, hreturns, rfl, rfl, hevents⟩

end WorkStack.Store
