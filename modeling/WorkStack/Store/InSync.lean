import WorkStack.Store.Commit

/-!
# A store at rest

What the commands read from a data directory nobody disturbs, as functions of the documents alone.
A store is in sync when it has no journal and its manifest describes the documents on disk; an
inspection of such a store reads everything, changes nothing and allows writes.
-/

namespace WorkStack.Store

open Effect Effect.Outcome

variable (R : StoreRules)

abbrev Docs := DocName → Option Bytes

/-! ## What the documents say -/

def jsonOf (docs : Docs) (name : DocName) : Except StoreError Json :=
  match docs name with
  | none => .error (.fileNotFound name.fileName)
  | some body =>
      match R.loads body with
      | none => .error (.corrupt ("invalid JSON preserved at " ++ name.fileName ++
          "; repair or quarantine it before startup"))
      | some value =>
          if value.isObject then .ok value
          else .error (.corrupt (name.fileName ++ " must contain a JSON object"))

def tasksOf (docs : Docs) : Except StoreError Tasks := do
  let backlog ← jsonOf R docs .backlog
  (taskSemantics R.sha256 backlog).mapError .corrupt

def requiredJsonOf (docs : Docs) (values : DocName → Json) (name : DocName) :
    Except StoreError (DocName → Json) :=
  match jsonOf R docs name with
  | .ok value => .ok (Function.update values name value)
  | .error (.fileNotFound path) => .error (.corrupt ("required store is missing: " ++ path))
  | .error error => .error error

def valuesOf (docs : Docs) : Except StoreError (DocName → Json) :=
  DocName.defaults.foldlM (requiredJsonOf R docs) fun _ ↦ .null

/-- What `_validate_ready_state_locked` says of these documents. -/
def verdictOf (docs : Docs) : Except StoreError StoreReadiness := do
  let values ← valuesOf R docs
  (judgeDocumentValues R values).mapError .corrupt

/-- The documents pass validation. -/
def Accepted (docs : Docs) : Prop := ∃ readiness, verdictOf R docs = .ok readiness

def hashesOf (docs : Docs) : Files := fun name ↦ (docs name).map R.sha256

def Complete (docs : Docs) : Prop := ∀ name, ∃ body, docs name = some body

/-! ## Reading commands -/

section Reading

variable {R} {disk : Disk} {m : Process}

theorem observes_readBytes (site : ReadSite) (name : DocName) :
    Command.Observes (machine R) disk (step (.readBytes site name)) m (.ok (disk.docs name)) m :=
  ⟨rfl, rfl⟩

theorem observes_isFile (site : ReadSite) (name : DocName) :
    Command.Observes (machine R) disk (step (.isFile site name)) m
      (.ok (disk.docs name).isSome) m :=
  ⟨rfl, rfl⟩

theorem observes_journalExists (disk : Disk) (m : Process) :
    Command.Observes (machine R) disk (step .journalExists) m (.ok disk.journal.isSome) m :=
  ⟨rfl, rfl⟩

theorem observes_readJournal :
    Command.Observes (machine R) disk (step .readJournal) m (.ok disk.journal) m :=
  ⟨rfl, rfl⟩

theorem observes_manifestFile :
    Command.Observes (machine R) disk (step .readManifest) m (.ok disk.manifest) m :=
  ⟨rfl, rfl⟩

theorem observes_readJson (name : DocName) :
    Command.Observes (machine R) disk (readJson R name) m (jsonOf R disk.docs name) m := by
  refine .bind (observes_readBytes _ name) ?_
  unfold jsonOf
  cases disk.docs name with
  | none => exact .throw _
  | some body =>
      dsimp only
      cases R.loads body with
      | none => exact .throw _
      | some value =>
          dsimp only
          split_ifs
          · exact .pure _
          · exact .throw _

theorem observes_taskSemanticsLocked :
    Command.Observes (machine R) disk (taskSemanticsLocked R) m (tasksOf R disk.docs) m :=
  .bind_except (observes_readJson .backlog) fun _ ↦ .ofExcept _

theorem observes_loadDocument (values : DocName → Json) (name : DocName) :
    Command.Observes (machine R) disk (loadDocument R values name) m
      (requiredJsonOf R disk.docs values name) m := by
  have hread : Command.Observes (machine R) disk (readJson R name) m (jsonOf R disk.docs name) m :=
    observes_readJson name
  unfold requiredJsonOf
  cases hjson : jsonOf R disk.docs name with
  | ok value =>
      rw [hjson] at hread
      exact .catching_ok (.bind hread (.pure _))
  | error error =>
      rw [hjson] at hread
      refine .catching_error (.bind_error hread) ?_
      cases error <;> exact .throw _

theorem observes_validateReadyState :
    Command.Observes (machine R) disk (validateReadyState R) m (verdictOf R disk.docs) m :=
  .bind_except (.fold (fun values name _ ↦ observes_loadDocument values name) _) fun _ ↦ .ofExcept _

theorem observes_readManifest {manifest : Manifest} (h : disk.manifest = some manifest)
    (hvalid : validateStoreManifest manifest = .ok ()) :
    Command.Observes (machine R) disk readManifest m (.ok (some manifest)) m := by
  have hadmit : Command.Observes (machine R) disk (accept (validateStoreManifest manifest)) m
      (.ok ()) m := by
    rw [hvalid]
    exact .ofExcept _
  refine .bind observes_manifestFile ?_
  rw [h]
  exact .bind hadmit (.pure _)

/-- Assigning every document once leaves nothing of the initial value. -/
theorem foldl_update_eq {α : Type} (f g : DocName → α) (names : List DocName)
    (hnames : ∀ name, name ∈ names) :
    names.foldl (fun f name ↦ Function.update f name (g name)) f = g := by
  have hfold : ∀ (names : List DocName) (f : DocName → α) (name : DocName),
      names.foldl (fun f name ↦ Function.update f name (g name)) f name =
        if name ∈ names then g name else f name := by
    intro names
    induction names with
    | nil => intro f name; simp
    | cons head names ih =>
        intro f name
        rw [List.foldl_cons, ih]
        by_cases hhead : name = head
        · subst hhead
          simp
        · simp [hhead]
  funext name
  rw [hfold, if_pos (hnames name)]

theorem observes_authoritativeHashes (site : ReadSite) (hcomplete : Complete disk.docs) :
    Command.Observes (machine R) disk (authoritativeHashes R site) m
      (.ok (hashesOf R disk.docs)) m := by
  have hbody : ∀ hashes name, Command.Observes (machine R) disk (hashDocument R site hashes name) m
      (.ok (Function.update hashes name (hashesOf R disk.docs name))) m := by
    intro hashes name
    obtain ⟨body, hbody⟩ := hcomplete name
    refine .bind (observes_readBytes site name) ?_
    simp only [hashesOf, hbody, Option.map_some]
    exact .pure _
  have hfold := Command.Observes.fold_ok
    (fun hashes name (_ : name ∈ DocName.sortedDefaults) ↦ hbody hashes name) fun _ ↦ none
  rwa [foldl_update_eq _ _ _ DocName.mem_sortedDefaults] at hfold

theorem observes_currentDigest (site : ReadSite) (name : DocName) :
    Command.Observes (machine R) disk (currentDigest R site name) m
      (.ok (hashesOf R disk.docs name)) m := by
  refine .bind (observes_isFile site name) ?_
  unfold hashesOf
  cases hdoc : disk.docs name with
  | none => exact .pure _
  | some body =>
      refine .bind (observes_readBytes site name) ?_
      rw [hdoc]
      exact .pure _

end Reading

/-! ## A described store -/

/-- The manifest's files and tasks are exactly those of the documents. -/
structure Describes (manifest : Manifest) (docs : Docs) : Prop where
  complete : Complete docs
  files : manifest.files = hashesOf R docs
  tasks : ∃ tasks, tasksOf R docs = .ok tasks ∧ manifest.tasks.same tasks

structure InSync (disk : Disk) : Prop where
  journal : disk.journal = none
  manifest : ∃ manifest, disk.manifest = some manifest ∧ validateStoreManifest manifest = .ok () ∧
    Describes R manifest disk.docs

section Described

variable {R} {disk : Disk} {m : Process} {manifest : Manifest}

/-- What an inspection leaves in memory when nothing changed. -/
def rememberedInSync (m : Process) (manifest : Manifest) : Process :=
  { m with
    generation := max m.generation manifest.generation
    syncState := .inSync
    syncFingerprint := none }

theorem changedManifestFiles_eq_nil (hfiles : manifest.files = hashesOf R disk.docs) :
    changedManifestFiles manifest (hashesOf R disk.docs) = [] := by
  simp [changedManifestFiles, hfiles]

/-- An inspection of documents that match the manifest reports that nothing changed. -/
theorem observes_inspectSync (hmanifest : disk.manifest = some manifest)
    (hvalid : validateStoreManifest manifest = .ok ()) (hcomplete : Complete disk.docs)
    (hfiles : manifest.files = hashesOf R disk.docs) :
    ∃ status, status.status = .inSync ∧ status.writesAllowed = true ∧
      Command.Observes (machine R) disk (inspectSync R) m (.ok status) (rememberedInSync m manifest) := by
  have hchanged := changedManifestFiles_eq_nil hfiles
  have hinspect : Command.Observes (machine R) disk (inspectCandidate R manifest)
      { m with generation := max m.generation manifest.generation }
      (.ok ⟨manifest.workspaceId, hashesOf R disk.docs, [], none⟩)
      { m with generation := max m.generation manifest.generation } := by
    refine .catching_ok (.bind (observes_authoritativeHashes _ hcomplete) ?_)
    simp only [hchanged, if_true]
    exact .pure _
  refine ⟨{
    status := .inSync
    writesAllowed := true
    workspaceId := manifest.workspaceId
    candidateWorkspaceId := manifest.workspaceId
    storeSchemaVersion := manifest.storeSchemaVersion
    generation := manifest.generation
    manifestDigest := manifestDigest R manifest
    files := manifest.files
    changedFiles := []
    validationError := none
    candidateDigest := none }, rfl, rfl, ?_⟩
  refine .bind (.bind (observes_readManifest hmanifest hvalid) (.pure manifest)) ?_
  refine .bind (.remember _) ?_
  refine .bind hinspect ?_
  refine .bind (a := ()) (n := rememberedInSync m manifest) ?_ ?_
  · refine .bind (a := ()) (n := { m with generation := max m.generation manifest.generation })
      (.bind .memory (.pure ())) ?_
    exact .remember _
  · exact .bind (a := none) (.pure _) (.pure _)

theorem observes_assertWritable (hmanifest : disk.manifest = some manifest)
    (hvalid : validateStoreManifest manifest = .ok ()) (hcomplete : Complete disk.docs)
    (hfiles : manifest.files = hashesOf R disk.docs) :
    ∃ m', Command.Observes (machine R) disk (assertWritable R) m (.ok ()) m' := by
  obtain ⟨status, -, hallowed, hinspect⟩ := observes_inspectSync (m := m) hmanifest hvalid hcomplete hfiles
  cases hready : m.readiness with
  | none =>
      refine ⟨m, .bind .memory ?_⟩
      simp only [hready, Option.isNone_none, if_true]
      exact .pure _
  | some readiness =>
      refine ⟨rememberedInSync m manifest, .bind .memory ?_⟩
      simp only [hready, Option.isNone_some, Bool.false_eq_true, if_false]
      refine .bind hinspect ?_
      simp only [hallowed, if_true]
      exact .pure _

end Described

end WorkStack.Store
