import WorkStack.Store.InSync

/-!
# Write sets, task baselines and journals

Facts about values alone: what a list of target values makes of the documents, that a task baseline
names every Task once, and that a journal admitted by a replay gives back the writes it was made of.
-/

namespace WorkStack.Store

open Effect Effect.Outcome

variable {R : StoreRules}

/-! ## Target values -/

namespace Writes

variable {writes : Writes} {docs : Docs} {name : DocName} {value : Json}

@[simp] theorem bodies_cons (write : DocName × Json) (writes : Writes) (docs : Docs) :
    bodies (write :: writes) docs =
      bodies writes (Function.update docs write.1 (some write.2.serializedJsonBytes)) := rfl

@[simp] theorem names_cons (write : DocName × Json) (writes : Writes) :
    names (write :: writes) = write.1 :: names writes := rfl

theorem bodies_of_not_mem (h : name ∉ writes.names) : writes.bodies docs name = docs name := by
  induction writes generalizing docs with
  | nil => rfl
  | cons write writes ih =>
      rw [names_cons, List.mem_cons, not_or] at h
      rw [bodies_cons, ih h.2, Function.update_of_ne h.1]

theorem bodies_of_mem (hnodup : writes.names.Nodup) (h : (name, value) ∈ writes) :
    writes.bodies docs name = some value.serializedJsonBytes := by
  induction writes generalizing docs with
  | nil => cases h
  | cons write writes ih =>
      rw [names_cons, List.nodup_cons] at hnodup
      rw [bodies_cons]
      rcases List.mem_cons.mp h with rfl | h
      · rw [bodies_of_not_mem hnodup.1, Function.update_self]
      · exact ih hnodup.2 h

theorem mem_names_iff : name ∈ writes.names ↔ ∃ value, (name, value) ∈ writes := by
  simp [names]

theorem bodies_congr (hnodup : writes.names.Nodup) {docs' : Docs}
    (h : ∀ name ∉ writes.names, docs name = docs' name) :
    writes.bodies docs = writes.bodies docs' := by
  funext name
  by_cases hname : name ∈ writes.names
  · obtain ⟨value, hvalue⟩ := mem_names_iff.mp hname
    rw [bodies_of_mem hnodup hvalue, bodies_of_mem hnodup hvalue]
  · rw [bodies_of_not_mem hname, bodies_of_not_mem hname, h name hname]

/-- Writing the same values again changes nothing. -/
theorem bodies_idem (hnodup : writes.names.Nodup) :
    writes.bodies (writes.bodies docs) = writes.bodies docs :=
  bodies_congr hnodup fun _ h ↦ bodies_of_not_mem h

/-- Documents between a base and its targets have the same targets. -/
theorem bodies_between (hnodup : writes.names.Nodup) {between : Docs}
    (h : ∀ name, between name = docs name ∨ between name = writes.bodies docs name) :
    writes.bodies between = writes.bodies docs := by
  refine bodies_congr hnodup fun name hname ↦ ?_
  rcases h name with h | h
  · exact h
  · rw [h, bodies_of_not_mem hname]

theorem complete_bodies (h : Complete docs) : Complete (writes.bodies docs) := by
  induction writes generalizing docs with
  | nil => exact h
  | cons write writes ih =>
      rw [bodies_cons]
      refine ih fun name ↦ ?_
      by_cases hname : name = write.1
      · subst hname
        exact ⟨_, Function.update_self ..⟩
      · rw [Function.update_of_ne hname]
        exact h name

theorem hashesOf_update (docs : Docs) (name : DocName) (body : Bytes) :
    hashesOf R (Function.update docs name (some body)) =
      Function.update (hashesOf R docs) name (some (R.sha256 body)) := by
  funext other
  by_cases hother : other = name
  · subst hother
    simp [hashesOf]
  · simp [hashesOf, Function.update_of_ne hother]

/-- The digests a commit expects are those of the documents it is about to write. -/
theorem hashes_hashesOf :
    writes.hashes R.sha256 (hashesOf R docs) = hashesOf R (writes.bodies docs) := by
  induction writes generalizing docs with
  | nil => rfl
  | cons write writes ih =>
      rw [bodies_cons, ← ih, hashesOf_update]
      rfl

end Writes

/-! ## Task baselines -/

namespace Tasks

theorem map_fst_insert (tasks : Tasks) (taskId : String) (baseline : TaskBaseline) :
    (tasks.insert taskId baseline).map Prod.fst =
      if taskId ∈ tasks.map Prod.fst then tasks.map Prod.fst else tasks.map Prod.fst ++ [taskId] := by
  unfold Tasks.insert
  by_cases hmem : taskId ∈ tasks.map Prod.fst
  · have hany : (tasks.any fun entry ↦ entry.1 = taskId) = true := by
      simpa using hmem
    rw [if_pos hany, if_pos hmem, List.map_map]
    refine List.map_congr_left fun entry _ ↦ ?_
    by_cases hentry : entry.1 = taskId <;> simp [hentry]
  · have hany : ¬(tasks.any fun entry ↦ entry.1 = taskId) = true := by
      simpa using hmem
    rw [if_neg hany, if_neg hmem, List.map_append]
    rfl

theorem nodup_insert {tasks : Tasks} (h : (tasks.map Prod.fst).Nodup) (taskId : String)
    (baseline : TaskBaseline) : ((tasks.insert taskId baseline).map Prod.fst).Nodup := by
  rw [map_fst_insert]
  split_ifs with hmem
  · exact h
  · exact List.nodup_append.mpr ⟨h, List.nodup_singleton _, by
      rintro a ha b hb rfl
      exact hmem (List.mem_singleton.mp hb ▸ ha)⟩

theorem lookup_of_mem {tasks : Tasks} (h : (tasks.map Prod.fst).Nodup) {entry : String × TaskBaseline}
    (hentry : entry ∈ tasks) : tasks.lookup entry.1 = some entry.2 := by
  induction tasks with
  | nil => cases hentry
  | cons head tasks ih =>
      rw [List.map_cons, List.nodup_cons] at h
      rcases List.mem_cons.mp hentry with rfl | hentry
      · simp [List.lookup]
      · have hne : entry.1 ≠ head.1 := fun heq ↦ h.1 (heq ▸ List.mem_map_of_mem hentry)
        rw [List.lookup_cons, beq_false_of_ne hne]
        exact ih h.2 hentry

theorem same_self {tasks : Tasks} (h : (tasks.map Prod.fst).Nodup) : tasks.same tasks := by
  simp only [Tasks.same, decide_true, Bool.true_and, List.all_eq_true, decide_eq_true_eq]
  exact fun entry hentry ↦ lookup_of_mem h hentry

end Tasks

/-- A task baseline computed from a backlog names every Task once. -/
theorem nodup_foldSemantics {sha256 : Bytes → Digest} {items : List Json} (acc : Tasks)
    {result : Tasks} (hacc : (acc.map Prod.fst).Nodup)
    (h : items.foldlM (fun result task ↦ do
      let (taskId, baseline) ← taskSemanticsEntry sha256 task
      pure (result.insert taskId baseline)) acc = Except.ok (ε := String) result) :
    (result.map Prod.fst).Nodup := by
  induction items generalizing acc with
  | nil =>
      cases h
      exact hacc
  | cons item items ih =>
      rw [List.foldlM_cons] at h
      obtain ⟨next, hnext, hrest⟩ := bind_eq_ok.mp h
      obtain ⟨entry, -, hinsert⟩ := bind_eq_ok.mp hnext
      cases hinsert
      exact ih _ (Tasks.nodup_insert hacc _ _) hrest

theorem nodup_taskSemantics {sha256 : Bytes → Digest} {backlog : Json} {tasks : Tasks}
    (h : taskSemantics sha256 backlog = .ok tasks) : (tasks.map Prod.fst).Nodup := by
  unfold taskSemantics at h
  split at h
  · exact nodup_foldSemantics [] List.nodup_nil h
  · cases h

theorem nodup_tasksOf {docs : Docs} {tasks : Tasks} (h : tasksOf R docs = .ok tasks) :
    (tasks.map Prod.fst).Nodup := by
  obtain ⟨backlog, -, htasks⟩ := bind_eq_ok.mp h
  cases hsemantics : taskSemantics R.sha256 backlog with
  | error message =>
      rw [hsemantics] at htasks
      cases htasks
  | ok result =>
      rw [hsemantics] at htasks
      cases htasks
      exact nodup_taskSemantics hsemantics

theorem tasksOf_congr {docs docs' : Docs} (h : docs .backlog = docs' .backlog) :
    tasksOf R docs = tasksOf R docs' := by
  simp only [tasksOf, jsonOf, h]

/-! ## Journals -/

/-- A journal a commit prepared is admitted, if at all, with exactly the writes of the commit. -/
theorem validateRecoveryWrites_prepared (writes : Writes) (seen : List DocName) {admitted : Writes}
    (h : validateRecoveryWrites R (writes.map fun write ↦
      ⟨write.1.fileName, write.2, (digestOf R write.2).text⟩) seen = .ok admitted) :
    admitted = writes := by
  induction writes generalizing seen admitted with
  | nil =>
      cases h
      rfl
  | cons write writes ih =>
      obtain ⟨first, hfirst, hrest⟩ := bind_eq_ok.mp h
      obtain ⟨rest, htail, hall⟩ := bind_eq_ok.mp hrest
      cases hall
      have hwrite : first = write := by
        simp only [validateRecoveryWrite, DocName.ofFileName_fileName] at hfirst
        split_ifs at hfirst
        cases hfirst
        rfl
      rw [hwrite, ih _ htail]

theorem validateJournal_prepared {writes admitted : Writes} {operationId createdAt : String}
    (h : validateJournal R (preparedJournal R writes operationId createdAt) = .ok admitted) :
    admitted = writes := by
  obtain ⟨entries, hentries, hadmitted⟩ := bind_eq_ok.mp h
  have hsame : entries = (preparedJournal R writes operationId createdAt).writes := by
    unfold recoveryWrites at hentries
    split_ifs at hentries
    · obtain ⟨-, -, hrest⟩ := bind_eq_ok.mp hentries
      cases hrest
    · obtain ⟨-, -, hrest⟩ := bind_eq_ok.mp hentries
      cases hrest
      rfl
  subst hsame
  exact validateRecoveryWrites_prepared writes [] hadmitted

theorem validateRecoveryWrites_ok {writes : Writes} (hnodup : writes.names.Nodup)
    (hobjects : ∀ write ∈ writes, write.2.isObject) (seen : List DocName)
    (hseen : ∀ name ∈ seen, name ∉ writes.names) :
    validateRecoveryWrites R (writes.map fun write ↦
      ⟨write.1.fileName, write.2, (digestOf R write.2).text⟩) seen = .ok writes := by
  induction writes generalizing seen with
  | nil => rfl
  | cons write writes ih =>
      rw [Writes.names_cons, List.nodup_cons] at hnodup
      have hfirst : validateRecoveryWrite R
          ⟨write.1.fileName, write.2, (digestOf R write.2).text⟩ seen = .ok write := by
        have hnew : write.1 ∉ seen := fun hmem ↦
          hseen write.1 hmem (List.mem_cons_self ..)
        have hobject : write.2.isObject = true := hobjects write (List.mem_cons_self ..)
        simp [validateRecoveryWrite, hnew, hobject]
      have hrest := ih hnodup.2 (fun other hother ↦ hobjects other (List.mem_cons_of_mem _ hother))
        (write.1 :: seen) (by
          intro name hname
          rcases List.mem_cons.mp hname with rfl | hname
          · exact hnodup.1
          · exact fun hmem ↦ hseen name hname (List.mem_cons_of_mem _ hmem))
      rw [List.map_cons, validateRecoveryWrites, hfirst, ok_bind, hrest, ok_bind]

/-- The journal of a save with a proper operation id and time is admitted by a replay. -/
theorem validateJournal_prepared_ok {writes : Writes} {operationId createdAt : String}
    (hnodup : writes.names.Nodup) (hobjects : ∀ write ∈ writes, write.2.isObject) (hne : writes ≠ [])
    (hid : 1 ≤ operationId.length ∧ operationId.length ≤ 200)
    (htime : validateRecoveryTimestamp R createdAt = .ok ()) :
    validateJournal R (preparedJournal R writes operationId createdAt) = .ok writes := by
  have hentries : recoveryWrites R (preparedJournal R writes operationId createdAt) =
      .ok (preparedJournal R writes operationId createdAt).writes := by
    have hsome : (preparedJournal R writes operationId createdAt).writes ≠ [] := by
      simpa [preparedJournal] using hne
    have hlength : ¬¬(1 ≤ (preparedJournal R writes operationId createdAt).operationId.length ∧
        (preparedJournal R writes operationId createdAt).operationId.length ≤ 200) := not_not.mpr hid
    have hstamp : validateRecoveryTimestamp R
        (preparedJournal R writes operationId createdAt).createdAt = .ok () := htime
    rw [recoveryWrites, if_neg (by simp [preparedJournal]), if_neg hlength, hstamp, ok_bind,
      if_neg hsome]
  rw [validateJournal, hentries, ok_bind]
  exact validateRecoveryWrites_ok hnodup hobjects [] (by simp)

/-- Nothing stands in the way of a replay: the journal is admitted, the baseline can be read and the
targets have a task baseline that can be published. -/
structure Replayable (R : StoreRules) (journal : Journal) (writes : Writes) (target : Docs)
    (disk : Disk) : Prop where
  admitted : validateJournal R journal = .ok writes
  baseline : ∀ manifest, disk.manifest = some manifest → validateStoreManifest manifest = .ok ()
  tasks : ∃ tasks, tasksOf R target = .ok tasks ∧ validateStoreManifestTasks tasks = .ok ()

end WorkStack.Store
