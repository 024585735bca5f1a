import WorkStack.Store.CrashAtomicity

/-!
# Saves that validation refuses

The documents are validated only when the manifest is about to be published, and by then they have
been replaced. A refused save therefore leaves its targets in place and its journal behind, and the
next recovery publishes them without asking again. What holds is the conditional law: as long as
every save leads to documents that validation accepts, no refused document is ever left on disk.
-/

namespace WorkStack.Store

open Effect Effect.Outcome

variable {R : StoreRules}

/-! ## One save -/

section Save

variable {disk : Disk} {m : Process} {writes : Writes} {journal : Journal}

/-- An undisturbed commit of a store in sync ends with every target in place; it returns only if
validation accepts them. -/
theorem wp_commitPrepared (hsync : InSync R disk) (hnodup : writes.names.Nodup) :
    Command.wp (Command.undisturbed (machine R)) (commitPrepared R journal writes)
      (fun _ _ after ↦ Finished R (writes.bodies disk.docs) after ∧
        Accepted R (writes.bodies disk.docs))
      (fun _ _ after ↦
        after = { disk with docs := writes.bodies disk.docs, journal := some journal }) m disk := by
  obtain ⟨hnone, manifest, hmanifest, hvalid, hdescribes⟩ := hsync
  obtain ⟨m', hassert⟩ := observes_assertWritable (R := R) (m := m) hmanifest hvalid
    hdescribes.complete hdescribes.files
  have hexists := observes_journalExists (R := R) disk m'
  rw [hnone] at hexists
  refine hassert.wp_crash_bind trivial (hexists.wp_crash_bind trivial ?_)
  refine (observes_readManifest hmanifest hvalid).wp_crash_bind trivial ?_
  refine Command.Observes.wp_crash_bind (.pure manifest.files) trivial ?_
  rw [Command.wp_bind, wp_crash_writeJournal]
  exact ⟨trivial, wp_crash_weaken (wp_crash_commitDurable { disk with journal := some journal }
    hdescribes hvalid rfl hnodup rfl rfl hmanifest) fun _ _ ↦ trivial⟩

/-- A store in sync whose targets were replaced and whose journal stayed is an interrupted commit. -/
theorem InSync.durable_replaced (hsync : InSync R disk) (journal : Journal) (writes : Writes) :
    Durable R journal writes (writes.bodies disk.docs)
      { disk with docs := writes.bodies disk.docs, journal := some journal } := by
  obtain ⟨-, manifest, hmanifest, -, hdescribes⟩ := hsync
  exact .inl (.of_replaced hdescribes rfl rfl hmanifest)

/-- Every value is an object, as the signature of `save_many` asks. -/
def WriteSet.Objects (writes : WriteSet) : Prop := ∀ write ∈ writes.entries, write.2.isObject

/-- Where the save takes effect it is a commit of its entries after a recovery. -/
theorem saveMany_eq {writes : WriteSet} (hne : writes.entries ≠ []) (hobjects : writes.Objects)
    (operationId : Option String) (context : SaveContext) :
    saveMany R writes operationId context = transaction R (commitPrepared R
      (preparedJournal R writes.entries (operationIdOf operationId context) context.now)
      writes.entries) := by
  rw [saveMany, if_neg hne, if_neg]
  rintro ⟨write, hwrite, hobject⟩
  exact hobject (hobjects write hwrite)

theorem wp_saveMany (writes : WriteSet) (hsync : InSync R disk) (hne : writes.entries ≠ [])
    (hobjects : writes.Objects) (operationId : Option String) (context : SaveContext) :
    Command.wp (Command.undisturbed (machine R)) (saveMany R writes operationId context)
      (fun _ _ after ↦ Finished R (Writes.bodies writes.entries disk.docs) after ∧
        Accepted R (Writes.bodies writes.entries disk.docs))
      (fun _ _ after ↦ after = { disk with
        docs := Writes.bodies writes.entries disk.docs
        journal := some (preparedJournal R writes.entries (operationIdOf operationId context)
          context.now) }) m disk := by
  rw [saveMany_eq hne hobjects]
  exact (recoverLocked_of_no_journal hsync.journal).wp_crash_bind trivial
    (wp_commitPrepared hsync writes.nodup)

/-- What is asked of a refused save: the old documents after it raised, and after any recovery. -/
def RefusalKeepsDocuments (R : StoreRules) (disk : Disk) (m : Process) (writes : WriteSet)
    (operationId : Option String) (context : SaveContext) : Prop :=
  ∀ e m' after, (saveMany R writes operationId context).run (machine R) m disk =
      ((.error e, m'), after) →
    ¬Accepted R (Writes.bodies writes.entries disk.docs) →
    after.docs = disk.docs ∧
      ∀ m'', ((recoverLocked R).run (machine R) m'' after).2.docs = disk.docs

/-- A save asks for nothing that validation would refuse: it is refused before its journal, it
changes no byte, or its documents pass. -/
def SaveAdmissible (R : StoreRules) (docs : Docs) (writes : WriteSet) : Prop :=
  ¬writes.Objects ∨ Writes.bodies writes.entries docs = docs ∨
    Accepted R (Writes.bodies writes.entries docs)

theorem run_saveMany_not_objects {writes : WriteSet} (hobjects : ¬writes.Objects)
    (operationId : Option String) (context : SaveContext) :
    (saveMany R writes operationId context).run (machine R) m disk =
      ((.error (.value "store value must be a JSON object"), m), disk) := by
  simp only [WriteSet.Objects, not_forall] at hobjects
  obtain ⟨write, hwrite, hobject⟩ := hobjects
  have hne : writes.entries ≠ [] := List.ne_nil_of_mem hwrite
  rw [saveMany, if_neg hne, if_pos ⟨write, hwrite, hobject⟩]
  rfl

theorem run_saveMany_nil {writes : WriteSet} (hnil : writes.entries = [])
    (operationId : Option String) (context : SaveContext) :
    (saveMany R writes operationId context).run (machine R) m disk = ((.ok (), m), disk) := by
  rw [saveMany, if_pos hnil]
  rfl

/-- The recovery of a refused save that changed no byte changes no byte either. -/
theorem recoverLocked_keeps_docs {operationId createdAt : String} (hnodup : writes.names.Nodup)
    (hjournal : journal = preparedJournal R writes operationId createdAt)
    (h : Durable R journal writes disk.docs disk) :
    ((recoverLocked R).run (machine R) m disk).2.docs = disk.docs := by
  have hwp := wp_crash_weaken (wp_crash_recoverLocked (m := m) hnodup hjournal h)
    fun _ _ ↦ trivial
  rcases Command.run_cases hwp with ⟨a, m', after, hrun, hfinished⟩ | ⟨e, m', after, hrun, ⟨-, hdocs⟩, -⟩
  · rw [hrun]
    exact hfinished.docs
  · rw [hrun]
    exact hdocs.elim id id

theorem refusalKeepsDocuments_iff (hsync : InSync R disk) (writes : WriteSet)
    (operationId : Option String) (context : SaveContext) :
    RefusalKeepsDocuments R disk m writes operationId context ↔
      SaveAdmissible R disk.docs writes := by
  constructor
  · intro hkeeps
    by_contra hadmissible
    simp only [SaveAdmissible, not_or, not_not] at hadmissible
    obtain ⟨hobjects, hchanged, hrefused⟩ := hadmissible
    have hne : writes.entries ≠ [] := fun hnil ↦ hchanged (by rw [hnil]; rfl)
    rcases Command.run_cases (wp_saveMany (m := m) writes hsync hne hobjects operationId context) with
      ⟨a, m', after, -, -, haccepted⟩ | ⟨e, m', after, hrun, rfl⟩
    · exact hrefused haccepted
    · exact hchanged (hkeeps e m' _ hrun hrefused).1
  · rintro hadmissible e m' after hrun hrefused
    rcases hadmissible with hobjects | hsame | haccepted
    · rw [run_saveMany_not_objects hobjects] at hrun
      cases hrun
      exact ⟨rfl, fun m'' ↦ by rw [(recoverLocked_of_no_journal hsync.journal).run]⟩
    · by_cases hobjects : writes.Objects
      swap
      · rw [run_saveMany_not_objects hobjects] at hrun
        cases hrun
        exact ⟨rfl, fun m'' ↦ by rw [(recoverLocked_of_no_journal hsync.journal).run]⟩
      have hne : writes.entries ≠ [] := fun hnil ↦ by
        rw [run_saveMany_nil hnil] at hrun
        cases hrun
      rcases Command.run_cases (wp_saveMany (m := m) writes hsync hne hobjects operationId context) with
        ⟨a, m'', after', hrun', -⟩ | ⟨e', m'', after', hrun', rfl⟩
      · rw [hrun'] at hrun
        cases hrun
      · rw [hrun'] at hrun
        cases hrun
        exact ⟨hsame, fun m ↦ (recoverLocked_keeps_docs writes.nodup rfl
          (hsync.durable_replaced _ _)).trans hsame⟩
    · exact absurd haccepted hrefused

end Save

/-! ## Runs of saves and recoveries -/

/-- The calls of one process, each completed or raised before the next. -/
def runCalls (R : StoreRules) : List StoreCall → Process → Disk → Process × Disk
  | [], m, disk => (m, disk)
  | call :: calls, m, disk =>
      runCalls R calls ((call.command R).run (machine R) m disk).1.2
        ((call.command R).run (machine R) m disk).2

theorem runCalls_cons {R : StoreRules} (call : StoreCall) {calls : List StoreCall} {m m' : Process}
    {disk disk' : Disk} {outcome : Except StoreError Unit}
    (h : (call.command R).run (machine R) m disk = ((outcome, m'), disk')) :
    runCalls R (call :: calls) m disk = runCalls R calls m' disk' := by
  rw [runCalls, h]

def StoreCall.Admissible (R : StoreRules) (docs : Docs) : StoreCall → Prop
  | .saveMany writes _ _ => SaveAdmissible R docs writes
  | .recover => True

/-- Every save of a run is admissible for the documents it finds. -/
def CallsAdmissible (R : StoreRules) : List StoreCall → Process → Disk → Prop
  | [], _, _ => True
  | call :: calls, m, disk => call.Admissible R disk.docs ∧
      CallsAdmissible R calls ((call.command R).run (machine R) m disk).1.2
        ((call.command R).run (machine R) m disk).2

/-- In sync as the files show it: the manifest names the digests of documents that validation
rejects. -/
def InSyncRejected (R : StoreRules) (disk : Disk) : Prop :=
  (∃ manifest, disk.manifest = some manifest ∧ manifest.files = hashesOf R disk.docs) ∧
    ¬Accepted R disk.docs

/-- Between calls: accepted documents, described by the manifest or intended by the journal. -/
def Resting (R : StoreRules) (disk : Disk) : Prop :=
  Accepted R disk.docs ∧ ∃ (writes : Writes) (operationId createdAt : String), writes.names.Nodup ∧
    Durable R (preparedJournal R writes operationId createdAt) writes disk.docs disk

section Runs

variable {disk : Disk} {m : Process}

theorem Resting.of_inSync (hsync : InSync R disk) (haccepted : Accepted R disk.docs) :
    Resting R disk := by
  obtain ⟨hnone, manifest, hmanifest, -, hdescribes⟩ := hsync
  exact ⟨haccepted, [], "", "", List.nodup_nil, .inr ⟨hnone, rfl, manifest, hmanifest, hdescribes⟩⟩

/-- A recovery between calls leaves the documents as they are. -/
theorem Resting.wp_recoverLocked (h : Resting R disk) :
    Command.wp (Command.undisturbed (machine R)) (recoverLocked R)
      (fun _ _ after ↦ Finished R disk.docs after)
      (fun _ _ after ↦ Resting R after ∧ after.docs = disk.docs) m disk := by
  obtain ⟨haccepted, writes, operationId, createdAt, hnodup, hdurable⟩ := h
  have hwp := wp_crash_weaken (wp_crash_recoverLocked (m := m) hnodup rfl hdurable) fun _ _ ↦ trivial
  refine Command.wp_mono hwp (fun _ _ _ h ↦ h) ?_
  rintro e m' after ⟨⟨hafter, hdocs⟩, -⟩
  have hsame : after.docs = disk.docs := hdocs.elim id id
  exact ⟨⟨hsame ▸ haccepted, writes, operationId, createdAt, hnodup, hsame ▸ hafter⟩, hsame⟩

/-- A commit that cannot read the manifest leaves every file as it is. -/
theorem observes_commitPrepared_unreadable (writes : Writes) (journal : Journal) {manifest : Manifest}
    {message : String} (hnone : disk.journal = none) (hmanifest : disk.manifest = some manifest)
    (hinvalid : validateStoreManifest manifest = .error message) :
    Command.Observes (machine R) disk (commitPrepared R journal writes) m
      (.error (.corrupt message)) m := by
  have hread := observes_readManifest_invalid (R := R) (m := m) hmanifest hinvalid
  have hexists := observes_journalExists (R := R) disk m
  rw [hnone] at hexists
  cases hready : m.readiness with
  | none =>
      refine .bind (a := ()) (n := m) (.bind .memory ?_) (.bind hexists (.bind_error hread))
      rw [hready]
      exact .pure ()
  | some readiness =>
      refine .bind_error (.bind .memory ?_)
      rw [hready]
      exact .bind_error (.bind_error (.bind_error hread))

/-- A commit of an admissible write set over a finished commit comes to rest. -/
theorem wp_commitPrepared_resting {writes : Writes} {operationId createdAt : String}
    (hfinished : Finished R disk.docs disk) (haccepted : Accepted R disk.docs)
    (hnodup : writes.names.Nodup)
    (hadmissible : writes.bodies disk.docs = disk.docs ∨ Accepted R (writes.bodies disk.docs)) :
    Command.wp (Command.undisturbed (machine R))
      (commitPrepared R (preparedJournal R writes operationId createdAt) writes)
      (fun _ _ ↦ Resting R) (fun _ _ ↦ Resting R) m disk := by
  obtain ⟨manifest, hmanifest, hdescribes⟩ := hfinished.manifest
  cases hvalid : validateStoreManifest manifest with
  | error message =>
      have hobserve := observes_commitPrepared_unreadable (R := R) (m := m) writes
        (preparedJournal R writes operationId createdAt) hfinished.journal hmanifest hvalid
      refine hobserve.wp_crash trivial (by simp) fun _ _ ↦ ?_
      exact ⟨haccepted, [], "", "", List.nodup_nil, .inr hfinished⟩
  | ok =>
      have htarget : Accepted R (writes.bodies disk.docs) :=
        hadmissible.elim (fun hsame ↦ by rw [hsame]; exact haccepted) id
      have hsync : InSync R disk := ⟨hfinished.journal, manifest, hmanifest, hvalid, hdescribes⟩
      refine Command.wp_mono (wp_commitPrepared hsync hnodup) ?_ ?_
      · rintro _ _ after ⟨hafter, -⟩
        exact ⟨hafter.docs.symm ▸ htarget, writes, operationId, createdAt, hnodup,
          .inr (hafter.docs.symm ▸ hafter)⟩
      · rintro _ _ after rfl
        exact ⟨htarget, writes, operationId, createdAt, hnodup, hsync.durable_replaced _ _⟩

theorem Resting.wp_command {call : StoreCall} (h : Resting R disk)
    (hadmissible : call.Admissible R disk.docs) :
    Command.wp (Command.undisturbed (machine R)) (call.command R) (fun _ _ ↦ Resting R)
      (fun _ _ ↦ Resting R) m disk := by
  have haccepted := h.1
  have hrecovered : ∀ after, Finished R disk.docs after → Resting R after := fun after hafter ↦
    ⟨hafter.docs.symm ▸ haccepted, [], "", "", List.nodup_nil, .inr (hafter.docs.symm ▸ hafter)⟩
  cases call with
  | recover => exact Command.wp_mono h.wp_recoverLocked (fun _ _ ↦ hrecovered) fun _ _ _ h ↦ h.1
  | saveMany writes operationId context =>
      rw [StoreCall.command]
      by_cases hobjects : writes.Objects
      swap
      · rw [saveMany, if_neg (fun hnil ↦ hobjects (by simp [WriteSet.Objects, hnil])), if_pos]
        · exact h
        · simpa [WriteSet.Objects] using hobjects
      by_cases hne : writes.entries = []
      · rw [saveMany, if_pos hne]
        exact h
      rw [saveMany_eq hne hobjects, transaction]
      refine Command.wp_seq h.wp_recoverLocked ?_ fun _ _ _ h ↦ h.1
      rintro ⟨⟩ m after hafter
      have hdocs := hafter.docs
      refine wp_commitPrepared_resting (hdocs.symm ▸ hafter) (hdocs.symm ▸ haccepted) writes.nodup ?_
      rw [hdocs]
      exact hadmissible.resolve_left (not_not.mpr hobjects)

/-- A run whose saves are admissible only ever leaves documents that validation accepts. -/
theorem Resting.runCalls {calls : List StoreCall} (h : Resting R disk)
    (hadmissible : CallsAdmissible R calls m disk) : Resting R (runCalls R calls m disk).2 := by
  induction calls generalizing m disk with
  | nil => exact h
  | cons call calls ih =>
      obtain ⟨hcall, hcalls⟩ := hadmissible
      refine ih ?_ hcalls
      rcases Command.run_cases (h.wp_command (m := m) hcall) with
        ⟨a, m', after, hrun, hafter⟩ | ⟨e, m', after, hrun, hafter⟩
      · rwa [hrun]
      · rwa [hrun]

end Runs

/-- A save that validation refuses keeps the old documents exactly when it is admissible, and runs
whose saves are admissible never bring the store in sync with rejected documents. -/
theorem refused_save_law (R : StoreRules) :
    (∀ disk m writes operationId context, InSync R disk →
      (RefusalKeepsDocuments R disk m writes operationId context ↔
        SaveAdmissible R disk.docs writes)) ∧
    ∀ calls m disk, InSync R disk → Accepted R disk.docs → CallsAdmissible R calls m disk →
      ¬InSyncRejected R (runCalls R calls m disk).2 := by
  constructor
  · intro disk m writes operationId context hsync
    exact refusalKeepsDocuments_iff hsync writes operationId context
  · intro calls m disk hsync haccepted hadmissible hrejected
    exact hrejected.2 ((Resting.of_inSync hsync haccepted).runCalls hadmissible).1

def rejectedNotes : Json := .obj [("version", .int 1), ("notes", .obj [])]

def rejectedWrites : WriteSet := ⟨[(.notes, rejectedNotes)], by decide⟩

def sampleContext : SaveContext := ⟨"2026-01-05T09:00:00Z", "0b54cb90-6c1e-4b4a-9a4f-c93a5e1c9b11"⟩

theorem rejectedWrites_objects : rejectedWrites.Objects := by
  rintro write hwrite
  rw [show write = (.notes, rejectedNotes) from List.mem_singleton.mp hwrite]
  rfl

theorem rejectedWrites_rejected : ¬Accepted (sampleRules [rejectedNotes])
    (Writes.bodies rejectedWrites.entries (sampleDisk [rejectedNotes]).docs) := by
  have hrefused : (verdictOf (sampleRules [rejectedNotes])
      (Writes.bodies rejectedWrites.entries (sampleDisk [rejectedNotes]).docs)).toBool = false := by
    decide +kernel
  rintro ⟨readiness, h⟩
  rw [h] at hrefused
  cases hrefused

theorem rejectedWrites_run : ∃ e m,
    (saveMany (sampleRules [rejectedNotes]) rejectedWrites none sampleContext).run
      (machine (sampleRules [rejectedNotes])) .fresh (sampleDisk [rejectedNotes]) =
        ((.error e, m), { sampleDisk [rejectedNotes] with
          docs := Writes.bodies rejectedWrites.entries (sampleDisk [rejectedNotes]).docs
          journal := some (preparedJournal (sampleRules [rejectedNotes]) rejectedWrites.entries
            sampleContext.uuid4 sampleContext.now) }) := by
  rcases Command.run_cases (wp_saveMany (m := .fresh) rejectedWrites
    (sampleDisk_inSync [rejectedNotes]) (by decide) rejectedWrites_objects none sampleContext) with
    ⟨a, m, after, -, -, haccepted⟩ | ⟨e, m, after, hrun, rfl⟩
  · exact absurd haccepted rejectedWrites_rejected
  · exact ⟨e, m, hrun⟩

theorem sampleDisk_accepted (further : List Json)
    (h : (verdictOf (sampleRules further) (sampleDisk further).docs).toBool = true) :
    Accepted (sampleRules further) (sampleDisk further).docs := by
  cases hverdict : verdictOf (sampleRules further) (sampleDisk further).docs with
  | ok readiness => exact ⟨readiness, hverdict⟩
  | error error =>
      rw [hverdict] at h
      cases h

theorem rejectedWrites_change :
    Writes.bodies rejectedWrites.entries (sampleDisk [rejectedNotes]).docs ≠
      (sampleDisk [rejectedNotes]).docs := by
  intro hsame
  have hnotes : (some rejectedNotes.serializedJsonBytes : Option Bytes) =
      some (defaultFor sampleWorkspaceId .notes).serializedJsonBytes := congrFun hsame .notes
  exact absurd hnotes (by decide)

/-- The recovery after the refused save publishes what validation rejected. -/
theorem rejectedWrites_published :
    InSyncRejected (sampleRules [rejectedNotes]) (runCalls (sampleRules [rejectedNotes])
      [.saveMany rejectedWrites none sampleContext, .recover] .fresh
      (sampleDisk [rejectedNotes])).2 := by
  obtain ⟨e, m, hsave⟩ := rejectedWrites_run
  obtain ⟨m', after, hrecover, hfinished⟩ := recoverLocked_completes (m := m) rejectedWrites.nodup rfl
    ((sampleDisk_inSync [rejectedNotes]).durable_replaced _ _)
    (sampleDisk_replayable [rejectedNotes] sampleContext.uuid4 sampleContext.now rejectedWrites.nodup
      rejectedWrites_objects (by decide) (by decide) (by decide) (by decide) rfl)
  have hafter : (runCalls (sampleRules [rejectedNotes])
      [.saveMany rejectedWrites none sampleContext, .recover] .fresh
      (sampleDisk [rejectedNotes])).2 = after := by
    rw [runCalls_cons (.saveMany rejectedWrites none sampleContext) hsave,
      runCalls_cons .recover hrecover]
    rfl
  rw [hafter]
  obtain ⟨manifest, hmanifest, hdescribes⟩ := hfinished.manifest
  exact ⟨⟨manifest, hmanifest, by rw [hdescribes.files, hfinished.docs]⟩, by
    rw [hfinished.docs]
    exact rejectedWrites_rejected⟩

/-- A save of notes that are not an array is refused; its documents stay, and the next recovery
brings the store in sync with them. -/
theorem refused_save_published :
    InSync (sampleRules [rejectedNotes]) (sampleDisk [rejectedNotes]) ∧
      Accepted (sampleRules [rejectedNotes]) (sampleDisk [rejectedNotes]).docs ∧
      ¬RefusalKeepsDocuments (sampleRules [rejectedNotes]) (sampleDisk [rejectedNotes]) .fresh
        rejectedWrites none sampleContext ∧
      InSyncRejected (sampleRules [rejectedNotes]) (runCalls (sampleRules [rejectedNotes])
        [.saveMany rejectedWrites none sampleContext, .recover] .fresh
        (sampleDisk [rejectedNotes])).2 := by
  have hsync := sampleDisk_inSync [rejectedNotes]
  refine ⟨hsync, sampleDisk_accepted _ (by decide +kernel), ?_, rejectedWrites_published⟩
  rw [refusalKeepsDocuments_iff hsync]
  rintro (hobjects | hsame | haccepted)
  · exact hobjects rejectedWrites_objects
  · exact rejectedWrites_change hsame
  · exact rejectedWrites_rejected haccepted

/-- The law at the sample store: a save of valid notes, and a run of it and a recovery. -/
theorem refused_save_law_sample :
    (RefusalKeepsDocuments (sampleRules [sampleNotes]) (sampleDisk [sampleNotes]) .fresh sampleWrites
        none sampleContext ↔ SaveAdmissible (sampleRules [sampleNotes])
          (sampleDisk [sampleNotes]).docs sampleWrites) ∧
      ¬InSyncRejected (sampleRules [sampleNotes]) (runCalls (sampleRules [sampleNotes])
        [.saveMany sampleWrites none sampleContext] .fresh (sampleDisk [sampleNotes])).2 := by
  have hsync := sampleDisk_inSync [sampleNotes]
  have hlaw := refused_save_law (sampleRules [sampleNotes])
  refine ⟨hlaw.1 _ _ _ _ _ hsync, hlaw.2 _ _ _ hsync (sampleDisk_accepted _ (by decide +kernel)) ?_⟩
  refine ⟨.inr (.inr ?_), trivial⟩
  have haccepted : (verdictOf (sampleRules [sampleNotes])
      (Writes.bodies sampleWrites.entries (sampleDisk [sampleNotes]).docs)).toBool = true := by
    decide +kernel
  cases hverdict : verdictOf (sampleRules [sampleNotes])
      (Writes.bodies sampleWrites.entries (sampleDisk [sampleNotes]).docs) with
  | ok readiness => exact ⟨readiness, hverdict⟩
  | error error =>
      rw [hverdict] at haccepted
      cases haccepted

end WorkStack.Store
