import WorkStack.Store.CrashAtomicity
import WorkStack.Store.Footprint

/-!
# External edits during a commit or a recovery

An external editor may change any document between any two steps. The replacements of a commit are
guarded by the digests of the committed baseline, so they never overwrite anything else. The
replacements of a recovery are guarded by digests that are read once more after the safety check:
what an editor wrote between the two reads becomes an expectation and is overwritten. As long as
no such read finds foreign bytes, nothing is lost in any interleaving.
-/

namespace WorkStack.Store

open Effect

variable {R : StoreRules}

/-- These bytes of a document are the ones the committed baseline names or the journal intends. -/
def NamedOrIntended (R : StoreRules) (disk : Disk) (name : DocName) (body : Bytes) : Prop :=
  (∃ manifest, disk.manifest = some manifest ∧ manifest.files name = some (R.sha256 body)) ∨
    ∃ journal, disk.journal = some journal ∧ ∃ write ∈ journal.writes, write.name = name.fileName ∧
      R.sha256 write.value.serializedJsonBytes = R.sha256 body

/-- The document holds no foreign bytes. -/
def Owned (R : StoreRules) (disk : Disk) (name : DocName) : Prop :=
  ∀ body, disk.docs name = some body → NamedOrIntended R disk name body

/-- An expectation is read where the document is owned. -/
def OwnedExpectation (R : StoreRules) : DiskOp → Disk → Prop
  | .readBytes .replaceExpectation name, disk => Owned R disk name
  | _, _ => True

/-- A replacement that goes through overwrites no foreign bytes. -/
def SafeReplacement (R : StoreRules) : DiskOp → Disk → Prop
  | .replaceDoc name expectation _, disk =>
      disk.expected R.sha256 name expectation = true → Owned R disk name
  | _, _ => True

/-- The external editor, with what is assumed of the reads and shown of the replacements. -/
def editContract (R : StoreRules) : Contract (machine R) where
  rely := Disk.ExternalEdit
  assume := OwnedExpectation R
  ensure := SafeReplacement R
  rely_refl := Disk.ExternalEdit.refl
  rely_trans := Disk.ExternalEdit.trans

/-- The digest is named by the baseline or intended by the journal. -/
def OwnedDigest (R : StoreRules) (manifest : Manifest) (journal : Journal) (name : DocName)
    (digest : Digest) : Prop :=
  manifest.files name = some digest ∨ ∃ write ∈ journal.writes, write.name = name.fileName ∧
    R.sha256 write.value.serializedJsonBytes = digest

section Steps

variable {disk : Disk} {m : Process} {manifest : Manifest} {journal : Journal}

theorem safeReplacement_of_settles {o : DiskOp} (h : o.Settles) (u : Disk) : SafeReplacement R o u := by
  cases o with
  | replaceDoc name expectation value => exact h.elim
  | _ => trivial

/-- A command that replaces nothing keeps the contract, and the manifest stays. -/
theorem wp_edit_settles {α : Type} {c : StoreCommand α}
    (hc : Command.Within (.any DiskOp.Settles) c) (hmanifest : disk.manifest.isSome) :
    Command.wp (editContract R) c (fun _ _ u ↦ u.manifest.isSome) (fun _ _ u ↦ u.manifest.isSome)
      m disk := by
  have hwp := Command.Within.wp (C := editContract R) (I := fun u : Disk ↦ u.manifest.isSome) (m := m)
    (w := disk) hc ?_ ?_ hmanifest
  · exact Command.wp_mono hwp (fun _ _ _ h ↦ h.1) fun _ _ _ h ↦ h.1
  · rintro u v hu ⟨-, hkeep, -⟩
    rwa [hkeep]
  · intro o u ho hu _
    refine ⟨safeReplacement_of_settles ho u, ?_⟩
    cases o with
    | replaceDoc name expectation value => exact ho.elim
    | writeManifest site manifest => exact rfl
    | _ => exact hu

/-- A command that only reads keeps whatever holds of the manifest and the journal. -/
theorem wp_edit_reads {α : Type} {c : StoreCommand α} (hc : Command.Within (.same PlainRead) c) :
    Command.wp (editContract R) c
      (fun _ _ u ↦ u.manifest = disk.manifest ∧ u.journal = disk.journal)
      (fun _ _ u ↦ u.manifest = disk.manifest ∧ u.journal = disk.journal) m disk := by
  have hwp := Command.Within.wp (C := editContract R) (m := m) (w := disk)
    (I := fun u : Disk ↦ u.manifest = disk.manifest ∧ u.journal = disk.journal) hc ?_ ?_ ⟨rfl, rfl⟩
  · exact Command.wp_mono hwp (fun _ _ _ h ↦ h.1) fun _ _ _ h ↦ h.1
  · rintro u v ⟨hm, hj⟩ ⟨hj', hm', -⟩
    exact ⟨hm'.trans hm, hj'.trans hj⟩
  · intro o u ho hu _
    refine ⟨safeReplacement_of_settles ho.2 u, ?_⟩
    rw [show ((machine R).perform o u).2 = u from Disk.perform_reads ho.1 u]
    exact hu

/-- A replacement loop is safe where each of its replacements is, and it touches documents only. -/
theorem wp_edit_replaceDocuments (disk : Disk) {expectations : Expectations} {writes : Writes}
    (hsafe : ∀ u : Disk, u.manifest = disk.manifest → u.journal = disk.journal → ∀ write ∈ writes,
      SafeReplacement R (.replaceDoc write.1 (expectations write.1) write.2) u) :
    Command.wp (editContract R) (replaceDocuments expectations writes)
      (fun _ _ u ↦ u.manifest = disk.manifest ∧ u.journal = disk.journal)
      (fun _ _ u ↦ u.manifest = disk.manifest ∧ u.journal = disk.journal) m disk := by
  have hloop := Command.wp_fold (C := editContract R) (m := m) (w := disk)
    (R := fun _ _ (u : Disk) ↦ u.manifest = disk.manifest ∧ u.journal = disk.journal)
    (fun _ write ↦ atomicWrite expectations write.1 write.2)
    (I := fun items _ _ (u : Disk) ↦ (u.manifest = disk.manifest ∧ u.journal = disk.journal) ∧
      ∀ write ∈ items, write ∈ writes) ?_ writes () ⟨⟨rfl, rfl⟩, fun _ h ↦ h⟩
  · exact Command.wp_mono hloop (fun _ _ _ h ↦ h.1) fun _ _ _ h ↦ h
  rintro ⟨⟩ write items m u ⟨⟨hmanifest, hjournal⟩, hitems⟩
  rw [atomicWrite, Command.wp_bind]
  intro v hv _
  obtain ⟨hj, hm, -⟩ := hv
  have hvm : v.manifest = disk.manifest := hm.trans hmanifest
  have hvj : v.journal = disk.journal := hj.trans hjournal
  refine ⟨hsafe v hvm hvj write (hitems write (List.mem_cons_self ..)), ?_⟩
  have hrest : ∀ write ∈ items, write ∈ writes := fun other h ↦
    hitems other (List.mem_cons_of_mem _ h)
  by_cases hexpected : v.expected R.sha256 write.1 (expectations write.1) = true
  · rw [show (machine R).perform (.replaceDoc write.1 (expectations write.1) write.2) v =
      (true, v.write write.1 write.2.serializedJsonBytes) from if_pos hexpected]
    exact ⟨⟨hvm, hvj⟩, hrest⟩
  · rw [show (machine R).perform (.replaceDoc write.1 (expectations write.1) write.2) v =
      (false, v) from if_neg hexpected]
    exact ⟨hvm, hvj⟩

end Steps

/-! ## Commit -/

section Commit

variable {disk : Disk} {m : Process} {writes : Writes} {journal : Journal}

/-- The replacements of a commit are guarded by the digests the baseline names. -/
theorem safeReplacement_commit {manifest : Manifest} {write : DocName × Json} {u : Disk}
    (hmanifest : u.manifest = some manifest) (hwrite : write ∈ writes) :
    SafeReplacement R
      (.replaceDoc write.1 (commitExpectations manifest.files writes write.1) write.2) u := by
  intro hexpected body hbody
  have hmem : write.1 ∈ writes.names := List.mem_map_of_mem hwrite
  rw [commitExpectations, if_pos hmem] at hexpected
  have hdigest : u.digests R.sha256 write.1 = manifest.files write.1 := of_decide_eq_true hexpected
  refine .inl ⟨manifest, hmanifest, ?_⟩
  rw [← hdigest, Disk.digests, hbody]
  rfl

theorem wp_edit_readManifest {manifest : Manifest} (hmanifest : disk.manifest = some manifest) :
    Command.wp (editContract R) readManifest
      (fun read _ u ↦ read = some manifest ∧ u.manifest = some manifest ∧ u.journal = disk.journal)
      (fun _ _ u ↦ u.manifest.isSome) m disk := by
  rw [readManifest, Command.wp_bind]
  rintro u ⟨hj, hm, -⟩ -
  have hu : u.manifest = some manifest := hm.trans hmanifest
  refine ⟨trivial, ?_⟩
  have hstep : (machine R).perform .readManifest u = (some manifest, u) := Prod.ext hu rfl
  rw [hstep]
  refine (Command.wp_bind _ _).mpr (Command.wp_ofExcept _ (fun _ _ ↦ ⟨rfl, hu, hj⟩) fun _ _ ↦ ?_)
  rw [hu]
  rfl

theorem wp_edit_commitPrepared (hmanifest : disk.manifest.isSome) :
    Command.wp (editContract R) (commitPrepared R journal writes) (fun _ _ u ↦ u.manifest.isSome)
      (fun _ _ u ↦ u.manifest.isSome) m disk := by
  refine Command.wp_seq (wp_edit_settles (Within.settles within_assertWritable) hmanifest) ?_
    fun _ _ _ h ↦ h
  rintro ⟨⟩ m u hu
  refine Command.wp_seq (wp_edit_settles (within_step trivial) hu) ?_ fun _ _ _ h ↦ h
  intro pending m u hu
  split_ifs
  · exact hu
  obtain ⟨manifest, hmanifest⟩ := Option.isSome_iff_exists.mp hu
  refine Command.wp_seq (wp_edit_readManifest hmanifest) ?_ fun _ _ _ h ↦ h
  rintro baseline m u ⟨rfl, hu, -⟩
  rw [originalHashes, Command.wp_bind, Command.wp_pure, Command.wp_bind]
  rintro w ⟨-, hm, -⟩ -
  refine ⟨trivial, ?_⟩
  have hw : w.manifest = some manifest := hm.trans hu
  refine Command.wp_seq (wp_edit_replaceDocuments { w with journal := some journal } ?_) ?_ ?_
  · intro v hvm _ write hwrite
    exact safeReplacement_commit (hvm.trans hw) hwrite
  · rintro ⟨⟩ m v ⟨hvm, -⟩
    refine wp_edit_settles (within_publishCommit _ _ _) ?_
    rw [hvm]
    exact Option.isSome_of_eq_some hw
  · rintro e m v ⟨hvm, -⟩
    rw [hvm]
    exact Option.isSome_of_eq_some hw

end Commit

/-! ## Recovery -/

section Recovery

variable {disk : Disk} {m : Process} {writes : Writes} {journal : Journal} {manifest : Manifest}

theorem ownedDigest_of_owned {u : Disk} {name : DocName} {body : Bytes}
    (hmanifest : u.manifest = some manifest) (hjournal : u.journal = some journal)
    (howned : Owned R u name) (hbody : u.docs name = some body) :
    OwnedDigest R manifest journal name (R.sha256 body) := by
  rcases howned body hbody with ⟨manifest', hm, hfiles⟩ | ⟨journal', hj, hwrite⟩
  · cases hmanifest.symm.trans hm
    exact .inl hfiles
  · cases hjournal.symm.trans hj
    exact .inr hwrite

theorem owned_of_ownedDigest {u : Disk} {name : DocName} (hmanifest : u.manifest = some manifest)
    (hjournal : u.journal = some journal)
    (h : ∀ body, u.docs name = some body → OwnedDigest R manifest journal name (R.sha256 body)) :
    Owned R u name := by
  intro body hbody
  rcases h body hbody with hfiles | hwrite
  · exact .inl ⟨manifest, hmanifest, hfiles⟩
  · exact .inr ⟨journal, hjournal, hwrite⟩

/-- Every target has an expectation, and one that names bytes names owned ones. -/
def Guarded (R : StoreRules) (manifest : Manifest) (journal : Journal) (expectations : Expectations)
    (name : DocName) : Prop :=
  ∃ expected, expectations name = some expected ∧
    ∀ digest, expected = some digest → OwnedDigest R manifest journal name digest

theorem safeReplacement_of_guarded {expectations : Expectations} {write : DocName × Json} {u : Disk}
    (hmanifest : u.manifest = some manifest) (hjournal : u.journal = some journal)
    (hguarded : Guarded R manifest journal expectations write.1) :
    SafeReplacement R (.replaceDoc write.1 (expectations write.1) write.2) u := by
  obtain ⟨expected, hexpectation, howned⟩ := hguarded
  intro hmatch
  rw [hexpectation] at hmatch
  have hdigest : u.digests R.sha256 write.1 = expected := of_decide_eq_true hmatch
  refine owned_of_ownedDigest hmanifest hjournal fun body hbody ↦ howned _ ?_
  rw [← hdigest, Disk.digests, hbody]
  rfl

/-- The digest a recovery expects is one of owned bytes, if the read found owned bytes. -/
theorem wp_edit_expectationDigest {name : DocName} (hmanifest : disk.manifest = some manifest)
    (hjournal : disk.journal = some journal) :
    Command.wp (editContract R) (currentDigest R .replaceExpectation name)
      (fun expected _ u ↦ (u.manifest = some manifest ∧ u.journal = some journal) ∧
        ∀ digest, expected = some digest → OwnedDigest R manifest journal name digest)
      (fun _ _ u ↦ u.manifest = some manifest ∧ u.journal = some journal) m disk := by
  rw [currentDigest, Command.wp_bind]
  rintro u ⟨hj, hm, -⟩ -
  have hum : u.manifest = some manifest := hm.trans hmanifest
  have huj : u.journal = some journal := hj.trans hjournal
  refine ⟨trivial, ?_⟩
  by_cases hpresent : (u.docs name).isSome = true
  swap
  · change Command.wp (editContract R) (if (u.docs name).isSome = true then _ else _) _ _ m u
    rw [if_neg hpresent]
    exact ⟨⟨hum, huj⟩, by simp⟩
  change Command.wp (editContract R) (if (u.docs name).isSome = true then _ else _) _ _ m u
  rw [if_pos hpresent, Command.wp_bind]
  rintro v ⟨hj', hm', -⟩ howned
  have hvm : v.manifest = some manifest := hm'.trans hum
  have hvj : v.journal = some journal := hj'.trans huj
  refine ⟨trivial, ?_⟩
  rw [show (machine R).perform (.readBytes .replaceExpectation name) v = (v.docs name, v) from rfl]
  cases hbody : v.docs name with
  | none => exact ⟨hvm, hvj⟩
  | some body =>
      refine ⟨⟨hvm, hvj⟩, fun digest hdigest ↦ ?_⟩
      cases hdigest
      exact ownedDigest_of_owned hvm hvj howned hbody

theorem wp_edit_collectExpectations (hmanifest : disk.manifest = some manifest)
    (hjournal : disk.journal = some journal) :
    Command.wp (editContract R) (collectExpectations R writes)
      (fun expectations _ u ↦ (u.manifest = some manifest ∧ u.journal = some journal) ∧
        ∀ write ∈ writes, Guarded R manifest journal expectations write.1)
      (fun _ _ u ↦ u.manifest = some manifest ∧ u.journal = some journal) m disk := by
  have hloop := Command.wp_fold (C := editContract R) (m := m) (w := disk)
    (R := fun _ _ (u : Disk) ↦ u.manifest = some manifest ∧ u.journal = some journal)
    (collectExpectation R)
    (I := fun items expectations _ (u : Disk) ↦ (u.manifest = some manifest ∧ u.journal = some journal) ∧
      ∀ write ∈ writes, write ∉ items → Guarded R manifest journal expectations write.1)
    ?_ writes (fun _ ↦ none) ⟨⟨hmanifest, hjournal⟩, fun write h h' ↦ absurd h h'⟩
  · exact Command.wp_mono hloop (fun _ _ _ h ↦ ⟨h.1, fun write hwrite ↦ h.2 write hwrite (by simp)⟩)
      fun _ _ _ h ↦ h
  rintro expectations item items m u ⟨⟨hum, huj⟩, hguarded⟩
  rw [collectExpectation]
  refine Command.wp_seq (wp_edit_expectationDigest hum huj) ?_ fun _ _ _ h ↦ h
  rintro expected m v ⟨hv, howned⟩
  refine ⟨hv, fun write hwrite hrest ↦ ?_⟩
  by_cases hname : write.1 = item.1
  · refine ⟨expected, ?_, fun digest hdigest ↦ ?_⟩
    · rw [hname, Function.update_self]
    · rw [hname]
      exact howned digest hdigest
  · obtain ⟨expected', hexpectation, howned'⟩ := hguarded write hwrite fun hmem ↦ by
      rcases List.mem_cons.mp hmem with rfl | hmem
      · exact hname rfl
      · exact hrest hmem
    exact ⟨expected', by rw [Function.update_of_ne hname, hexpectation], howned'⟩

theorem wp_edit_replayJournal (hmanifest : disk.manifest = some manifest)
    (hjournal : disk.journal = some journal) :
    Command.wp (editContract R) (replayJournal R journal) (fun _ _ u ↦ u.manifest.isSome)
      (fun _ _ u ↦ u.manifest.isSome) m disk := by
  have hpresent : ∀ {u : Disk}, u.manifest = some manifest → u.manifest.isSome := fun h ↦
    Option.isSome_of_eq_some h
  rw [replayJournal, Command.wp_bind]
  refine Command.wp_ofExcept _ (fun admitted _ ↦ ?_) fun _ _ ↦ hpresent hmanifest
  refine Command.wp_seq (wp_edit_readManifest hmanifest) ?_ fun _ _ _ h ↦ h
  rintro baseline m u ⟨rfl, hum, huj⟩
  have huj : u.journal = some journal := huj.trans hjournal
  refine Command.wp_seq (wp_edit_reads (Within.reads (within_assertRecoveryTargetsSafe _ _))) ?_ fun _ _ _ h ↦ hpresent (h.1.trans hum)
  rintro ⟨⟩ m v ⟨hvm, hvj⟩
  refine Command.wp_seq (wp_edit_collectExpectations (hvm.trans hum) (hvj.trans huj)) ?_
    fun _ _ _ h ↦ hpresent h.1
  rintro expectations m v ⟨⟨hvm, hvj⟩, hguarded⟩
  refine Command.wp_seq (wp_edit_replaceDocuments v ?_) ?_ ?_
  · intro w hwm hwj write hwrite
    exact safeReplacement_of_guarded (hwm.trans hvm) (hwj.trans hvj) (hguarded write hwrite)
  · rintro ⟨⟩ m w ⟨hwm, -⟩
    exact wp_edit_settles (within_finishRecovery _ _) (hpresent (hwm.trans hvm))
  · rintro e m w ⟨hwm, -⟩
    exact hpresent (hwm.trans hvm)

theorem wp_edit_recoverLocked (hmanifest : disk.manifest.isSome) :
    Command.wp (editContract R) (recoverLocked R) (fun _ _ u ↦ u.manifest.isSome)
      (fun _ _ u ↦ u.manifest.isSome) m disk := by
  obtain ⟨manifest, hmanifest⟩ := Option.isSome_iff_exists.mp hmanifest
  rw [recoverLocked, Command.wp_bind]
  rintro u ⟨-, hm, -⟩ -
  have hu : u.manifest = some manifest := hm.trans hmanifest
  refine ⟨trivial, ?_⟩
  change Command.wp (editContract R) (if u.journal.isSome = true then _ else _) _ _ m u
  split_ifs
  · rw [Command.wp_bind]
    rintro v ⟨hj', hm', -⟩ -
    have hv : v.manifest = some manifest := hm'.trans hu
    refine ⟨trivial, ?_⟩
    change Command.wp (editContract R) (match v.journal with
      | none => Command.throw (StoreError.fileNotFound ".workstack-journal.json")
      | some journal => replayJournal R journal) _ _ m v
    cases hjournal : v.journal with
    | none => exact Option.isSome_of_eq_some hv
    | some journal => exact wp_edit_replayJournal hv hjournal
  · exact Option.isSome_of_eq_some hu

end Recovery

/-! ## Sessions -/

/-- Calls one after another; what one of them raises does not stop the next. -/
def session (R : StoreRules) (calls : List StoreCall) : StoreCommand Unit :=
  Command.fold (fun _ call ↦ (call.command R).catching fun _ ↦ pure ()) calls ()

section Session

variable {disk : Disk} {m : Process}

theorem wp_edit_saveMany (writes : WriteSet) (operationId : Option String) (context : SaveContext)
    (hmanifest : disk.manifest.isSome) :
    Command.wp (editContract R) (saveMany R writes operationId context)
      (fun _ _ u ↦ u.manifest.isSome) (fun _ _ u ↦ u.manifest.isSome) m disk := by
  unfold saveMany
  split_ifs
  · exact hmanifest
  · exact hmanifest
  · apply Command.wp_seq (wp_edit_recoverLocked hmanifest)
    · intro _ m u hu
      exact wp_edit_commitPrepared hu
    · intro e m u hu
      exact hu

theorem wp_edit_session (calls : List StoreCall) (hmanifest : disk.manifest.isSome) :
    Command.wp (editContract R) (session R calls) (fun _ _ u ↦ u.manifest.isSome)
      (fun _ _ u ↦ u.manifest.isSome) m disk := by
  have hcall : ∀ (call : StoreCall) (m : Process) (u : Disk), u.manifest.isSome →
      Command.wp (editContract R) ((call.command R).catching fun _ ↦ pure ())
        (fun _ _ u ↦ u.manifest.isSome) (fun _ _ u ↦ u.manifest.isSome) m u := by
    intro call m u hu
    rw [Command.wp_catching]
    cases call with
    | saveMany writes operationId context => exact wp_edit_saveMany writes operationId context hu
    | recover => exact wp_edit_recoverLocked hu
  have hloop := Command.wp_fold (C := editContract R) (m := m) (w := disk)
    (R := fun _ _ (u : Disk) ↦ u.manifest.isSome)
    (fun (_ : Unit) (call : StoreCall) ↦ (call.command R).catching fun _ ↦ pure ())
    (I := fun _ _ _ (u : Disk) ↦ u.manifest.isSome)
    (fun _ call _ m u hu ↦ hcall call m u hu) calls () hmanifest
  exact hloop

end Session

/-- In every run of saves and recoveries beside an external editor in which each expectation of a
recovery is read where the document holds no foreign bytes, no replacement overwrites any. -/
theorem session_keeps_external_edits (R : StoreRules) (calls : List StoreCall) (m : Process)
    (disk after : Disk) (events : List (Event (machine R)))
    (q : Prog diskSignature (Except StoreError Unit × Process)) (hmanifest : disk.manifest.isSome)
    (hrun : Run (machine R) Disk.ExternalEdit (session R calls m) disk events q after)
    (howned : ∀ name u, .own (.readBytes .replaceExpectation name) u ∈ events → Owned R u name) :
    ∀ name expectation value u, .own (.replaceDoc name expectation value) u ∈ events →
      u.expected R.sha256 name expectation = true → Owned R u name := by
  have hassume : ∀ o u, .own o u ∈ events → (editContract R).assume o u := by
    intro o u hmem
    cases o with
    | readBytes site name =>
        cases site with
        | replaceExpectation => exact howned name u hmem
        | _ => trivial
    | _ => trivial
  obtain ⟨hensure, -⟩ := wp_run (C := editContract R) (wp_edit_session calls hmanifest) hrun
    (fun _ _ h ↦ h) hassume
  intro name expectation value u hmem
  exact hensure _ u hmem

/-! ## The edit that is lost -/

/-- The replay of a journal as far as its first replacement, with an edit that falls between the
safety check and the reading of the expectations: the replacement goes through whatever was edited. -/
theorem recoverLocked_reaches_replacement (disk : Disk) {edited : Disk} {m : Process} {manifest : Manifest}
    {journal : Journal} {name : DocName} {value : Json} {writes : Writes}
    (hmanifest : disk.manifest = some manifest) (hvalid : validateStoreManifest manifest = .ok ())
    (hdescribes : Describes R manifest disk.docs) (hjournal : disk.journal = some journal)
    (haccepted : validateJournal R journal = .ok ((name, value) :: writes))
    (hnodup : Writes.names ((name, value) :: writes) |>.Nodup)
    (hedit : Disk.ExternalEdit disk edited) :
    ∃ events q after expectation, Run (machine R) Disk.ExternalEdit (recoverLocked R m) disk events q
        after ∧ .own (.replaceDoc name expectation value) edited ∈ events ∧
      edited.expected R.sha256 name expectation = true ∧
      ∀ o u, .own o u ∈ events → u = disk ∨ u = edited := by
  have hexists := observes_journalExists (R := R) disk m
  rw [hjournal] at hexists
  have hpending : Command.Observes (machine R) disk (step .readJournal) m (.ok (some journal)) m := by
    have hread := @observes_readJournal R disk m
    rwa [hjournal] at hread
  have hcheck : Command.Observes (machine R) disk (accept (validateJournal R journal)) m
      (.ok ((name, value) :: writes)) m := by
    rw [haccepted]
    exact .pure _
  obtain ⟨expectations, hexpect, hcollect⟩ := observes_collectExpectations (R := R) (m := m) edited
    ((name, value) :: writes)
  have hmatch : edited.expected R.sha256 name (expectations name) = true := by
    cases hname : expectations name with
    | none => rfl
    | some digest => exact decide_eq_true (hexpect name digest hname)
  have halone : ∀ u v : Disk, alone (machine R) u v → Disk.ExternalEdit u v := fun _ _ h ↦ h.elim
  have hread := observes_readManifest (R := R) (m := m) hmanifest hvalid
  have hsafe := observes_assertRecoveryTargetsSafe (m := m) hdescribes hnodup fun _ ↦ .inl rfl
  obtain ⟨first, hfirst⟩ := Prog.Observes.exists_run hexists
  obtain ⟨second, hsecond⟩ := Prog.Observes.exists_run hpending
  obtain ⟨third, hthird⟩ := Prog.Observes.exists_run hcheck
  obtain ⟨fourth, hfourth⟩ := Prog.Observes.exists_run hread
  obtain ⟨fifth, hfifth⟩ := Prog.Observes.exists_run hsafe
  obtain ⟨sixth, hsixth⟩ := Prog.Observes.exists_run hcollect
  refine ⟨first ++ (second ++ (third ++ (fourth ++ (fifth ++ (.env disk edited :: (sixth ++
    [.own (.replaceDoc name (expectations name) value) edited])))))), _, _, expectations name,
    (hfirst.mono halone).bind ((hsecond.mono halone).bind ((hthird.mono halone).bind
      ((hfourth.mono halone).bind ((hfifth.mono halone).bind (.env hedit ((hsixth.mono halone).bind
        (.own (.refl _ _)))))))), by simp, hmatch, ?_⟩
  intro o u hmem
  simp only [List.mem_append, List.mem_cons, List.not_mem_nil, or_false] at hmem
  rcases hmem with h | h | h | h | h | h | h | h
  · exact .inl ((Prog.Observes.run_until hexists hfirst).2 o u h).1
  · exact .inl ((Prog.Observes.run_until hpending hsecond).2 o u h).1
  · exact .inl ((Prog.Observes.run_until hcheck hthird).2 o u h).1
  · exact .inl ((Prog.Observes.run_until hread hfourth).2 o u h).1
  · exact .inl ((Prog.Observes.run_until hsafe hfifth).2 o u h).1
  · cases h
  · exact .inr ((Prog.Observes.run_until hcollect hsixth).2 o u h).1
  · cases h
    exact .inr rfl

def interruptedJournal : Journal :=
  preparedJournal (sampleRules []) sampleWrites.entries "op-1" "2026-01-05T09:00:00Z"

/-- The sample store after a commit that stopped right behind its journal. -/
def interruptedDisk : Disk := { sampleDisk [] with journal := some interruptedJournal }

/-- The notes as an external editor leaves them. -/
def foreignNotes : Bytes := Json.serializedJsonBytes (.obj [("version", .int 1), ("notes", .null)])

theorem interruptedDisk_reaches_replacement (edited : Disk)
    (hedit : Disk.ExternalEdit interruptedDisk edited) :
    ∃ events q after expectation, Run (machine (sampleRules [])) Disk.ExternalEdit
        (session (sampleRules []) [.recover] .fresh) interruptedDisk events q after ∧
      .own (.replaceDoc .notes expectation sampleNotes) edited ∈ events ∧
      edited.expected (sampleRules []).sha256 .notes expectation = true ∧
      ∀ o u, .own o u ∈ events → u = interruptedDisk ∨ u = edited := by
  obtain ⟨-, manifest, hmanifest, hvalid, hdescribes⟩ := sampleDisk_inSync []
  have haccepted : validateJournal (sampleRules []) interruptedJournal = .ok sampleWrites.entries :=
    validateJournal_prepared_ok sampleWrites.nodup (by decide) (by decide) (by decide)
      (by decide)
  obtain ⟨events, q, after, expectation, hrun, hevents⟩ := recoverLocked_reaches_replacement
    (R := sampleRules []) (m := .fresh) interruptedDisk hmanifest hvalid hdescribes rfl
    haccepted sampleWrites.nodup hedit
  exact ⟨events, _, after, expectation, (hrun.within _).within _, hevents⟩

/-- A recovery of this interrupted commit replaces bytes that an editor wrote while it ran. -/
theorem recovery_overwrites_external_edit :
    CrashState (machine (sampleRules [])) (commitPrepared (sampleRules []) interruptedJournal
        sampleWrites.entries .fresh) (sampleDisk []) interruptedDisk ∧
      ∃ events q after expectation u, Run (machine (sampleRules [])) Disk.ExternalEdit
          (session (sampleRules []) [.recover] .fresh) interruptedDisk events q after ∧
        .own (.replaceDoc .notes expectation sampleNotes) u ∈ events ∧
        u.expected (sampleRules []).sha256 .notes expectation = true ∧
        ¬Owned (sampleRules []) u .notes := by
  refine ⟨commitPrepared_reaches_journal _ _ (sampleDisk_inSync []), ?_⟩
  obtain ⟨events, q, after, expectation, hrun, hmem, hmatch, -⟩ := interruptedDisk_reaches_replacement
    (interruptedDisk.write .notes foreignNotes) ⟨rfl, rfl, rfl⟩
  refine ⟨events, q, after, expectation, _, hrun, hmem, hmatch, fun howned ↦ ?_⟩
  rcases howned foreignNotes rfl with ⟨manifest, hmanifest, hfiles⟩ | ⟨journal, hjournal, write, hwrite,
    -, hdigest⟩
  · cases hmanifest
    exact absurd hfiles (by decide)
  · cases hjournal
    cases List.mem_singleton.mp hwrite
    exact absurd hdigest (by decide)

/-- The recovery of the interrupted commit while no editor acts. -/
theorem session_keeps_external_edits_sample :
    ∃ (events : List (Event (machine (sampleRules [])))) (expectation : Option (Option Digest)),
      .own (.replaceDoc .notes expectation sampleNotes) interruptedDisk ∈ events ∧
      ∀ name expectation value u, .own (.replaceDoc name expectation value) u ∈ events →
        u.expected (sampleRules []).sha256 name expectation = true → Owned (sampleRules []) u name := by
  obtain ⟨events, q, after, expectation, hrun, hmem, -, hworlds⟩ :=
    interruptedDisk_reaches_replacement _ (.refl interruptedDisk)
  refine ⟨events, expectation, hmem, session_keeps_external_edits _ _ _ _ _ _ _ rfl hrun ?_⟩
  intro name u hread
  rw [(hworlds _ u hread).elim id id]
  intro body hbody
  refine .inl ⟨freshManifest (sampleRules []) sampleWorkspaceId, rfl, ?_⟩
  exact congrArg (Option.map (sampleRules []).sha256) hbody

end WorkStack.Store
