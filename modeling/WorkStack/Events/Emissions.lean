import WorkStack.Effect.Window
import WorkStack.Events.Publication
import WorkStack.Store.Footprint

/-!
# What a command reports

A command appends to the event window only what it reports of itself: an inspection the candidate it
sees for the first time, a publication the change it commits. The types of these reports, in their
order, are computed along the structure of the command. They do not depend on what an editor does.
-/

open WorkStack.Effect WorkStack.Store

namespace WorkStack.Events

/-- The event window of a process. -/
def window (m : Process) : Window EventRecord := ⟨m.eventSequence, m.events⟩

theorem window_retained (m : Process) : (window m).retained = m.events := rfl

/-- From one memory to the other, changes of these types were appended to the window. -/
def Emits (types : List String) (m n : Process) : Prop :=
  ∃ events : List ChangeEvent, events.map ChangeEvent.type = types ∧
    events.map ChangeEvent.id = List.range' (m.eventSequence + 1) events.length ∧
    window n = (window m).pushAll 128 (events.map .change)

theorem Emits.quiet {m n : Process} (h : window n = window m) : Emits [] m n := ⟨[], rfl, rfl, h⟩

theorem Emits.eventSequence {types : List String} {m n : Process} (h : Emits types m n) :
    n.eventSequence = m.eventSequence + types.length := by
  obtain ⟨events, htypes, -, hwindow⟩ := h
  have hlatest := congrArg Window.latest hwindow
  rw [Window.pushAll_latest, List.length_map] at hlatest
  rw [← htypes, List.length_map]
  exact hlatest

theorem Emits.trans {types more : List String} {m n k : Process} (h : Emits types m n) (h' : Emits more n k) :
    Emits (types ++ more) m k := by
  have hsequence := h.eventSequence
  obtain ⟨events, htypes, hids, hwindow⟩ := h
  obtain ⟨later, hmore, hlater, hwindow'⟩ := h'
  refine ⟨events ++ later, ?_, ?_, ?_⟩
  · rw [List.map_append, htypes, hmore]
  · rw [List.map_append, hids, hlater, List.length_append, ← List.range'_append_1, hsequence, ← htypes,
      List.length_map]
    congr 2
    omega
  · rw [hwindow', hwindow, List.map_append, Window.pushAll_append]

/-! ## Rules -/

section Rules

variable {R : StoreRules} {α β : Type} {c : StoreCommand α} {f : α → StoreCommand β}

/-- The reports of a command are `Q` where it returns and `E` where it raises. -/
def Emitting (R : StoreRules) (c : StoreCommand α) (Q : α → List String → Prop) (E : List String → Prop) :
    Prop :=
  ∀ m w, Command.wp (besideEditor R) c (fun a n _ ↦ ∃ types, Emits types m n ∧ Q a types)
    (fun _ n _ ↦ ∃ types, Emits types m n ∧ E types) m w

variable {Q Q' : α → List String → Prop} {E E' : List String → Prop}

theorem Emitting.mono (h : Emitting R c Q E) (hQ : ∀ a types, Q a types → Q' a types)
    (hE : ∀ types, E types → E' types) : Emitting R c Q' E' := by
  intro m w
  apply Command.wp_mono (h m w)
  · rintro a n u ⟨types, hemits, hreports⟩
    exact ⟨types, hemits, hQ a types hreports⟩
  · rintro e n u ⟨types, hemits, hreports⟩
    exact ⟨types, hemits, hE types hreports⟩

theorem Emitting.pure {a : α} (h : Q a []) : Emitting R (pure a) Q E :=
  fun _ _ ↦ ⟨[], .quiet rfl, h⟩

theorem Emitting.throw {error : StoreError} (h : E []) : Emitting R (Command.throw error) Q E :=
  fun _ _ ↦ ⟨[], .quiet rfl, h⟩

theorem Emitting.bind {Q : β → List String → Prop} {P : α → List String → Prop} {E₁ : List String → Prop}
    (hc : Emitting R c P E₁)
    (hf : ∀ a types, P a types →
      Emitting R (f a) (fun b more ↦ Q b (types ++ more)) fun more ↦ E (types ++ more))
    (hE : ∀ types, E₁ types → E types) : Emitting R (c >>= f) Q E := by
  intro m w
  apply Command.wp_seq (hc m w)
  · rintro a n u ⟨types, hemits, hreports⟩
    apply Command.wp_mono (hf a types hreports n u)
    · rintro b k v ⟨more, hmore, hall⟩
      exact ⟨types ++ more, hemits.trans hmore, hall⟩
    · rintro e k v ⟨more, hmore, hall⟩
      exact ⟨types ++ more, hemits.trans hmore, hall⟩
  · rintro e n u ⟨types, hemits, hreports⟩
    exact ⟨types, hemits, hE types hreports⟩

/-- Nothing is reported. -/
abbrev Silent (types : List String) : Prop := types = []

/-- A first part that reports nothing. -/
theorem Emitting.silent_bind {Q : β → List String → Prop} (hE : E [])
    (hc : Emitting R c (fun _ ↦ Silent) Silent) (hf : ∀ a, Emitting R (f a) Q E) :
    Emitting R (c >>= f) Q E := by
  apply Emitting.bind hc
  · rintro a _ rfl
    exact hf a
  · rintro _ rfl
    exact hE

theorem Emitting.silent_seq (hc : Emitting R c (fun _ ↦ Silent) Silent)
    (hf : ∀ a, Emitting R (f a) (fun _ ↦ Silent) Silent) :
    Emitting R (c >>= f) (fun _ ↦ Silent) Silent :=
  .silent_bind (E := Silent) rfl hc hf

theorem Emitting.catching (E₁ : List String → Prop) {handler : StoreError → StoreCommand α}
    (hc : Emitting R c Q E₁) (hh : ∀ error types, E₁ types →
      Emitting R (handler error) (fun a more ↦ Q a (types ++ more)) fun more ↦ E (types ++ more)) :
    Emitting R (c.catching handler) Q E := by
  intro m w
  rw [Command.wp_catching]
  apply Command.wp_mono (hc m w)
  · exact fun _ _ _ h ↦ h
  · rintro error n u ⟨types, hemits, hreports⟩
    apply Command.wp_mono (hh error types hreports n u)
    · rintro a k v ⟨more, hmore, hall⟩
      exact ⟨types ++ more, hemits.trans hmore, hall⟩
    · rintro e k v ⟨more, hmore, hall⟩
      exact ⟨types ++ more, hemits.trans hmore, hall⟩

theorem Emitting.ite {p : Prop} [Decidable p] {d : StoreCommand α} (hc : p → Emitting R c Q E)
    (hd : ¬p → Emitting R d Q E) : Emitting R (if p then c else d) Q E := by
  by_cases hp : p
  · rw [if_pos hp]
    exact hc hp
  · rw [if_neg hp]
    exact hd hp

/-- Memory that does not concern the window. -/
theorem Emitting.remember_bind {g : Process → Process} {f : Unit → StoreCommand α}
    (hg : ∀ m, window (g m) = window m) (hf : Emitting R (f ()) Q E) :
    Emitting R (Command.remember g >>= f) Q E := by
  intro m w
  rw [Command.wp_bind, Command.wp_remember]
  apply Command.wp_mono (hf (g m) w)
  · rintro a n u ⟨types, hemits, hreports⟩
    exact ⟨types, (Emits.quiet (hg m)).trans hemits, hreports⟩
  · rintro e n u ⟨types, hemits, hreports⟩
    exact ⟨types, (Emits.quiet (hg m)).trans hemits, hreports⟩

theorem Emitting.memory : Emitting R Command.memory (fun _ ↦ Silent) Silent :=
  fun _ _ ↦ ⟨[], .quiet rfl, rfl⟩

/-- A command that leaves the memory as it is reports nothing. -/
theorem Emitting.of_within {P : DiskOp → Prop} (h : Command.Within (.same P) c) :
    Emitting R c (fun _ ↦ Silent) Silent := by
  intro m w
  have hwp := Command.Within.wp (C := besideEditor R) (I := fun _ ↦ True) (m := m) (w := w) h
    (fun _ _ _ _ ↦ trivial) (fun _ _ _ _ _ ↦ ⟨trivial, trivial⟩) trivial
  apply Command.wp_mono hwp
  · rintro a n u ⟨-, rfl⟩
    exact ⟨[], .quiet rfl, rfl⟩
  · rintro e n u ⟨-, rfl⟩
    exact ⟨[], .quiet rfl, rfl⟩

/-- A step on the data directory reports nothing and never raises. -/
theorem Emitting.step (o : DiskOp) : Emitting R (step o) (fun _ ↦ Silent) E :=
  fun _ _ _ _ _ ↦ ⟨trivial, [], .quiet rfl, rfl⟩

theorem Emitting.accept (result : Except String α) : Emitting R (accept result) (fun _ ↦ Silent) Silent :=
  .of_within (P := fun _ ↦ True) (within_accept result)

theorem Emitting.emitEvent (type workspaceId : String) (changedFiles : List DocName) :
    Emitting R (emitEvent type workspaceId changedFiles) (fun _ types ↦ types = [type]) Silent := by
  intro m w
  refine ⟨[type], ⟨[⟨m.eventSequence + 1, type, workspaceId, m.generation, changedFiles⟩], rfl, rfl, ?_⟩,
    rfl⟩
  simp only [window, List.map_cons, List.map_nil, Window.pushAll, List.foldl_cons, List.foldl_nil,
    Window.push]

/-- What a completed run of a command has reported. -/
theorem Emitting.run (h : Emitting R c Q E) {m n : Process} {disk after : Disk}
    {events : List (Event (machine R))} {outcome : Except StoreError α}
    (hrun : Run (machine R) Disk.ExternalEdit (c m) disk events (.pure (outcome, n)) after) :
    ∃ types, Emits types m n ∧ match outcome with
      | .ok a => Q a types
      | .error _ => E types := by
  obtain ⟨-, u, -, hpost⟩ := wp_run (h m disk) hrun (fun _ _ move ↦ move) fun _ _ _ ↦ trivial
  cases outcome with
  | ok a => exact hpost
  | error error => exact hpost

end Rules

/-! ## Inspections -/

section Commands

variable {R : StoreRules}

/-- A candidate is reported at most once. -/
def Observed (types : List String) : Prop :=
  types = [] ∨ ∃ state : SyncState, state ≠ .inSync ∧ types = ["store." ++ state.text]

theorem Observed.nothing : Observed [] := Or.inl rfl

theorem emitting_noticeInspection (inspection : Inspection) (state : SyncState)
    (fingerprint : SyncState × Digest) :
    Emitting R (noticeInspection inspection state fingerprint)
      (fun _ types ↦ Observed types ∧ (state = .inSync → types = [])) Silent := by
  refine .silent_bind rfl .memory fun memory ↦ ?_
  apply Emitting.ite
  · rintro ⟨hstate, -⟩
    apply (Emitting.emitEvent _ _ _).mono
    · rintro _ _ rfl
      exact ⟨Or.inr ⟨state, hstate, rfl⟩, fun hsync ↦ absurd hsync hstate⟩
    · exact fun _ h ↦ h
  · exact fun _ ↦ .pure ⟨Or.inl rfl, fun _ ↦ rfl⟩

theorem emitting_rememberInspection (inspection : Inspection) :
    Emitting R (rememberInspection R inspection)
      (fun _ types ↦ Observed types ∧ (syncInspectionState inspection.changedFiles
        inspection.validationError = .inSync → types = [])) Silent := by
  intro m w
  apply Command.wp_seq (emitting_noticeInspection inspection _ _ m w)
  · rintro _ n u ⟨types, hemits, hreports⟩
    exact ⟨types, List.append_nil types ▸ hemits.trans (.quiet rfl), hreports⟩
  · exact fun _ _ _ h ↦ h

theorem emitting_ensureSyncManifest :
    Emitting R (ensureSyncManifest R) (fun _ ↦ Silent) Silent := by
  apply Emitting.silent_seq (.of_within (Within.reads within_readManifest))
  intro manifest
  cases manifest with
  | some manifest => exact .pure rfl
  | none =>
      apply Emitting.silent_seq (.of_within within_validateReadyState)
      intro readiness
      apply Emitting.silent_seq .memory
      intro memory
      apply Emitting.silent_seq (.of_within (within_laterHashes (by decide)))
      intro files
      apply Emitting.silent_seq (.of_within within_taskSemanticsLocked)
      intro tasks
      apply Emitting.silent_seq (.step _)
      intro _
      apply Emitting.remember_bind
      · exact fun _ ↦ rfl
      · exact .pure rfl

/-- An inspection reports at most the candidate, and nothing where the store is in sync. -/
theorem emitting_inspectSync :
    Emitting R (inspectSync R)
      (fun status types ↦ Observed types ∧ (status.writesAllowed = true → types = [])) Observed := by
  apply Emitting.silent_bind Observed.nothing emitting_ensureSyncManifest
  intro manifest
  apply Emitting.remember_bind
  · exact fun _ ↦ rfl
  apply Emitting.silent_bind Observed.nothing (.of_within (within_inspectCandidate manifest))
  intro inspection
  apply Emitting.bind (emitting_rememberInspection inspection)
  · intro _ types hreports
    apply Emitting.bind (.of_within (within_candidateManifestDigest manifest inspection))
    · rintro digest _ rfl
      apply Emitting.pure
      rw [List.append_nil, List.append_nil]
      exact ⟨hreports.1, fun hallowed ↦ hreports.2 (of_decide_eq_true hallowed)⟩
    · rintro _ rfl
      rw [List.append_nil]
      exact hreports.1
  · rintro _ rfl
    exact Observed.nothing

theorem emitting_syncStatus : Emitting R (syncStatus R) (fun _ ↦ Observed) Observed := by
  apply Emitting.bind emitting_inspectSync
  · intro status types hreports
    apply Emitting.pure
    rw [List.append_nil]
    exact hreports.1
  · exact fun _ h ↦ h

theorem emitting_assertWritable : Emitting R (assertWritable R) (fun _ ↦ Silent) Observed := by
  apply Emitting.silent_bind Observed.nothing .memory
  intro memory
  apply Emitting.ite
  · exact fun _ ↦ .pure rfl
  · intro _
    apply Emitting.bind emitting_inspectSync
    · intro status types hreports
      apply Emitting.ite
      · intro hallowed
        apply Emitting.pure
        rw [List.append_nil]
        exact hreports.2 hallowed
      · intro _
        apply Emitting.throw
        rw [List.append_nil]
        exact hreports.1
    · exact fun _ h ↦ h

theorem emitting_raiseExternalChange {α : Type} {Q : α → List String → Prop} :
    Emitting R (raiseExternalChange R : StoreCommand α) Q Observed := by
  apply Emitting.bind emitting_inspectSync
  · intro status types hreports
    apply Emitting.throw
    rw [List.append_nil]
    exact hreports.1
  · exact fun _ h ↦ h

/-! ## Publications -/

theorem emitting_advanceGeneration (persisted : ℕ) :
    Emitting R (advanceGeneration persisted) (fun _ ↦ Silent) Silent := by
  apply Emitting.silent_seq .memory
  intro memory
  apply Emitting.remember_bind
  · exact fun _ ↦ rfl
  · exact .pure rfl

/-- A committed manifest is reported once; where the publication is refused, a candidate may be. -/
theorem emitting_writeCommittedManifest (changedFiles : List DocName) (eventType : String)
    (expected : Option Files) :
    Emitting R (writeCommittedManifest R changedFiles eventType expected)
      (fun _ types ↦ types = [eventType]) Observed := by
  have hhashes : Emitting R (authoritativeHashes R .authoritativeHash) (fun _ ↦ Silent) Silent :=
    .of_within (within_laterHashes (by decide))
  have htasks : Emitting R (taskSemanticsLocked R) (fun _ ↦ Silent) Silent :=
    .of_within within_taskSemanticsLocked
  apply Emitting.silent_bind Observed.nothing hhashes
  intro before
  apply Emitting.ite (fun _ ↦ emitting_raiseExternalChange)
  intro _
  apply Emitting.silent_bind Observed.nothing htasks
  intro tasksBefore
  apply Emitting.silent_bind Observed.nothing (.of_within within_validateReadyState)
  intro readiness
  apply Emitting.silent_bind Observed.nothing hhashes
  intro after
  apply Emitting.silent_bind Observed.nothing htasks
  intro tasksAfter
  apply Emitting.ite (fun _ ↦ .throw Observed.nothing)
  intro _
  apply Emitting.ite (fun _ ↦ emitting_raiseExternalChange)
  intro _
  apply Emitting.silent_bind Observed.nothing (.of_within (Within.reads within_readManifest))
  intro previous
  apply Emitting.silent_bind Observed.nothing (emitting_advanceGeneration _)
  intro generation
  apply Emitting.silent_bind Observed.nothing (.step _)
  intro _
  apply Emitting.remember_bind
  · exact fun _ ↦ rfl
  apply Emitting.remember_bind
  · exact fun _ ↦ rfl
  apply (Emitting.emitEvent _ _ _).mono
  · exact fun _ _ h ↦ h
  · rintro _ rfl
    exact Observed.nothing

theorem emitting_writeLocalBaseline (previous : Manifest) (files : Files) (tasks : Tasks)
    (changedFiles : List DocName) :
    Emitting R (writeLocalBaseline previous files tasks changedFiles)
      (fun _ types ↦ types = ["store.committed"]) Silent := by
  refine .silent_bind rfl (emitting_advanceGeneration _) fun generation ↦ ?_
  refine .silent_bind rfl (.step _) fun _ ↦ ?_
  apply Emitting.remember_bind
  · exact fun _ ↦ rfl
  · exact Emitting.emitEvent _ _ _

/-- The commit is reported, and after it at most a candidate. -/
def Trailing (types : List String) : Prop :=
  ∃ after, Observed after ∧ types = "store.committed" :: after

/-- The commit is reported, with at most a candidate before it and at most one after it. -/
def Committing (types : List String) : Prop :=
  ∃ before after, Observed before ∧ Observed after ∧ types = before ++ "store.committed" :: after

theorem Trailing.committing {types : List String} (h : Trailing types) : Committing types := by
  obtain ⟨after, hafter, rfl⟩ := h
  exact ⟨[], after, Observed.nothing, hafter, rfl⟩

theorem Trailing.after {before types : List String} (h : Trailing types) (hbefore : Observed before) :
    Committing (before ++ types) := by
  obtain ⟨after, hafter, rfl⟩ := h
  exact ⟨before, after, hbefore, hafter, rfl⟩

/-- What a commit that fails may have reported. -/
def Failing (types : List String) : Prop :=
  (∃ before after, Observed before ∧ Observed after ∧ types = before ++ after) ∨ Committing types

theorem Failing.nothing : Failing [] := Or.inl ⟨[], [], Observed.nothing, Observed.nothing, rfl⟩

theorem Observed.failing {types : List String} (h : Observed types) : Failing types :=
  Or.inl ⟨types, [], h, Observed.nothing, (List.append_nil types).symm⟩

theorem Observed.failing_append {types more : List String} (h : Observed types) (h' : Observed more) :
    Failing (types ++ more) := Or.inl ⟨types, more, h, h', rfl⟩

/-- A baseline is published, the journal is removed, and the store is inspected once more. -/
theorem emitting_baseline (previous : Manifest) (expectedHashes : Files) (changedFiles : List DocName)
    {last : SyncStatus → StoreCommand Unit}
    (hlast : ∀ status, Emitting R (last status) (fun _ ↦ Silent) Silent) :
    Emitting R (do
        let tasks ← localBaselineTasks R previous expectedHashes changedFiles
        writeLocalBaseline previous expectedHashes tasks changedFiles
        step .unlinkJournal
        let status ← inspectSync R
        last status)
      (fun _ ↦ Trailing) (fun types ↦ types = [] ∨ Trailing types) := by
  refine .silent_bind (Or.inl rfl) (.of_within (within_localBaselineTasks _ _ _)) fun tasks ↦ ?_
  apply Emitting.bind (emitting_writeLocalBaseline _ _ _ _)
  · rintro _ _ rfl
    have hreported : Trailing (["store.committed"] ++ []) := ⟨[], Observed.nothing, rfl⟩
    refine .silent_bind (Or.inr hreported) (.step _) fun _ ↦ ?_
    apply Emitting.bind emitting_inspectSync
    · rintro status types ⟨hobserved, -⟩
      have htrailing : Trailing (["store.committed"] ++ (types ++ [])) :=
        ⟨types, hobserved, by rw [List.append_nil, List.singleton_append]⟩
      apply (hlast status).mono
      · rintro _ _ rfl
        exact htrailing
      · rintro _ rfl
        exact Or.inr htrailing
    · exact fun types hobserved ↦ Or.inr ⟨types, hobserved, rfl⟩
  · rintro _ rfl
    exact Or.inl rfl

theorem emitting_commitLocalWithExternalCandidate (baseline : Manifest) (expectedHashes : Files)
    (changedFiles : List DocName) :
    Emitting R (commitLocalWithExternalCandidate R baseline expectedHashes changedFiles)
      (fun _ ↦ Trailing) (fun types ↦ types = [] ∨ Trailing types) :=
  emitting_baseline baseline expectedHashes changedFiles fun _ ↦ .pure rfl

/-- A change that arrives late is resolved after at most one report. -/
theorem emitting_resolveLateExternalChange {before : List String} (hbefore : Observed before)
    (baseline : Option Manifest) (expectedHashes : Files) (changedFiles : List DocName) :
    Emitting R (resolveLateExternalChange R baseline expectedHashes changedFiles)
      (fun _ more ↦ Committing (before ++ more)) fun more ↦ Failing (before ++ more) := by
  have hnothing : Failing (before ++ []) := hbefore.failing_append Observed.nothing
  have hraise : Emitting R (raiseExternalChange R : StoreCommand Unit)
      (fun _ more ↦ Committing (before ++ more)) fun more ↦ Failing (before ++ more) :=
    emitting_raiseExternalChange.mono (fun _ _ h ↦ h) fun _ hmore ↦ hbefore.failing_append hmore
  refine .silent_bind hnothing (.of_within (within_laterHashes (by decide))) fun finalHashes ↦ ?_
  cases baseline with
  | none => exact hraise
  | some manifest =>
      apply Emitting.ite
      · intro _
        apply (emitting_commitLocalWithExternalCandidate manifest expectedHashes changedFiles).mono
        · exact fun _ more hmore ↦ hmore.after hbefore
        · rintro more (rfl | hmore)
          · exact hnothing
          · exact Or.inr (hmore.after hbefore)
      · exact fun _ ↦ hraise

/-- Each successful branch of a commit reports the commit, as its second report at the latest. -/
theorem emitting_publishCommit (baseline : Option Manifest) (expectedHashes : Files)
    (changedFiles : List DocName) :
    Emitting R (publishCommit R baseline expectedHashes changedFiles) (fun _ ↦ Committing) Failing := by
  refine .silent_bind Failing.nothing (.of_within (within_laterHashes (by decide))) fun actual ↦ ?_
  apply Emitting.ite (fun _ ↦ .throw Failing.nothing)
  intro _
  split
  · rename_i manifest _
    apply (emitting_commitLocalWithExternalCandidate manifest expectedHashes changedFiles).mono
    · exact fun _ types htypes ↦ htypes.committing
    · rintro types (rfl | htypes)
      · exact Failing.nothing
      · exact Or.inr htypes.committing
  · apply Emitting.catching Observed
    · apply Emitting.bind (emitting_writeCommittedManifest changedFiles "store.committed" _)
      · rintro _ _ rfl
        apply (Emitting.step DiskOp.unlinkJournal).mono
        · rintro _ _ rfl
          exact ⟨[], [], Observed.nothing, Observed.nothing, rfl⟩
        · exact fun _ h ↦ h
      · exact fun _ h ↦ h
    · intro error before hbefore
      cases error with
      | externalChange status => exact emitting_resolveLateExternalChange hbefore _ _ _
      | _ =>
          apply Emitting.throw
          rw [List.append_nil]
          exact hbefore.failing

theorem emitting_originalHashes (baseline : Option Manifest) :
    Emitting R (originalHashes R baseline) (fun _ ↦ Silent) Silent := by
  cases baseline with
  | some manifest => exact .pure rfl
  | none =>
      apply Emitting.of_within (P := fun _ ↦ True)
      apply Command.Within.fold
      intro hashes name
      exact .bind (within_currentDigest trivial trivial) fun _ ↦ .pure _

theorem emitting_commitPrepared (journal : Journal) (writes : Writes) :
    Emitting R (commitPrepared R journal writes) (fun _ ↦ Committing) Failing := by
  apply Emitting.bind emitting_assertWritable
  · rintro _ _ rfl
    refine .silent_bind Failing.nothing (.step _) fun pending ↦ ?_
    apply Emitting.ite (fun _ ↦ .throw Failing.nothing)
    intro _
    refine .silent_bind Failing.nothing (.of_within (Within.reads within_readManifest)) fun baseline ↦ ?_
    refine .silent_bind Failing.nothing (emitting_originalHashes baseline) fun original ↦ ?_
    refine .silent_bind Failing.nothing (.step _) fun _ ↦ ?_
    refine .silent_bind Failing.nothing (.of_within (within_replaceDocuments _ _)) fun _ ↦ ?_
    exact emitting_publishCommit _ _ _
  · exact fun _ h ↦ h.failing

/-! ## Recovery -/

/-- What a recovery may have reported. -/
def Recovering (types : List String) : Prop := types = [] ∨ Trailing types

theorem Recovering.nothing : Recovering [] := Or.inl rfl

theorem emitting_finishRecovery (baseline : Option Manifest) (writes : Writes) :
    Emitting R (finishRecovery R baseline writes) (fun _ ↦ Recovering) Recovering := by
  cases baseline with
  | some manifest =>
      apply (emitting_baseline manifest _ _ fun _ ↦ ?_).mono
      · exact fun _ _ h ↦ Or.inr h
      · exact fun _ h ↦ h
      · exact fun m w ↦ ⟨[], .quiet rfl, rfl⟩
  | none =>
      refine .silent_bind Recovering.nothing (.step _) fun _ ↦ ?_
      exact fun m w ↦ ⟨[], .quiet rfl, Recovering.nothing⟩

theorem emitting_recoverLocked :
    Emitting R (recoverLocked R) (fun _ ↦ Recovering) Recovering := by
  refine .silent_bind Recovering.nothing (.step _) fun present ↦ ?_
  apply Emitting.ite
  · intro _
    refine .silent_bind Recovering.nothing (.step _) fun journal ↦ ?_
    cases journal with
    | none => exact .throw Recovering.nothing
    | some journal =>
        refine .silent_bind Recovering.nothing (.accept _) fun writes ↦ ?_
        refine .silent_bind Recovering.nothing
          (.of_within (Within.reads within_readManifest)) fun baseline ↦ ?_
        refine .silent_bind Recovering.nothing
          (.of_within (within_assertRecoveryTargetsSafe _ _)) fun _ ↦ ?_
        refine .silent_bind Recovering.nothing
          (.of_within (within_collectExpectations _)) fun expectations ↦ ?_
        refine .silent_bind Recovering.nothing
          (.of_within (within_replaceDocuments _ _)) fun _ ↦ ?_
        exact emitting_finishRecovery _ _
  · exact fun _ ↦ .pure Recovering.nothing

end Commands

end WorkStack.Events
