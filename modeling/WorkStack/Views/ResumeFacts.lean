import WorkStack.Checkpoints.Selection
import WorkStack.Python.IsoDates
import WorkStack.Text.CodeUnits
import WorkStack.Views.CheckpointSummary

/-!
# The facts a Task resumes from in the client

The client selects the facts of a Task from the same audit as the service. Where the service admits an audit, the
client reads every entry of it at the declared types, and the two selections go through the entries side by side: they
bind the same entries, hold the same one as the latest, and come to the same facts and the same version.
-/

open WorkStack.Python WorkStack.Python.Decoding WorkStack.Effect.Refusing WorkStack.Text.CodeUnits

namespace WorkStack.Views.Resume

/-! ## The audit -/

/-- `CheckpointAuditEntry`: `recorded` is the origin of the recorded fact, where there is a fact. -/
structure AuditEntry where
  locator : Checkpoints.Locator
  checkpointId : Option String
  entry : Option Json
  recorded : Option (Option String)
  state : String
  revision : ℤ

/-- `CheckpointAudit` -/
structure Audit where
  workspaceUid : String
  entries : List AuditEntry

/-- A value that may be null, at its declared type. -/
def nullable {α : Type} (read : Json → Option α) : Json → Option (Option α)
  | .null => some none
  | value => (read value).map some

def asFields : Json → Option Fields
  | .obj fields => some fields
  | _ => none

def asInteger : Json → Option ℤ
  | .int value => some value
  | _ => none

/-- A locator that was parsed, at its declared type. -/
def asLocator (value : Json) : Option Checkpoints.Locator := do
  let fields ← asFields value
  let workspaceUid ← Checkpoints.text (item fields "workspace_uid")
  let taskId ← nullable Checkpoints.text (item fields "task_id")
  let date ← Checkpoints.text (item fields "date")
  let ordinal ← asInteger (item fields "ordinal")
  let entryDigest ← nullable Checkpoints.text (item fields "entry_digest")
  return ⟨workspaceUid, taskId, date, ordinal, entryDigest⟩

/-- A recorded fact that was parsed, as far as its origin. -/
def asRecorded (value : Json) : Option (Option String) := do
  let fields ← asFields value
  nullable Checkpoints.text (item fields "origin")

/-- An entry that was parsed, at its declared type. -/
def asAuditEntry (value : Json) : Option AuditEntry := do
  let fields ← asFields value
  let locator ← asLocator (item fields "locator")
  let checkpointId ← nullable Checkpoints.text (item fields "checkpoint_id")
  let recorded ← nullable asRecorded (item fields "recorded")
  let state ← Checkpoints.text (item fields "state")
  let revision ← asInteger (item fields "revision")
  return ⟨locator, checkpointId, Dict.get fields "entry", recorded, state, revision⟩

/-- An audit that was parsed, at its declared type. -/
def asAudit : Json → Option Audit
  | .obj fields =>
      match Checkpoints.text (item fields "workspace_uid"), item fields "entries" with
      | some workspaceUid, .arr entries => (Checkpoints.readAll asAuditEntry entries).map (Audit.mk workspaceUid)
      | _, _ => none
  | _ => none

/-! ## The selection -/

/-- `TaskResumeBinding` -/
inductive ResumeBinding where
  | locator
  | entryPayload
  deriving DecidableEq, Repr

def ResumeBinding.name : ResumeBinding → String
  | .locator => "locator"
  | .entryPayload => "entry-payload"

/-- `TaskResumeStatus` -/
inductive ResumeStatus where
  | loading
  | failed
  | empty
  | unreadable
  | incomplete
  | ready
  deriving DecidableEq, Repr

def ResumeStatus.name : ResumeStatus → String
  | .loading => "loading"
  | .failed => "error"
  | .empty => "empty"
  | .unreadable => "unreadable"
  | .incomplete => "partial"
  | .ready => "ready"

/-- `TaskResumeProvenance` -/
structure ResumeProvenance where
  workspaceUid : String
  taskId : String
  checkpointId : Option String
  entryDigest : Option String
  date : String
  ordinal : ℤ
  revision : ℤ
  origin : Option String
  binding : ResumeBinding
  recordedTaskId : Option String
  recordedTaskTitle : Option String
  deriving DecidableEq, Repr

/-- `TaskResumeFacts` -/
structure ResumeFacts where
  status : ResumeStatus
  workspaceUid : String
  taskId : String
  provenance : Option ResumeProvenance
  done : List String
  next : List String
  blockers : List String
  extras : List Extra
  unreadableReason : Option String
  errorMessage : Option String
  activeRecordCount : ℕ
  supersededRecordCount : ℕ
  version : String
  deriving DecidableEq, Repr

/-- `TaskResumeAuditState`, with the message of its error. -/
structure AuditState where
  audit : Option Audit
  isPending : Bool
  error : Option String

structure BoundEntry where
  entry : AuditEntry
  binding : ResumeBinding

structure TaskRecords where
  latestActive : Option BoundEntry := none
  activeCount : ℕ := 0
  supersededCount : ℕ := 0

/-- `isLater` -/
def isLater (candidate incumbent : AuditEntry) : Bool :=
  if candidate.locator.date ≠ incumbent.locator.date then isBefore incumbent.locator.date candidate.locator.date
  else incumbent.locator.ordinal < candidate.locator.ordinal

/-- `versionOf` -/
def versionOf (status : ResumeStatus) (workspaceUid taskId : String) (provenance : Option ResumeProvenance) : String :=
  let binding := s!"v1:{status.name}:{workspaceUid}:{taskId}"
  match provenance with
  | none => binding
  | some provenance =>
      let identity := provenance.checkpointId.getD s!"legacy@{provenance.date}#{provenance.ordinal}"
      let digest := provenance.entryDigest.getD "no-digest"
      s!"{binding}:{identity}:{digest}:r{provenance.revision}"

structure FactsDraft where
  status : ResumeStatus
  provenance : Option ResumeProvenance := none
  done : List String := []
  next : List String := []
  blockers : List String := []
  extras : List Extra := []
  unreadableReason : Option String := none
  errorMessage : Option String := none
  activeRecordCount : ℕ := 0
  supersededRecordCount : ℕ := 0

/-- `facts` -/
def facts (workspaceUid taskId : String) (draft : FactsDraft) : ResumeFacts :=
  ⟨draft.status, workspaceUid, taskId, draft.provenance, draft.done, draft.next, draft.blockers, draft.extras,
    draft.unreadableReason, draft.errorMessage, draft.activeRecordCount, draft.supersededRecordCount,
    versionOf draft.status workspaceUid taskId draft.provenance⟩

/-- `readableStatus` -/
def readableStatus (summary : EntrySummary) (binding : ResumeBinding) (taskId : String) : ResumeStatus :=
  let disputed := binding = .locator ∧ summary.taskId.isSome ∧ summary.taskId ≠ some taskId
  if 0 < summary.extras.length ∨ disputed then .incomplete else .ready

/-- `provenanceOf` -/
def provenanceOf (bound : BoundEntry) (summary : EntrySummary) (workspaceUid taskId : String) : ResumeProvenance where
  workspaceUid := workspaceUid
  taskId := taskId
  checkpointId := bound.entry.checkpointId
  entryDigest := bound.entry.locator.entryDigest
  date := bound.entry.locator.date
  ordinal := bound.entry.locator.ordinal
  revision := bound.entry.revision
  origin := bound.entry.recorded.join
  binding := bound.binding
  recordedTaskId := summary.taskId
  recordedTaskTitle := summary.taskTitle

section Selecting

variable (stringify : Json → String)

/-- `taskBinding` -/
def taskBinding (entry : AuditEntry) (taskId : String) : Option ResumeBinding :=
  match entry.locator.taskId with
  | some bound => if bound = taskId then some .locator else none
  | none =>
      if (summarizeCheckpointEntry stringify entry.entry).taskId = some taskId then some .entryPayload else none

/-- One turn of `collectTaskRecords`. -/
def TaskRecords.add (workspaceUid taskId : String) (records : TaskRecords) (entry : AuditEntry) : TaskRecords :=
  if entry.locator.workspaceUid ≠ workspaceUid then records
  else
    match taskBinding stringify entry taskId with
    | none => records
    | some binding =>
        if entry.state = "superseded" then { records with supersededCount := records.supersededCount + 1 }
        else
          let counted := { records with activeCount := records.activeCount + 1 }
          match records.latestActive with
          | none => { counted with latestActive := some ⟨entry, binding⟩ }
          | some latest =>
              if isLater entry latest.entry then { counted with latestActive := some ⟨entry, binding⟩ } else counted

/-- `collectTaskRecords` -/
def collectTaskRecords (audit : Audit) (workspaceUid taskId : String) : TaskRecords :=
  audit.entries.foldl (TaskRecords.add stringify workspaceUid taskId) {}

/-- `selectFromRecords` -/
def selectFromRecords (workspaceUid taskId : String) (records : TaskRecords) : ResumeFacts :=
  match records.latestActive with
  | none =>
      facts workspaceUid taskId
        { status := .empty
          activeRecordCount := records.activeCount
          supersededRecordCount := records.supersededCount }
  | some bound =>
      let summary := summarizeCheckpointEntry stringify bound.entry.entry
      let provenance := provenanceOf bound summary workspaceUid taskId
      if !summary.readable then
        facts workspaceUid taskId
          { status := .unreadable
            provenance := some provenance
            extras := summary.extras
            unreadableReason := summary.fallback
            activeRecordCount := records.activeCount
            supersededRecordCount := records.supersededCount }
      else
        facts workspaceUid taskId
          { status := readableStatus summary bound.binding taskId
            provenance := some provenance
            done := summary.done
            next := summary.next
            blockers := summary.blockers
            extras := summary.extras
            activeRecordCount := records.activeCount
            supersededRecordCount := records.supersededCount }

/-- `selectTaskResumeFacts` -/
def selectTaskResumeFacts (workspaceUid taskId : String) (state : AuditState) : ResumeFacts :=
  match state.error, state.audit with
  | some message, _ => facts workspaceUid taskId { status := .failed, errorMessage := some message }
  | none, none => facts workspaceUid taskId { status := if state.isPending then .loading else .empty }
  | none, some audit =>
      selectFromRecords stringify workspaceUid taskId (collectTaskRecords stringify audit workspaceUid taskId)

end Selecting

/-! ## One entry on both sides -/

/-- An entry of the client is a row of the service. -/
structure Matches (entry : AuditEntry) (row : Checkpoints.AuditRow) : Prop where
  locator : entry.locator = row.locator
  checkpointId : entry.checkpointId = row.checkpointId
  payload : entry.entry.getD .null = row.entry
  origin : entry.recorded.join = row.origin
  state : entry.state = row.state.name
  revision : entry.revision = row.revision
  date : isIsoDate row.locator.date = true

variable {value : Json}

theorem nullable_of_optionalPattern {accepts : String → Bool} {result : Option String}
    (h : Checkpoints.optionalPattern true accepts value = some result) :
    nullable Checkpoints.text value = some result := by
  match value, h with
  | .null, h => exact h
  | .str known, h =>
      have hpattern : (Checkpoints.pattern accepts (.str known)).map some = some result := h
      obtain ⟨known, hknown, rfl⟩ := Option.map_eq_some_iff.mp hpattern
      obtain ⟨hvalue, -⟩ := Checkpoints.pattern_eq_some.mp hknown
      cases hvalue
      rfl

theorem asLocator_of_readRowLocator {locator : Checkpoints.Locator}
    (h : Checkpoints.readRowLocator value = some locator) :
    asLocator value = some locator ∧ isIsoDate locator.date = true := by
  simp only [Checkpoints.readRowLocator, Option.bind_eq_bind, Option.bind_eq_some_iff, Option.pure_def,
    Option.some.injEq, Checkpoints.fieldsOf_eq_some, Checkpoints.calendarDate, Checkpoints.pattern_eq_some,
    Checkpoints.intIn_eq_some] at h
  obtain ⟨fields, ⟨rfl, -⟩, uid, ⟨huid, -⟩, taskId, htask, date, ⟨hdate, hiso⟩, ordinal, ⟨hordinal, -⟩, digest, hdigest,
    rfl⟩ := h
  refine ⟨?_, hiso⟩
  simp only [asLocator, asFields, Option.bind_eq_bind, Option.bind_some, huid, hdate, hordinal, asInteger,
    Checkpoints.text, nullable_of_optionalPattern htask, nullable_of_optionalPattern hdigest, Option.pure_def]

theorem nullable_of_rowOrigin {origin : Option String} (h : Checkpoints.rowOrigin value = some origin) :
    ∃ recorded, nullable asRecorded value = some recorded ∧ recorded.join = origin := by
  unfold Checkpoints.rowOrigin at h
  split at h
  · cases h
    exact ⟨none, rfl, rfl⟩
  · rename_i recorded
    refine ⟨some origin, ?_, rfl⟩
    change ((asFields (.obj recorded)).bind fun fields ↦ nullable Checkpoints.text (item fields "origin")).map some = _
    rw [asFields, Option.bind_some]
    split at h
    · rename_i hnull
      cases h
      rw [hnull]
      rfl
    · rename_i text htext
      cases h
      rw [htext]
      rfl
    · cases h
  · cases h

theorem name_of_readState {state : Checkpoints.CheckpointState} (h : Checkpoints.readState value = some state) :
    value = .str state.name := by
  unfold Checkpoints.readState at h
  split at h
  · cases h
    rfl
  · cases h
    rfl
  · cases h

/-- A row that the service reads is an entry for the client. -/
theorem matches_of_readAuditRow {row : Checkpoints.AuditRow} (h : Checkpoints.readAuditRow value = some row) :
    ∃ entry, asAuditEntry value = some entry ∧ Matches entry row := by
  unfold Checkpoints.readAuditRow at h
  split at h
  · rename_i fields
    simp only [Option.bind_eq_bind, Option.bind_eq_some_iff, Option.pure_def, Option.some.injEq,
      Checkpoints.intIn_eq_some] at h
    obtain ⟨state, hstate, locator, hlocator, checkpointId, hcheckpoint, origin, horigin, revision, ⟨hrevision, -⟩,
      rfl⟩ := h
    obtain ⟨hlocator, hdate⟩ := asLocator_of_readRowLocator hlocator
    obtain ⟨recorded, hrecorded, horigin⟩ := nullable_of_rowOrigin horigin
    refine ⟨⟨locator, checkpointId, Dict.get fields "entry", recorded, state.name, revision⟩, ?_, rfl, rfl, rfl,
      horigin, rfl, rfl, hdate⟩
    simp only [asAuditEntry, asFields, Option.bind_eq_bind, Option.bind_some, hlocator, hrecorded, hrevision,
      asInteger, name_of_readState hstate, Checkpoints.text, nullable_of_optionalPattern hcheckpoint, Option.pure_def]
  · cases h

variable {rows : List Checkpoints.AuditRow}

theorem forall₂_of_readAll {values : List Json} (h : Checkpoints.readAll Checkpoints.readAuditRow values = some rows) :
    ∃ entries, Checkpoints.readAll asAuditEntry values = some entries ∧ List.Forall₂ Matches entries rows := by
  obtain ⟨hall, hrows⟩ := Checkpoints.readAll_eq_some.mp h
  clear h
  induction values generalizing rows with
  | nil => exact ⟨[], rfl, hrows ▸ .nil⟩
  | cons value values ih =>
      obtain ⟨hvalue, hvalues⟩ := List.forall_mem_cons.mp hall
      obtain ⟨row, hrow⟩ := Option.isSome_iff_exists.mp hvalue
      obtain ⟨entry, hentry, hmatches⟩ := matches_of_readAuditRow hrow
      obtain ⟨entries, hentries, hothers⟩ := ih hvalues rfl
      obtain ⟨hread, hlist⟩ := Checkpoints.readAll_eq_some.mp hentries
      rw [List.filterMap_cons_some hrow] at hrows
      refine ⟨entry :: entries, Checkpoints.readAll_eq_some.mpr ⟨?_, ?_⟩, hrows ▸ .cons hmatches hothers⟩
      · exact List.forall_mem_cons.mpr ⟨by rw [hentry]; rfl, hread⟩
      · rw [List.filterMap_cons_some hentry, hlist]

/-! ## The selection on both sides -/

/-- The records that one pass over the audit has found so far, on both sides. -/
structure SameRecords (records : TaskRecords) (known : Checkpoints.Records) : Prop where
  latest : Option.Rel (fun bound selected ↦ Matches bound.entry selected.1 ∧ bound.binding.name = selected.2.name)
    records.latestActive known.latest
  active : records.activeCount = known.active
  superseded : records.supersededCount = known.superseded

variable {stringify : Json → String} {entry incumbent : AuditEntry} {row latest : Checkpoints.AuditRow}

theorem isBasic_of_isIsoDate {text : String} (h : isIsoDate text = true) : IsBasic text := by
  obtain ⟨year, month, day, hdate, htext⟩ := isIsoDate_iff_exists.mp h
  intro c hc
  rw [htext] at hc
  rcases (of_fitsShape (hasShape_dateText hdate)).2 c hc with hdigit | hshape
  · have := toNat_sub_lt_ten hdigit
    omega
  · have hbasic : "dddd-dd-dd".toList.all (fun c ↦ c.toNat < 0x10000) = true := by decide
    exact of_decide_eq_true (List.all_eq_true.mp hbasic c hshape)

theorem isLater_agree (hentry : Matches entry row) (hincumbent : Matches incumbent latest) :
    isLater entry incumbent = Checkpoints.isLater row latest := by
  have hbefore : isBefore latest.locator.date row.locator.date = decide (latest.locator.date < row.locator.date) := by
    rw [Bool.eq_iff_iff, decide_eq_true_iff]
    exact isBefore_iff (isBasic_of_isIsoDate hincumbent.date) (isBasic_of_isIsoDate hentry.date)
  rw [isLater, Checkpoints.isLater, hentry.locator, hincumbent.locator, hbefore]

theorem taskBinding_agree (h : Matches entry row) (taskId : String) :
    (taskBinding stringify entry taskId).map ResumeBinding.name =
      (Checkpoints.binding row taskId).map Checkpoints.Binding.name := by
  have hsummary := (summarize_agree stringify entry.entry).taskId
  rw [h.payload] at hsummary
  rw [taskBinding, Checkpoints.binding, h.locator, hsummary]
  cases row.locator.taskId with
  | none =>
      dsimp only
      split <;> rfl
  | some bound =>
      dsimp only
      split <;> rfl

variable {known : Checkpoints.Records}

/-- One entry keeps the two passes together. -/
theorem SameRecords.add {records : TaskRecords} (h : SameRecords records known) (hentry : Matches entry row)
    (workspaceUid taskId : String) :
    SameRecords (records.add stringify workspaceUid taskId entry) (known.add workspaceUid taskId row) := by
  have hbinding := @taskBinding_agree stringify entry row hentry taskId
  rw [TaskRecords.add, Checkpoints.Records.add, hentry.locator]
  split
  · exact h
  · cases hmine : taskBinding stringify entry taskId with
    | none =>
        rw [hmine] at hbinding
        rw [Option.map_eq_none_iff.mp hbinding.symm]
        exact h
    | some mine =>
        rw [hmine] at hbinding
        obtain ⟨theirs, htheirs, hname⟩ := Option.map_eq_some_iff.mp hbinding.symm
        rw [htheirs, hentry.state]
        cases row.state with
        | superseded => exact ⟨h.latest, h.active, congrArg (· + 1) h.superseded⟩
        | active =>
            have hselected : Option.Rel (fun bound selected ↦ Matches bound.entry selected.1 ∧
                bound.binding.name = selected.2.name) (some (⟨entry, mine⟩ : BoundEntry)) (some (row, theirs)) :=
              .some ⟨hentry, hname.symm⟩
            have hactive := congrArg (· + 1) h.active
            have hlatest := h.latest
            dsimp only
            rw [if_neg (by decide)]
            cases hmineLatest : records.latestActive with
            | none =>
                rw [hmineLatest] at hlatest
                cases htheirLatest : known.latest with
                | none => exact ⟨hselected, hactive, h.superseded⟩
                | some latest =>
                    rw [htheirLatest] at hlatest
                    cases hlatest
            | some bound =>
                rw [hmineLatest] at hlatest
                cases htheirLatest : known.latest with
                | none =>
                    rw [htheirLatest] at hlatest
                    cases hlatest
                | some latest =>
                    rw [htheirLatest] at hlatest
                    obtain ⟨hmatches, -⟩ : Matches bound.entry latest.1 ∧ _ := by
                      cases hlatest with
                      | some hpair => exact hpair
                    dsimp only
                    rw [Checkpoints.laterOf, isLater_agree hentry hmatches]
                    split
                    · exact ⟨hselected, hactive, h.superseded⟩
                    · exact ⟨hmineLatest ▸ hlatest, hactive, h.superseded⟩

/-- One pass over matching audits finds the same records. -/
theorem sameRecords_collect {entries : List AuditEntry} (h : List.Forall₂ Matches entries rows) {records : TaskRecords}
    (hrecords : SameRecords records known) (workspaceUid taskId : String) :
    SameRecords (entries.foldl (TaskRecords.add stringify workspaceUid taskId) records)
      (rows.foldl (Checkpoints.Records.add workspaceUid taskId) known) := by
  induction h generalizing records known with
  | nil => exact hrecords
  | cons hentry _ ih => exact ih (hrecords.add hentry workspaceUid taskId)

/-! ## The facts on both sides -/

/-- The fields of a provenance that both sides have. -/
structure SameProvenance (mine : ResumeProvenance) (theirs : Checkpoints.Provenance) : Prop where
  checkpointId : mine.checkpointId = theirs.checkpointId
  entryDigest : mine.entryDigest = theirs.entryDigest
  date : mine.date = theirs.date
  ordinal : mine.ordinal = theirs.ordinal
  revision : mine.revision = theirs.revision
  origin : mine.origin = theirs.origin
  binding : mine.binding.name = theirs.binding.name
  recordedTaskId : mine.recordedTaskId = theirs.recordedTaskId
  recordedTaskTitle : mine.recordedTaskTitle = theirs.recordedTaskTitle

/-- The facts that both sides have. -/
structure SameFacts (mine : ResumeFacts) (theirs : Checkpoints.Facts) : Prop where
  status : mine.status.name = theirs.status.name
  workspaceUid : mine.workspaceUid = theirs.workspaceUid
  taskId : mine.taskId = theirs.taskId
  provenance : Option.Rel SameProvenance mine.provenance theirs.provenance
  done : mine.done = theirs.done
  next : mine.next = theirs.next
  blockers : mine.blockers = theirs.blockers
  activeRecordCount : mine.activeRecordCount = theirs.activeRecordCount
  supersededRecordCount : mine.supersededRecordCount = theirs.supersededRecordCount
  version : mine.version = theirs.version

theorem versionOf_agree {status : ResumeStatus} {known : Checkpoints.FactsStatus} {mine : Option ResumeProvenance}
    {theirs : Option Checkpoints.Provenance} (hstatus : status.name = known.name)
    (h : Option.Rel SameProvenance mine theirs) (workspaceUid taskId : String) :
    versionOf status workspaceUid taskId mine = Checkpoints.version known workspaceUid taskId theirs := by
  unfold versionOf Checkpoints.version
  rw [hstatus]
  cases h with
  | none => rfl
  | some h =>
      dsimp only
      rw [h.checkpointId, h.entryDigest, h.date, h.ordinal, h.revision]

theorem provenanceOf_agree {bound : BoundEntry} {binding : Checkpoints.Binding} {summary : EntrySummary}
    {known : Checkpoints.Summary} (hentry : Matches bound.entry row) (hbinding : bound.binding.name = binding.name)
    (hsummary : SameSummary summary known) (workspaceUid taskId : String) :
    SameProvenance (provenanceOf bound summary workspaceUid taskId) (Checkpoints.provenanceOf row binding known) where
  checkpointId := hentry.checkpointId
  entryDigest := congrArg Checkpoints.Locator.entryDigest hentry.locator
  date := congrArg Checkpoints.Locator.date hentry.locator
  ordinal := congrArg Checkpoints.Locator.ordinal hentry.locator
  revision := hentry.revision
  origin := hentry.origin
  binding := hbinding
  recordedTaskId := hsummary.taskId
  recordedTaskTitle := hsummary.taskTitle

theorem binding_eq_locator_iff {mine : ResumeBinding} {theirs : Checkpoints.Binding} (h : mine.name = theirs.name) :
    mine = .locator ↔ theirs = .locator := by
  revert h
  cases mine <;> cases theirs <;> decide

/-- A summary that can be read is presented in full or in part on both sides. -/
theorem readableStatus_agree {summary : EntrySummary} {known : Checkpoints.Summary} {mine : ResumeBinding}
    {theirs : Checkpoints.Binding} (hsummary : SameSummary summary known) (hbinding : mine.name = theirs.name)
    (taskId : String) :
    (readableStatus summary mine taskId).name =
      (if "unpresented_values" ∈ Checkpoints.reasons known theirs taskId ∨
          "recorded_task_mismatch" ∈ Checkpoints.reasons known theirs taskId
        then Checkpoints.FactsStatus.incomplete else .ready).name := by
  have hextras : "unpresented_values" ∈ Checkpoints.reasons known theirs taskId ↔ 0 < summary.extras.length := by
    rw [hsummary.extras, Checkpoints.reasons]
    split_ifs <;> simp_all
  have hdisputed : "recorded_task_mismatch" ∈ Checkpoints.reasons known theirs taskId ↔
      mine = .locator ∧ summary.taskId.isSome ∧ summary.taskId ≠ some taskId := by
    rw [hsummary.taskId, binding_eq_locator_iff hbinding, Checkpoints.reasons]
    split_ifs <;> simp_all
  simp only [readableStatus, hextras, hdisputed]
  split <;> rfl

theorem selectFromRecords_agree {records : TaskRecords} (h : SameRecords records known) (workspaceUid taskId : String) :
    SameFacts (selectFromRecords stringify workspaceUid taskId records)
      (Checkpoints.select workspaceUid taskId known) := by
  have hlatest := h.latest
  rw [selectFromRecords, Checkpoints.select]
  cases hmine : records.latestActive with
  | none =>
      rw [hmine] at hlatest
      cases htheirs : known.latest with
      | none => exact ⟨rfl, rfl, rfl, .none, rfl, rfl, rfl, h.active, h.superseded, versionOf_agree rfl .none _ _⟩
      | some latest =>
          rw [htheirs] at hlatest
          cases hlatest
  | some bound =>
      rw [hmine] at hlatest
      cases htheirs : known.latest with
      | none =>
          rw [htheirs] at hlatest
          cases hlatest
      | some latest =>
          rw [htheirs] at hlatest
          obtain ⟨hentry, hbinding⟩ : Matches bound.entry latest.1 ∧ bound.binding.name = latest.2.name := by
            cases hlatest with
            | some hpair => exact hpair
          have hsummary := summarize_agree stringify bound.entry.entry
          rw [hentry.payload] at hsummary
          have hprovenance := Option.Rel.some (provenanceOf_agree hentry hbinding hsummary workspaceUid taskId)
          have hstatus := readableStatus_agree hsummary hbinding taskId
          dsimp only
          rw [hsummary.readable]
          split
          · exact ⟨rfl, rfl, rfl, hprovenance, rfl, rfl, rfl, h.active, h.superseded,
              versionOf_agree rfl hprovenance _ _⟩
          · exact ⟨hstatus, rfl, rfl, hprovenance, hsummary.done, hsummary.next, hsummary.blockers, h.active,
              h.superseded, versionOf_agree hstatus hprovenance _ _⟩

/-- An audit that the service admits is one that the client reads, entry by entry. -/
theorem asAudit_of_auditRows {workspaceUid : String} {audit : Json}
    (h : Checkpoints.auditRows workspaceUid audit = some rows) :
    ∃ parsed, asAudit audit = some parsed ∧ List.Forall₂ Matches parsed.entries rows := by
  unfold Checkpoints.auditRows at h
  split at h
  · rename_i fields
    split at h
    · rename_i entries huid hentries
      obtain ⟨parsed, hparsed, hmatches⟩ := forall₂_of_readAll h
      have huid : item fields "workspace_uid" = .str workspaceUid := by
        unfold isText at huid
        split at huid
        · rename_i other hother
          rw [hother, eq_of_beq huid]
        · cases huid
      refine ⟨⟨workspaceUid, parsed⟩, ?_, hmatches⟩
      rw [asAudit, huid, hentries]
      change (Checkpoints.readAll asAuditEntry entries).map (Audit.mk workspaceUid) = _
      rw [hparsed]
      rfl
    · cases h
  · cases h

/-- For an audit that the service admits, the client selects the same record and comes to the same facts. -/
theorem resume_facts_agree (stringify : Json → String) {audit : Json} {workspaceUid taskId : String}
    {rows : List Checkpoints.AuditRow} (huid : Checkpoints.isWorkspaceUid workspaceUid = true)
    (htask : Checkpoints.isTaskId taskId = true) (hrows : Checkpoints.auditRows workspaceUid audit = some rows) :
    ∃ parsed known, asAudit audit = some parsed ∧
      Checkpoints.projectCheckpointFacts audit workspaceUid taskId = .ok known ∧
      SameRecords (collectTaskRecords stringify parsed workspaceUid taskId)
        (Checkpoints.collect workspaceUid taskId rows) ∧
      SameFacts (selectTaskResumeFacts stringify workspaceUid taskId ⟨some parsed, false, none⟩) known := by
  obtain ⟨parsed, hparsed, hmatches⟩ := asAudit_of_auditRows hrows
  have hrecords : SameRecords (collectTaskRecords stringify parsed workspaceUid taskId)
      (Checkpoints.collect workspaceUid taskId rows) :=
    sameRecords_collect hmatches ⟨.none, rfl, rfl⟩ workspaceUid taskId
  have hrequest : Checkpoints.validateCheckpointRequest workspaceUid taskId = .ok () := by
    rw [Checkpoints.validateCheckpointRequest, huid, htask]
    rfl
  exact ⟨parsed, _, hparsed, Checkpoints.projectCheckpointFacts_eq_ok.mpr ⟨hrequest, rows, hrows, rfl⟩, hrecords,
    selectFromRecords_agree hrecords workspaceUid taskId⟩

/-! ## An audit with two entries of a day -/

def sampleUid : String := "6f1c2b7e-9a54-4d3e-8f10-2b7c5a9d4e61"

def sampleEntry (taskId : Json) (ordinal : ℤ) (entry : Json) : Json := .obj [
  ("locator", .obj [("workspace_uid", .str sampleUid), ("task_id", taskId), ("date", .str "2026-09-01"),
    ("ordinal", .int ordinal), ("entry_digest", .null)]),
  ("entry", entry), ("state", .str "active"), ("revision", .int 0)]

/-- A legacy entry that claims a Task, and one behind it of the Task, with a hole and a field that nobody knows. -/
def sampleAudit : Json := .obj [
  ("workspace_uid", .str sampleUid),
  ("entries", .arr [
    sampleEntry .null 0 (.obj [("task_id", .str "T-0001"), ("done", .str "drafted")]),
    sampleEntry (.str "T-0001") 1 (.obj [("done", .arr [.str "measured", .null]), ("mood", .str "")])])]

/-- `JSON.stringify` of the values that the sample leaves out. -/
def sampleText (value : Json) : String := String.ofList (Json.compactText value)

theorem sample_facts_agree : (Checkpoints.auditRows sampleUid sampleAudit).isSome = true ∧
    ∃ parsed known, asAudit sampleAudit = some parsed ∧
      Checkpoints.projectCheckpointFacts sampleAudit sampleUid "T-0001" = .ok known ∧
      SameFacts (selectTaskResumeFacts sampleText sampleUid "T-0001" ⟨some parsed, false, none⟩) known := by
  have hadmitted : (Checkpoints.auditRows sampleUid sampleAudit).isSome = true := by decide
  obtain ⟨rows, hrows⟩ := Option.isSome_iff_exists.mp hadmitted
  obtain ⟨parsed, known, hparsed, hknown, -, hfacts⟩ := resume_facts_agree sampleText
    (by decide : Checkpoints.isWorkspaceUid sampleUid = true) (by decide : Checkpoints.isTaskId "T-0001" = true) hrows
  exact ⟨hadmitted, parsed, known, hparsed, hknown, hfacts⟩

end WorkStack.Views.Resume
