import WorkStack.Checkpoints.Selection

/-!
# The facts of stored documents

Where the documents are accepted, the audit can be read, a row of it is the physical row of the worklog, and
what binds it is the task that the entry names. So the facts are those of the last row of the task that is
not superseded, and the rows and the records of other tasks have no part in them.
-/

open WorkStack.Python WorkStack.Python.Decoding WorkStack.Effect.Refusing

namespace WorkStack.Checkpoints

variable {P : Platform}

/-! ## Locators -/

theorem optionalPattern_optionalText {legacy : Bool} {accepts : String → Bool} {value result : Option String}
    (h : optionalPattern legacy accepts (optionalText value) = some result) :
    result = value ∧ ∀ known, value = some known → accepts known = true := by
  cases value with
  | none =>
      cases legacy with
      | false => cases h
      | true =>
          cases h
          exact ⟨rfl, fun known hknown ↦ by cases hknown⟩
  | some known =>
      have hpattern : (pattern accepts (.str known)).map some = some result := by
        cases legacy <;> exact h
      rw [Option.map_eq_some_iff] at hpattern
      obtain ⟨result', hresult, rfl⟩ := hpattern
      obtain ⟨hvalue, haccepts⟩ := pattern_eq_some.mp hresult
      cases hvalue
      refine ⟨rfl, ?_⟩
      rintro _ ⟨⟩
      exact haccepts

/-- A text that the pattern accepts is read as it was written, and so is none. -/
theorem optionalPattern_true {accepts : String → Bool} {value : Option String}
    (h : ∀ known, value = some known → accepts known = true) :
    optionalPattern true accepts (optionalText value) = some value := by
  cases value with
  | none => rfl
  | some known =>
      change (pattern accepts (.str known)).map some = _
      rw [pattern_eq_some.mpr ⟨rfl, h known rfl⟩]
      rfl

/-- The locator that a row physically has. -/
def PhysicalRow.locator (P : Platform) (uid : String) (row : PhysicalRow) : Locator :=
  ⟨uid, physicalTaskId row.entry, row.date, row.ordinal, entryDigest P row.entry⟩

/-- The coordinates of a locator are as an audit asks for them. -/
structure Locator.IsSound (locator : Locator) : Prop where
  taskId : ∀ taskId, locator.taskId = some taskId → isTaskId taskId = true
  date : isIsoDate locator.date = true
  ordinal : 0 ≤ locator.ordinal ∧ locator.ordinal ≤ maxInteger
  entryDigest : ∀ digest, locator.entryDigest = some digest → isEntryDigest digest = true

theorem readLocator_physical {legacy : Bool} {uid : String} {row : PhysicalRow} {locator : Locator}
    (h : readLocator P legacy (physicalLocator P uid row) = some locator) :
    locator = row.locator P uid ∧ locator.IsSound := by
  obtain ⟨huid, -, htask, hdate, hiso, hordinal, hlow, hhigh, hdigest⟩ := readLocator_eq_some h
  obtain ⟨htaskId, hsoundTask⟩ := optionalPattern_optionalText htask
  obtain ⟨hdigestId, hsoundDigest⟩ := optionalPattern_optionalText hdigest
  rw [Json.str.injEq] at huid hdate
  rw [Json.int.injEq] at hordinal
  constructor
  · obtain ⟨uid', taskId, date, ordinal, digest⟩ := locator
    simp only at huid hdate hordinal htaskId hdigestId
    rw [PhysicalRow.locator, huid, hdate, hordinal, htaskId, hdigestId]
  · constructor
    · rw [htaskId]
      exact hsoundTask
    · exact hiso
    · exact ⟨hlow, hhigh⟩
    · rw [hdigestId]
      exact hsoundDigest

theorem readRowLocator_json {locator : Locator} (huid : isWorkspaceUid locator.workspaceUid = true)
    (h : locator.IsSound) : readRowLocator locator.json = some locator := by
  have hfields : fieldsOf locatorKeys locator.json = some [("workspace_uid", .str locator.workspaceUid),
      ("task_id", optionalText locator.taskId), ("date", .str locator.date), ("ordinal", .int locator.ordinal),
      ("entry_digest", optionalText locator.entryDigest)] := by
    rw [fieldsOf_eq_some]
    exact ⟨rfl, rfl⟩
  have huid' : pattern isWorkspaceUid (.str locator.workspaceUid) = some locator.workspaceUid :=
    pattern_eq_some.mpr ⟨rfl, huid⟩
  have hdate : calendarDate (.str locator.date) = some locator.date := pattern_eq_some.mpr ⟨rfl, h.date⟩
  have hordinal : intIn 0 maxInteger (.int locator.ordinal) = some locator.ordinal :=
    intIn_eq_some.mpr ⟨rfl, h.ordinal⟩
  unfold readRowLocator
  rw [hfields]
  change (pattern isWorkspaceUid (.str locator.workspaceUid) >>= fun uid ↦
    optionalPattern true isTaskId (optionalText locator.taskId) >>= fun taskId ↦
      calendarDate (.str locator.date) >>= fun date ↦ intIn 0 maxInteger (.int locator.ordinal) >>= fun ordinal ↦
        optionalPattern true isEntryDigest (optionalText locator.entryDigest) >>= fun digest ↦
          some (⟨uid, taskId, date, ordinal, digest⟩ : Locator)) = _
  rw [huid', optionalPattern_true h.taskId, hdate, hordinal, optionalPattern_true h.entryDigest]
  rfl

/-! ## The entries of an audit -/

/-- The row that an entry of the audit is read as. -/
def AuditEntry.row (entry : AuditEntry PhysicalRow) : AuditRow :=
  ⟨entry.locator, entry.checkpointId, entry.entry.entry, entry.recorded.bind Recorded.origin, entry.state,
    entry.revision⟩

theorem rowOrigin_json (recorded : Option Recorded) :
    rowOrigin ((recorded.map Recorded.json).getD .null) = some (recorded.bind Recorded.origin) := by
  cases recorded with
  | none => rfl
  | some recorded =>
      have horigin : rowOrigin recorded.json = some recorded.origin := by
        unfold rowOrigin Recorded.json
        dsimp only
        rw [show item _ "origin" = optionalText recorded.origin from rfl]
        cases recorded.origin with
        | none => rfl
        | some origin => rfl
      exact horigin

theorem readAuditRow_json {entry : AuditEntry PhysicalRow} (huid : isWorkspaceUid entry.locator.workspaceUid = true)
    (hlocator : entry.locator.IsSound)
    (hcheckpoint : ∀ checkpointId, entry.checkpointId = some checkpointId → isCheckpointId checkpointId = true)
    (hrevision : 0 ≤ entry.revision ∧ entry.revision ≤ maxInteger) : readAuditRow entry.json = some entry.row := by
  have hstate : readState (.str entry.state.name) = some entry.state := by
    cases entry.state with
    | active => rfl
    | superseded => rfl
  change (readState (.str entry.state.name) >>= fun state ↦ readRowLocator entry.locator.json >>= fun locator ↦
    optionalPattern true isCheckpointId (optionalText entry.checkpointId) >>= fun checkpointId ↦
      rowOrigin ((entry.recorded.map Recorded.json).getD .null) >>= fun origin ↦
        intIn 0 maxInteger (.int entry.revision) >>= fun revision ↦
          some (⟨locator, checkpointId, entry.entry.entry, origin, state, revision⟩ : AuditRow)) = _
  rw [hstate, readRowLocator_json huid hlocator, optionalPattern_true hcheckpoint, rowOrigin_json,
    intIn_eq_some.mpr ⟨rfl, hrevision⟩]
  rfl

/-! ## Accepted documents -/

/-- What accepted documents are known by: what the contract has bound, and the rows of the worklog. -/
structure Audited (P : Platform) (uid : String) (worklog : Worklog) (activity : Fields)
    (rows : List (Row PhysicalRow)) (events : List TransitionEvent) : Prop where
  accepted : Accepted P uid worklog activity rows events
  bound : Bound P (representable P uid worklog (recognizedRecords activity)) rows events

theorem buildAudit_eq_ok {uid : String} {worklog : Worklog} {activity : Fields} {entries : List (AuditEntry PhysicalRow)}
    (h : buildAudit P uid worklog activity = .ok entries) :
    ∃ rows events, Audited P uid worklog activity rows events ∧ entries = rows.map (auditEntry events) := by
  simp only [buildAudit, buildAuditView, bind_eq_ok, pure_eq_ok, Prod.exists] at h
  obtain ⟨context, hcontext, rows, events, hwrappers, hentries⟩ := h
  have haccepted := accepted_of_wrappers hcontext hwrappers
  obtain ⟨rfl, -⟩ := buildProjectionContext_eq_ok hcontext
  exact ⟨rows, events, ⟨haccepted, wrappers_eq_ok hwrappers⟩, hentries.symm⟩

section Audited

variable {uid : String} {worklog : Worklog} {activity : Fields} {rows : List (Row PhysicalRow)}
  {events : List TransitionEvent}

variable {row : Row PhysicalRow}

/-- A row is read from a wrapper of its physical row. -/
theorem Audited.wrapper_of_row (h : Audited P uid worklog activity rows events) (hrow : row ∈ rows) :
    ∃ wrapper ∈ rowWrappers P uid (recordedFacts (recognizedRecords activity)) row.entry,
      readWrapper P wrapper = some row := by
  obtain ⟨-, hrows⟩ := readAll_eq_some.mp h.bound.rowsRead
  rw [← hrows, List.mem_filterMap] at hrow
  obtain ⟨wrapper, hwrapper, hread⟩ := hrow
  obtain ⟨physical, -, hof⟩ := List.mem_flatMap.mp hwrapper
  obtain ⟨rfl, -⟩ := readWrapper_physical hof hread
  exact ⟨wrapper, hof, hread⟩

/-- Every wrapper of a physical row is read as a row. -/
theorem Audited.row_of_wrapper (h : Audited P uid worklog activity rows events) {physical : PhysicalRow}
    (hphysical : physical ∈ physicalRows worklog) {wrapper : Wrapper PhysicalRow}
    (hof : wrapper ∈ rowWrappers P uid (recordedFacts (recognizedRecords activity)) physical) :
    ∃ row ∈ rows, readWrapper P wrapper = some row := by
  obtain ⟨hall, hrows⟩ := readAll_eq_some.mp h.bound.rowsRead
  have hwrapper : wrapper ∈ (representable P uid worklog (recognizedRecords activity)).entries :=
    List.mem_flatMap.mpr ⟨physical, hphysical, hof⟩
  obtain ⟨row, hread⟩ := Option.isSome_iff_exists.mp (hall wrapper hwrapper)
  refine ⟨row, ?_, hread⟩
  rw [← hrows, List.mem_filterMap]
  exact ⟨wrapper, hwrapper, hread⟩

theorem readWrapper_eq_some {uid : String} {facts : List Json} {physical : PhysicalRow} {wrapper : Wrapper PhysicalRow}
    (hof : wrapper ∈ rowWrappers P uid facts physical) (h : readWrapper P wrapper = some row) :
    row.locator = physical.locator P uid ∧ row.locator.IsSound ∧
      row.recorded = wrapper.recorded.bind (readRecorded P) := by
  simp only [rowWrappers, List.mem_map] at hof
  obtain ⟨claim, -, rfl⟩ := hof
  cases claim with
  | none =>
      simp only [readWrapper, Option.bind_eq_bind, Option.bind_eq_some_iff, Option.pure_def, Option.some.injEq] at h
      obtain ⟨locator, hlocator, rfl⟩ := h
      exact ⟨(readLocator_physical hlocator).1, (readLocator_physical hlocator).2, rfl⟩
  | some details =>
      simp only [readWrapper, Option.bind_eq_bind, Option.bind_eq_some_iff, Option.pure_def, Option.some.injEq] at h
      obtain ⟨locator, hlocator, recorded, hrecorded, rfl⟩ := h
      exact ⟨(readLocator_physical hlocator).1, (readLocator_physical hlocator).2, hrecorded.symm⟩

theorem Audited.locator_eq (h : Audited P uid worklog activity rows events) (hrow : row ∈ rows) :
    row.locator = row.entry.locator P uid ∧ row.locator.IsSound := by
  obtain ⟨wrapper, hof, hread⟩ := h.wrapper_of_row hrow
  obtain ⟨hlocator, hsound, -⟩ := readWrapper_eq_some hof hread
  exact ⟨hlocator, hsound⟩

theorem Audited.checkpointId_isCheckpointId (h : Audited P uid worklog activity rows events) (hrow : row ∈ rows)
    {checkpointId : String} (hid : row.checkpointId = some checkpointId) :
    isCheckpointId checkpointId = true := by
  obtain ⟨wrapper, hof, hread⟩ := h.wrapper_of_row hrow
  obtain ⟨-, -, hrecorded⟩ := readWrapper_eq_some hof hread
  simp only [Row.checkpointId, hrecorded, Option.map_eq_some_iff, Option.bind_eq_some_iff] at hid
  obtain ⟨recorded, ⟨details, -, hdetails⟩, rfl⟩ := hid
  exact readRecorded_checkpointId hdetails

theorem Audited.revision_bounds (h : Audited P uid worklog activity rows events) (row : Row PhysicalRow) :
    0 ≤ revisionAfter (row.transitions events) ∧ revisionAfter (row.transitions events) ≤ maxInteger := by
  obtain ⟨-, hevents⟩ := readAll_eq_some.mp h.bound.eventsRead
  unfold revisionAfter
  cases hlast : (row.transitions events).getLast? with
  | none => exact ⟨le_refl 0, by decide⟩
  | some event =>
      have hmem : event ∈ events := by
        have htransitions := List.mem_of_getLast? hlast
        unfold Row.transitions at htransitions
        cases hid : row.checkpointId with
        | none =>
            rw [hid] at htransitions
            cases htransitions
        | some checkpointId =>
            rw [hid] at htransitions
            exact List.mem_of_mem_filter htransitions
      rw [← hevents, List.mem_filterMap] at hmem
      obtain ⟨details, -, hread⟩ := hmem
      have hrevision := readEvent_revision hread
      simp only [Option.map_some, Option.getD_some]
      omega

/-- The rows that the audit of accepted documents is read as. -/
def auditedRows (events : List TransitionEvent) (rows : List (Row PhysicalRow)) : List AuditRow :=
  rows.map fun row ↦ (auditEntry events row).row

/-- The audit of accepted documents can be read. -/
theorem Audited.auditRows_eq (h : Audited P uid worklog activity rows events) (huid : isWorkspaceUid uid = true) :
    auditRows uid (auditJson uid (rows.map (auditEntry events))) = some (auditedRows events rows) := by
  have hread : ∀ row ∈ rows, readAuditRow (auditEntry events row).json = some (auditEntry events row).row := by
    intro row hrow
    obtain ⟨hlocator, hsound⟩ := h.locator_eq hrow
    apply readAuditRow_json
    · change isWorkspaceUid row.locator.workspaceUid = true
      rw [hlocator]
      exact huid
    · exact hsound
    · exact fun checkpointId hid ↦ h.checkpointId_isCheckpointId hrow hid
    · exact h.revision_bounds row
  have hall : readAll readAuditRow ((rows.map (auditEntry events)).map AuditEntry.json) =
      some (auditedRows events rows) := by
    rw [readAll_eq_some, List.map_map, List.filterMap_map]
    constructor
    · intro value hvalue
      obtain ⟨row, hrow, rfl⟩ := List.mem_map.mp hvalue
      rw [Function.comp_apply, hread row hrow]
      rfl
    · rw [auditedRows, ← List.filterMap_eq_map]
      apply List.filterMap_congr
      intro row hrow
      exact hread row hrow
  have htext : isText uid (.str uid) = true := by simp [isText]
  rw [← hall]
  unfold auditRows auditJson
  dsimp only
  rw [show item _ "workspace_uid" = .str uid from rfl, htext]
  rfl

/-! ## The rows of a task -/

/-- The rows of the worklog whose entry names a task. -/
def taskRows (taskId : String) (worklog : Worklog) : List PhysicalRow :=
  (physicalRows worklog).filter fun row ↦ physicalTaskId row.entry == some taskId

/-- Those of them that are not superseded. -/
def activeTaskRows (taskId : String) (worklog : Worklog) (activity : Fields) : List PhysicalRow :=
  (taskRows taskId worklog).filter fun row ↦ !isSuperseded activity row.date row.ordinal

variable {taskId : String}

/-- The task of a summary is a text of the entry, so a canonical one is the task that the entry names. -/
theorem physicalTaskId_of_summary {entry : Json} (htask : isTaskId taskId = true)
    (h : (summarizeEntry entry).taskId = some taskId) : physicalTaskId entry = some taskId := by
  cases entry with
  | obj fields =>
      have htext : textValue (item fields "task_id") = some taskId := by
        simp only [summarizeEntry] at h
        split at h
        · exact h
        · cases h
      have hget : Dict.get fields "task_id" = some (.str taskId) := by
        unfold item at htext
        cases hvalue : Dict.get fields "task_id" with
        | none =>
            rw [hvalue] at htext
            cases htext
        | some value =>
            rw [hvalue, Option.getD_some] at htext
            cases value with
            | str text =>
                simp only [textValue, Option.ite_none_left_eq_some, Option.some.injEq] at htext
                rw [htext.2]
            | _ => cases htext
      simp only [physicalTaskId, hget, htask, if_true]
  | _ => cases h

/-- What binds a row is the task that its entry names. -/
theorem Audited.binding_eq (h : Audited P uid worklog activity rows events) (htask : isTaskId taskId = true)
    (hrow : row ∈ rows) :
    binding (auditEntry events row).row taskId =
      if physicalTaskId row.entry.entry = some taskId then some .locator else none := by
  have hlocator : (auditEntry events row).row.locator.taskId = physicalTaskId row.entry.entry := by
    change row.locator.taskId = _
    rw [(h.locator_eq hrow).1]
    rfl
  unfold binding
  rw [hlocator]
  cases hphysical : physicalTaskId row.entry.entry with
  | some other => simp
  | none =>
      have hsummary : (summarizeEntry (auditEntry events row).row.entry).taskId ≠ some taskId := by
        intro hclaimed
        have hnamed := physicalTaskId_of_summary htask hclaimed
        change physicalTaskId row.entry.entry = _ at hnamed
        rw [hphysical] at hnamed
        cases hnamed
      simp only [hsummary, if_false, reduceCtorEq]

theorem Audited.boundRows_eq (h : Audited P uid worklog activity rows events) (htask : isTaskId taskId = true)
    (state : CheckpointState) :
    boundRows uid taskId state (auditedRows events rows) =
      (rows.filter fun row ↦ physicalTaskId row.entry.entry == some taskId &&
        stateAfter (row.transitions events) == state).map fun row ↦ ((auditEntry events row).row, .locator) := by
  rw [boundRows, auditedRows, List.filterMap_map, ← List.filterMap_eq_map, ← List.filterMap_eq_filter,
    List.filterMap_filterMap]
  apply List.filterMap_congr
  intro row hrow
  have huid : (auditEntry events row).row.locator.workspaceUid = uid := by
    change row.locator.workspaceUid = uid
    rw [(h.locator_eq hrow).1]
    rfl
  have hstate : (auditEntry events row).row.state = stateAfter (row.transitions events) := rfl
  simp only [Function.comp_apply, boundRow, huid, hstate, true_and, h.binding_eq htask hrow, Option.guard,
    Bool.and_eq_true, beq_iff_eq]
  by_cases hphysical : physicalTaskId row.entry.entry = some taskId
  · by_cases hafter : stateAfter (row.transitions events) = state
    · simp [hphysical, hafter]
    · simp [hafter]
  · simp [hphysical]

/-- The rows of accepted documents are in distinct slots. -/
theorem Audited.slots_nodup (h : Audited P uid worklog activity rows events) :
    ((auditedRows events rows).map fun row ↦
      (row.locator.workspaceUid, row.locator.date, row.locator.ordinal)).Nodup := by
  rw [auditedRows, List.map_map]
  exact h.bound.slots

/-! ## The last row of a task -/

/-- What facts present of a row of the worklog. -/
def Facts.PresentsRow (P : Platform) (facts : Facts) (row : PhysicalRow) : Prop :=
  let summary := summarizeEntry row.entry
  (∃ provenance, facts.provenance = some provenance ∧ provenance.date = row.date ∧
    provenance.ordinal = row.ordinal ∧ provenance.entryDigest = entryDigest P row.entry) ∧
  (facts.done, facts.next, facts.blockers) =
    if summary.readable then (summary.done, summary.next, summary.blockers) else ([], [], [])

/-- The facts are those of the last active row of a task, or it has none. -/
def SelectsLastRow (P : Platform) (rows : List PhysicalRow) (facts : Facts) : Prop :=
  (rows = [] ∧ facts.provenance = none) ∨
    ∃ selected ∈ rows, (∀ other ∈ rows, toLex other.slot ≤ toLex selected.slot) ∧ facts.PresentsRow P selected

/-- The active rows of a task are the rows of the contract that are bound to it and active. -/
theorem Audited.mem_activeTaskRows (h : Audited P uid worklog activity rows events) (taskId : String)
    (physical : PhysicalRow) :
    physical ∈ activeTaskRows taskId worklog activity ↔
      ∃ row ∈ rows.filter (fun row ↦ physicalTaskId row.entry.entry == some taskId &&
        stateAfter (row.transitions events) == .active), row.entry = physical := by
  have hactive {row : Row PhysicalRow} (hrow : row ∈ rows) :
      isSuperseded activity row.entry.date row.entry.ordinal = false ↔
        stateAfter (row.transitions events) = .active := by
    rw [h.accepted.state_eq hrow, isSuperseded]
    cases lastState activity row.entry.date row.entry.ordinal with
    | none => simp
    | some state => cases state <;> simp
  simp only [activeTaskRows, taskRows, List.mem_filter, beq_iff_eq, Bool.not_eq_true', Bool.and_eq_true]
  constructor
  · rintro ⟨⟨hphysical, htask⟩, hsuperseded⟩
    obtain ⟨row, hrow, rfl⟩ := h.accepted.covers physical hphysical
    exact ⟨row, ⟨hrow, htask, (hactive hrow).mp hsuperseded⟩, rfl⟩
  · rintro ⟨row, ⟨hrow, htask, hstate⟩, rfl⟩
    exact ⟨⟨(h.accepted.physical row hrow).1, htask⟩, (hactive hrow).mpr hstate⟩

theorem Audited.selectsLastRow (h : Audited P uid worklog activity rows events) (htask : isTaskId taskId = true)
    {facts : Facts} (hfacts : SelectsLatest (boundRows uid taskId .active (auditedRows events rows)) facts) :
    SelectsLastRow P (activeTaskRows taskId worklog activity) facts := by
  have hplace {row : Row PhysicalRow} (hrow : row ∈ rows) :
      place ((auditEntry events row).row, .locator) = toLex row.entry.slot := by
    change toLex (row.locator.date, row.locator.ordinal) = _
    rw [(h.locator_eq hrow).1]
    rfl
  rw [h.boundRows_eq htask] at hfacts
  rcases hfacts with ⟨hnone, hprovenance⟩ | ⟨selected, hselected, hlargest, hprovenance, hpresented⟩
  · refine .inl ⟨?_, hprovenance⟩
    rw [List.map_eq_nil_iff] at hnone
    rw [List.eq_nil_iff_forall_not_mem]
    intro physical hphysical
    obtain ⟨row, hrow, -⟩ := (h.mem_activeTaskRows taskId physical).mp hphysical
    rw [hnone] at hrow
    cases hrow
  · obtain ⟨row, hrow, rfl⟩ := List.mem_map.mp hselected
    have hmem : row ∈ rows := List.mem_of_mem_filter hrow
    refine .inr ⟨row.entry, (h.mem_activeTaskRows taskId row.entry).mpr ⟨row, hrow, rfl⟩, ?_, ?_, hpresented⟩
    · intro other hother
      obtain ⟨row', hrow', rfl⟩ := (h.mem_activeTaskRows taskId other).mp hother
      rw [← hplace hmem, ← hplace (List.mem_of_mem_filter hrow')]
      exact hlargest _ (List.mem_map_of_mem hrow')
    · have hlocator := (h.locator_eq hmem).1
      refine ⟨_, hprovenance, ?_, ?_, ?_⟩
      · change row.locator.date = _
        rw [hlocator]
        rfl
      · change row.locator.ordinal = _
        rw [hlocator]
        rfl
      · change row.locator.entryDigest = _
        rw [hlocator]
        rfl

/-! ## Other tasks -/

/-- Whether the details of a record name a task. -/
def ofTask (taskId : String) (details : Json) : Bool := isText taskId (detail "task_id" details)

/-- The recognized records of an activity that name a task. -/
def taskRecords (taskId : String) (activity : Fields) : List (String × Json) :=
  (recognizedRecords activity).filter fun record ↦ ofTask taskId record.2

/-- Documents that hold the same of a task: its rows, each in its slot, and the records that name it. -/
structure SameTask (taskId : String) (worklog activity worklog' activity' : Fields) : Prop where
  rows : taskRows taskId worklog = taskRows taskId worklog'
  records : taskRecords taskId activity = taskRecords taskId activity'

theorem SameTask.symm {worklog activity worklog' activity' : Fields}
    (h : SameTask taskId worklog activity worklog' activity') :
    SameTask taskId worklog' activity' worklog activity :=
  ⟨h.rows.symm, h.records.symm⟩

theorem recordedFacts_filter (taskId : String) (activity : Fields) :
    (recordedFacts (recognizedRecords activity)).filter (ofTask taskId) = recordedFacts (taskRecords taskId activity) := by
  rw [recordedFacts, recordedFacts, taskRecords, List.filter_map, List.filter_filter, List.filter_filter]
  congr 1
  apply List.filter_congr
  intro record _
  exact Bool.and_comm ..

theorem recordedTransitions_filter (taskId : String) (activity : Fields) :
    (recordedTransitions (recognizedRecords activity)).filter (ofTask taskId) =
      recordedTransitions (taskRecords taskId activity) := by
  rw [recordedTransitions, recordedTransitions, taskRecords, List.filter_map, List.filter_filter, List.filter_filter]
  congr 1
  apply List.filter_congr
  intro record _
  exact Bool.and_comm ..

/-- The facts that claim the slot of a row of a task name that task. -/
theorem Audited.claimsOf_eq (h : Audited P uid worklog activity rows events) {physical : PhysicalRow}
    (hphysical : physical ∈ taskRows taskId worklog) :
    claimsOf (recordedFacts (recognizedRecords activity)) physical =
      claimsOf (recordedFacts (taskRecords taskId activity)) physical := by
  rw [taskRows, List.mem_filter, beq_iff_eq] at hphysical
  rw [← recordedFacts_filter, claimsOf, claimsOf, List.filter_filter]
  apply List.filter_congr
  intro fact hfact
  rw [Bool.eq_iff_iff, Bool.and_eq_true]
  refine ⟨fun hslot ↦ ⟨hslot, ?_⟩, And.left⟩
  have hclaim : fact ∈ claimsOf (recordedFacts (recognizedRecords activity)) physical :=
    List.mem_filter.mpr ⟨hfact, hslot⟩
  have hof : (⟨physicalLocator P uid physical, some fact, physical⟩ : Wrapper PhysicalRow) ∈
      rowWrappers P uid (recordedFacts (recognizedRecords activity)) physical := by
    refine List.mem_map.mpr ⟨some fact, ?_, rfl⟩
    rw [List.isEmpty_eq_false_iff.mpr (List.ne_nil_of_mem hclaim), if_neg Bool.false_ne_true]
    exact List.mem_map_of_mem hclaim
  obtain ⟨row, hrow, hread⟩ := h.row_of_wrapper hphysical.1 hof
  obtain ⟨hlocator, -, hrecorded⟩ := readWrapper_eq_some hof hread
  cases hdetails : readRecorded P fact with
  | none =>
      simp only [readWrapper, hdetails, Option.bind_eq_bind, Option.bind_none, Option.bind_fun_none,
        reduceCtorEq] at hread
  | some recorded =>
      rw [Option.bind_some, hdetails] at hrecorded
      have hsame := congrArg Locator.taskId ((h.bound.rowsBound row hrow).2 recorded hrecorded)
      rw [hlocator] at hsame
      change some recorded.taskId = physicalTaskId physical.entry at hsame
      rw [hphysical.2, Option.some.injEq] at hsame
      obtain ⟨fields, rfl, -, htask, -⟩ := readRecorded_eq_some hdetails
      simp [ofTask, detail, htask, isText, hsame]

/-- The transitions that name the slot of a row of a task name that task. -/
theorem Audited.transitionsAt_eq (h : Audited P uid worklog activity rows events) (hrow : row ∈ rows)
    (htask : physicalTaskId row.entry.entry = some taskId) :
    transitionsAt activity row.entry.date row.entry.ordinal =
      (recordedTransitions (taskRecords taskId activity)).filter fun details ↦
        slotOf details == some (row.entry.date, (row.entry.ordinal : ℤ)) := by
  rw [transitionsAt, ← recordedTransitions_filter, List.filter_filter]
  apply List.filter_congr
  intro details hdetails
  rw [Bool.eq_iff_iff, Bool.and_eq_true]
  refine ⟨fun hslot ↦ ⟨hslot, ?_⟩, And.left⟩
  obtain ⟨hall, hevents⟩ := readAll_eq_some.mp h.bound.eventsRead
  obtain ⟨event, hread⟩ := Option.isSome_iff_exists.mp (hall details hdetails)
  have hevent : event ∈ events := by
    rw [← hevents, List.mem_filterMap]
    exact ⟨details, hdetails, hread⟩
  have hat : (event.date, event.ordinal) = row.entry.slot := by
    rw [(readEvent_slot hread).1, beq_iff_eq, Option.some.injEq] at hslot
    exact hslot
  obtain ⟨other, hother, -, hlocator⟩ := h.bound.eventsBound event hevent
  have hsame : other = row := by
    apply h.accepted.unique other hother row hrow
    rw [← hat]
    rw [(h.locator_eq hother).1] at hlocator
    exact Prod.ext (congrArg Locator.date hlocator).symm (congrArg Locator.ordinal hlocator).symm
  subst hsame
  rw [(h.locator_eq hother).1] at hlocator
  have hname := congrArg Locator.taskId hlocator
  change some event.taskId = physicalTaskId other.entry.entry at hname
  rw [htask, Option.some.injEq] at hname
  obtain ⟨fields, rfl, -, -, hfield, -⟩ := readEvent_eq_some hread
  simp [ofTask, detail, hfield, isText, hname]

section TwoDocuments

variable {worklog' : Worklog} {activity' : Fields} {rows' : List (Row PhysicalRow)} {events' : List TransitionEvent}

/-- A row of a task is the same row, with the same history, in documents that hold the same of the task. -/
theorem Audited.row_of_sameTask (h : Audited P uid worklog activity rows events)
    (h' : Audited P uid worklog' activity' rows' events') (hsame : SameTask taskId worklog activity worklog' activity')
    (hrow : row ∈ rows) (htask : physicalTaskId row.entry.entry = some taskId) :
    row ∈ rows' ∧ row.transitions events = row.transitions events' := by
  have hphysical : row.entry ∈ taskRows taskId worklog :=
    List.mem_filter.mpr ⟨(h.accepted.physical row hrow).1, by rw [htask, beq_self_eq_true]⟩
  have hphysical' : row.entry ∈ taskRows taskId worklog' := by
    rw [← hsame.rows]
    exact hphysical
  have hclaims : claimsOf (recordedFacts (recognizedRecords activity)) row.entry =
      claimsOf (recordedFacts (recognizedRecords activity')) row.entry := by
    rw [h.claimsOf_eq hphysical, h'.claimsOf_eq hphysical', hsame.records]
  have hrow' : row ∈ rows' := by
    obtain ⟨wrapper, hof, hread⟩ := h.wrapper_of_row hrow
    have hof' : wrapper ∈ rowWrappers P uid (recordedFacts (recognizedRecords activity')) row.entry := by
      unfold rowWrappers at hof ⊢
      rw [← hclaims]
      exact hof
    obtain ⟨row', hmem, hread'⟩ := h'.row_of_wrapper (List.mem_of_mem_filter hphysical') hof'
    rw [hread, Option.some.injEq] at hread'
    rw [hread']
    exact hmem
  refine ⟨hrow', ?_⟩
  rw [h.accepted.transitions_read hrow, h'.accepted.transitions_read hrow', h.transitionsAt_eq hrow htask,
    h'.transitionsAt_eq hrow' htask, hsame.records]

/-- Documents that hold the same of a task have the same rows bound to it. -/
theorem Audited.boundRows_perm (h : Audited P uid worklog activity rows events)
    (h' : Audited P uid worklog' activity' rows' events') (htask : isTaskId taskId = true)
    (hsame : SameTask taskId worklog activity worklog' activity') (state : CheckpointState) :
    (boundRows uid taskId state (auditedRows events rows)).Perm
      (boundRows uid taskId state (auditedRows events' rows')) := by
  rw [h.boundRows_eq htask, h'.boundRows_eq htask]
  have hperm : (rows.filter fun row ↦ physicalTaskId row.entry.entry == some taskId &&
      stateAfter (row.transitions events) == state).Perm
      (rows'.filter fun row ↦ physicalTaskId row.entry.entry == some taskId &&
        stateAfter (row.transitions events') == state) := by
    rw [List.perm_ext_iff_of_nodup (h.bound.slots.of_map.filter _) (h'.bound.slots.of_map.filter _)]
    intro row
    simp only [List.mem_filter, Bool.and_eq_true, beq_iff_eq]
    constructor
    · rintro ⟨hrow, hphysical, hstate⟩
      obtain ⟨hrow', htransitions⟩ := h.row_of_sameTask h' hsame hrow hphysical
      exact ⟨hrow', hphysical, by rw [← htransitions, hstate]⟩
    · rintro ⟨hrow', hphysical, hstate⟩
      obtain ⟨hrow, htransitions⟩ := h'.row_of_sameTask h hsame.symm hrow' hphysical
      exact ⟨hrow, hphysical, by rw [← htransitions, hstate]⟩
  have hmap : ((rows.filter fun row ↦ physicalTaskId row.entry.entry == some taskId &&
      stateAfter (row.transitions events) == state).map
        fun row ↦ ((auditEntry events row).row, Binding.locator)) =
      (rows.filter fun row ↦ physicalTaskId row.entry.entry == some taskId &&
        stateAfter (row.transitions events) == state).map
          fun row ↦ ((auditEntry events' row).row, Binding.locator) := by
    apply List.map_congr_left
    intro row hrow
    rw [List.mem_filter, Bool.and_eq_true, beq_iff_eq] at hrow
    have htransitions := (h.row_of_sameTask h' hsame hrow.1 hrow.2.1).2
    simp only [auditEntry, htransitions]
  rw [hmap]
  exact hperm.map _

end TwoDocuments

end Audited

/-- A request is refused before anything is read. -/
theorem projectCheckpointFacts_refused {uid taskId : String} {code : FactsCode}
    (h : validateCheckpointRequest uid taskId = .error code) (audit : Json) :
    projectCheckpointFacts audit uid taskId = .error code := by
  unfold projectCheckpointFacts
  rw [h]
  rfl

theorem validateCheckpointRequest_eq_ok {uid taskId : String} :
    validateCheckpointRequest uid taskId = .ok () ↔ isWorkspaceUid uid = true ∧ isTaskId taskId = true := by
  simp only [validateCheckpointRequest, bind_eq_ok, check_eq_ok]
  exact ⟨fun ⟨_, huid, htask⟩ ↦ ⟨huid, htask⟩, fun ⟨huid, htask⟩ ↦ ⟨(), huid, htask⟩⟩

/-- Accepted documents that hold the same of a task come to the same facts of it. -/
theorem projectCheckpointFacts_sameTask {uid taskId : String} {worklog worklog' : Worklog} {activity activity' : Fields}
    {entries entries' : List (AuditEntry PhysicalRow)} (haudit : buildAudit P uid worklog activity = .ok entries)
    (haudit' : buildAudit P uid worklog' activity' = .ok entries')
    (hsame : SameTask taskId worklog activity worklog' activity') :
    projectCheckpointFacts (auditJson uid entries) uid taskId =
      projectCheckpointFacts (auditJson uid entries') uid taskId := by
  cases hrequest : validateCheckpointRequest uid taskId with
  | error code => rw [projectCheckpointFacts_refused hrequest, projectCheckpointFacts_refused hrequest]
  | ok done =>
      obtain ⟨huid, htask⟩ := validateCheckpointRequest_eq_ok.mp hrequest
      obtain ⟨rows, events, haudited, rfl⟩ := buildAudit_eq_ok haudit
      obtain ⟨rows', events', haudited', rfl⟩ := buildAudit_eq_ok haudit'
      exact projectCheckpointFacts_congr (haudited.auditRows_eq huid) (haudited'.auditRows_eq huid)
        (haudited.boundRows_perm haudited' htask hsame) (places_nodup uid taskId .active haudited.slots_nodup)

/-- The facts of accepted documents are those of the last active row of the task. -/
theorem projectCheckpointFacts_lastRow {uid taskId : String} {worklog : Worklog} {activity : Fields}
    {entries : List (AuditEntry PhysicalRow)} (haudit : buildAudit P uid worklog activity = .ok entries)
    (hrequest : validateCheckpointRequest uid taskId = .ok ()) :
    ∃ facts, projectCheckpointFacts (auditJson uid entries) uid taskId = .ok facts ∧
      SelectsLastRow P (activeTaskRows taskId worklog activity) facts := by
  obtain ⟨huid, htask⟩ := validateCheckpointRequest_eq_ok.mp hrequest
  obtain ⟨rows, events, haudited, rfl⟩ := buildAudit_eq_ok haudit
  refine ⟨_, projectCheckpointFacts_eq_ok.mpr ⟨hrequest, _, haudited.auditRows_eq huid, rfl⟩, ?_⟩
  exact haudited.selectsLastRow htask (selectsLatest uid taskId _)

/-! ## The latest bound row -/

/-- The facts of a task are those of the latest active row that is bound to it. They do not depend on the order
of the audit, nor on the rows of other tasks and workspaces, where the rows of the task keep their slots. -/
theorem facts_of_latest_row (P : Platform) (uid taskId : String) :
    (∀ audit facts, projectCheckpointFacts audit uid taskId = .ok facts →
      ∃ rows, auditRows uid audit = some rows ∧ SelectsLatest (boundRows uid taskId .active rows) facts) ∧
    (∀ fields entries entries', entries.Perm entries' → DistinctSlots entries →
      projectCheckpointFacts (withEntries entries fields) uid taskId =
        projectCheckpointFacts (withEntries entries' fields) uid taskId) ∧
    (∀ audit audit' rows rows', auditRows uid audit = some rows → auditRows uid audit' = some rows' →
      (∀ state, (boundRows uid taskId state rows).Perm (boundRows uid taskId state rows')) →
      ((boundRows uid taskId .active rows).map place).Nodup →
      projectCheckpointFacts audit uid taskId = projectCheckpointFacts audit' uid taskId) ∧
    ∀ worklog activity entries, buildAudit P uid worklog activity = .ok entries →
      (validateCheckpointRequest uid taskId = .ok () →
        ∃ facts, projectCheckpointFacts (auditJson uid entries) uid taskId = .ok facts ∧
          SelectsLastRow P (activeTaskRows taskId worklog activity) facts) ∧
      ∀ worklog' activity' entries', buildAudit P uid worklog' activity' = .ok entries' →
        SameTask taskId worklog activity worklog' activity' →
        projectCheckpointFacts (auditJson uid entries) uid taskId =
          projectCheckpointFacts (auditJson uid entries') uid taskId := by
  refine ⟨?_, ?_, ?_, ?_⟩
  · intro audit facts h
    obtain ⟨-, rows, hrows, rfl⟩ := projectCheckpointFacts_eq_ok.mp h
    exact ⟨rows, hrows, selectsLatest uid taskId rows⟩
  · intro fields entries entries' hperm hslots
    exact projectCheckpointFacts_perm hperm hslots fields uid taskId
  · intro audit audit' rows rows' hrows hrows' hperm hplaces
    exact projectCheckpointFacts_congr hrows hrows' hperm hplaces
  · intro worklog activity entries haudit
    constructor
    · intro hrequest
      exact projectCheckpointFacts_lastRow haudit hrequest
    · intro worklog' activity' entries' haudit' hsame
      exact projectCheckpointFacts_sameTask haudit haudit' hsame

/-! ## A slot that shifts -/

def deskUid : String := "6f1c2b7e-9a54-4d3e-8f10-2b7c5a9d4e61"

/-- A worklog of one day. -/
def deskWorklog (entries : List Json) : Worklog :=
  [("days", .obj [("2026-03-02", .obj [("entries", .arr entries)])])]

def deskEntry (taskId next : String) : Json := .obj [("task_id", .str taskId), ("next", .str next)]

/-- The entry of another task comes before the one that is asked for. -/
def deskEntries : List Json := [deskEntry "T-0001" "measure", deskEntry "T-0002" "paint"]

/-- The slot that the facts of the second task name. -/
def deskOrdinal (entries : List Json) : Option ℤ :=
  (buildAudit (asciiPlatform [] []) deskUid (deskWorklog entries) []).toOption.bind fun audit ↦
    (projectCheckpointFacts (auditJson deskUid audit) deskUid "T-0002").toOption.bind fun facts ↦
      facts.provenance.map Provenance.ordinal

theorem deskOrdinal_eq_some {entries : List Json} {ordinal : ℤ} (h : deskOrdinal entries = some ordinal) :
    ∃ audit facts, buildAudit (asciiPlatform [] []) deskUid (deskWorklog entries) [] = .ok audit ∧
      projectCheckpointFacts (auditJson deskUid audit) deskUid "T-0002" = .ok facts ∧
      facts.provenance.map Provenance.ordinal = some ordinal := by
  simp only [deskOrdinal, Option.bind_eq_some_iff, toOption_eq_some] at h
  obtain ⟨audit, haudit, facts, hfacts, hordinal⟩ := h
  exact ⟨audit, facts, haudit, hfacts, hordinal⟩

/-- The latest row of a desk is selected. -/
theorem desk_facts_of_latest_row :
    ∃ audit facts, buildAudit (asciiPlatform [] []) deskUid (deskWorklog deskEntries) [] = .ok audit ∧
      projectCheckpointFacts (auditJson deskUid audit) deskUid "T-0002" = .ok facts ∧
      SelectsLastRow (asciiPlatform [] []) (activeTaskRows "T-0002" (deskWorklog deskEntries) []) facts := by
  have hordinal : deskOrdinal deskEntries = some 1 := by decide +kernel
  obtain ⟨audit, -, haudit, -, -⟩ := deskOrdinal_eq_some hordinal
  have hrequest : validateCheckpointRequest deskUid "T-0002" = .ok () :=
    validateCheckpointRequest_eq_ok.mpr (by decide)
  obtain ⟨facts, hfacts, hselected⟩ :=
    ((facts_of_latest_row (asciiPlatform [] []) deskUid "T-0002").2.2.2 (deskWorklog deskEntries) [] audit haudit).1
      hrequest
  exact ⟨audit, facts, haudit, hfacts, hselected⟩

/-- Where a row of another task goes that came before, a row nobody recorded is in another slot, and the facts
name it. -/
theorem shifted_row_changes_facts :
    ∃ audit audit' facts facts',
      buildAudit (asciiPlatform [] []) deskUid (deskWorklog [deskEntry "T-0001" "measure", deskEntry "T-0002" "paint"])
        [] = .ok audit ∧
      buildAudit (asciiPlatform [] []) deskUid (deskWorklog [deskEntry "T-0002" "paint"]) [] = .ok audit' ∧
      projectCheckpointFacts (auditJson deskUid audit) deskUid "T-0002" = .ok facts ∧
      projectCheckpointFacts (auditJson deskUid audit') deskUid "T-0002" = .ok facts' ∧ facts ≠ facts' := by
  have hordinal : deskOrdinal [deskEntry "T-0001" "measure", deskEntry "T-0002" "paint"] = some 1 := by decide +kernel
  have hordinal' : deskOrdinal [deskEntry "T-0002" "paint"] = some 0 := by decide +kernel
  obtain ⟨audit, facts, haudit, hfacts, hprovenance⟩ := deskOrdinal_eq_some hordinal
  obtain ⟨audit', facts', haudit', hfacts', hprovenance'⟩ := deskOrdinal_eq_some hordinal'
  refine ⟨audit, audit', facts, facts', haudit, haudit', hfacts, hfacts', ?_⟩
  intro hsame
  rw [hsame, hprovenance'] at hprovenance
  cases hprovenance

end WorkStack.Checkpoints
