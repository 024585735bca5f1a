import WorkStack.Checkpoints.Projection

/-!
# The order of the activity

What a projection comes to does not depend on the order of the activity, as long as the transitions of each
checkpoint stay in theirs. Every check asks the same of every record, a row asks for the records of its own
slot, and a history for those of its own checkpoint.
-/

open WorkStack.Python WorkStack.Python.Decoding

namespace WorkStack.Checkpoints

/-! ## Results that agree -/

/-- Two results that fail alike, or whose values are related. -/
inductive Agree {α β : Type} (R : α → β → Prop) : Checked α → Checked β → Prop
  | error (code : Code) : Agree R (.error code) (.error code)
  | ok {a : α} {b : β} (h : R a b) : Agree R (.ok a) (.ok b)

theorem Agree.bind {α β α' β' : Type} {R : α → β → Prop} {S : α' → β' → Prop} {x : Checked α} {y : Checked β}
    {f : α → Checked α'} {g : β → Checked β'} (h : Agree R x y) (hnext : ∀ a b, R a b → Agree S (f a) (g b)) :
    Agree S (x >>= f) (y >>= g) := by
  cases h with
  | error code => exact .error code
  | ok h => exact hnext _ _ h

theorem agree_check {condition condition' : Bool} (h : condition = condition') (code : Code) :
    Agree (fun (_ : Unit) (_ : Unit) ↦ True) (check condition code) (check condition' code) := by
  rw [h]
  cases condition' with
  | true => exact .ok trivial
  | false => exact .error code

theorem Agree.eq {α : Type} {x y : Checked α} (h : Agree Eq x y) : x = y := by
  cases h with
  | error code => rfl
  | ok h => rw [h]

/-! ## Reading lists -/

section Reading

variable {α β : Type} {read : α → Option β}

theorem readAll_eq_some {values : List α} {results : List β} :
    readAll read values = some results ↔
      (∀ value ∈ values, (read value).isSome) ∧ values.filterMap read = results := by
  unfold readAll
  rw [← List.all_eq_true]
  split
  · next hall => simp [hall]
  · next hall => simp [hall]

/-- Values in another order are read in that order. -/
theorem readAll_perm {values values' : List α} (h : values.Perm values') :
    (readAll read values = none ∧ readAll read values' = none) ∨
      ∃ results results', readAll read values = some results ∧ readAll read values' = some results' ∧
        results.Perm results' := by
  have hall := h.all_eq (f := fun value ↦ (read value).isSome)
  unfold readAll
  rw [hall]
  split
  · exact .inr ⟨_, _, rfl, rfl, h.filterMap read⟩
  · exact .inl ⟨rfl, rfl⟩

/-- What is picked from the results was picked from the values. -/
theorem filter_filterMap_of_agree {values : List α} {p : α → Bool} {q : β → Bool}
    (h : ∀ value ∈ values, ∀ result, read value = some result → q result = p value) :
    (values.filterMap read).filter q = (values.filter p).filterMap read := by
  induction values with
  | nil => rfl
  | cons value values ih =>
      have hrest := ih fun other hmem ↦ h other (List.mem_cons_of_mem _ hmem)
      cases hread : read value with
      | none =>
          rw [List.filterMap_cons_none hread, hrest]
          by_cases hp : p value
          · rw [List.filter_cons_of_pos hp, List.filterMap_cons_none hread]
          · rw [List.filter_cons_of_neg hp]
      | some result =>
          have hq := h value (List.mem_cons_self ..) result hread
          rw [List.filterMap_cons_some hread]
          by_cases hp : p value
          · rw [List.filter_cons_of_pos (by rw [hq]; exact hp), List.filter_cons_of_pos hp,
              List.filterMap_cons_some hread, hrest]
          · rw [List.filter_cons_of_neg (by rw [hq]; exact hp), List.filter_cons_of_neg hp, hrest]

end Reading

/-! ## Contexts in another order -/

/-- Whether the details of a transition name a checkpoint. -/
def names (checkpointId : String) (details : Json) : Bool := isText checkpointId (detail "checkpoint_id" details)

variable {P : Platform}

theorem historyOf_read {transitions : List Json} {events : List TransitionEvent}
    (h : readAll (readEvent P) transitions = some events) (checkpointId : String) :
    historyOf events checkpointId = (transitions.filter (names checkpointId)).filterMap (readEvent P) := by
  obtain ⟨-, rfl⟩ := readAll_eq_some.mp h
  apply filter_filterMap_of_agree
  intro details _ event hread
  obtain ⟨fields, rfl, -, -, -, hcheckpoint, -⟩ := readEvent_eq_some hread
  simp only [names, detail, hcheckpoint, isText]

section Contexts

variable {α : Type}

/-- Rows and transitions in another order, where the histories are the same. -/
structure SameHistories (a b : List (Row α) × List TransitionEvent) : Prop where
  rows : a.1.Perm b.1
  events : a.2.Perm b.2
  histories : ∀ checkpointId, historyOf a.2 checkpointId = historyOf b.2 checkpointId

theorem SameHistories.transitions {a b : List (Row α) × List TransitionEvent} (h : SameHistories a b) (row : Row α) :
    row.transitions a.2 = row.transitions b.2 := by
  unfold Row.transitions
  cases row.checkpointId with
  | none => rfl
  | some checkpointId => exact h.histories checkpointId

/-- Contexts with the same entries and the same transitions, where those of each checkpoint are in one order. -/
structure Reordered (context context' : Context α) : Prop where
  uid : context.workspaceUid = context'.workspaceUid
  entries : context.entries.Perm context'.entries
  transitions : context.transitions.Perm context'.transitions
  ordered : ∀ checkpointId, context.transitions.filter (names checkpointId) =
    context'.transitions.filter (names checkpointId)

variable {context context' : Context α}

theorem readContext_agree (h : Reordered context context') :
    Agree SameHistories (orMalformed (readContext P context)) (orMalformed (readContext P context')) := by
  unfold readContext
  rw [h.uid]
  by_cases huid : P.isRfc4122Uuid context'.workspaceUid
  · simp only [huid, guard_true, Option.pure_def, Option.bind_eq_bind, Option.bind_some]
    rcases @readAll_perm _ _ (readWrapper P) _ _ h.entries with ⟨hnone, hnone'⟩ | ⟨rows, rows', hrows, hrows', hperm⟩
    · simp only [hnone, hnone', Option.bind_none]
      exact .error .malformed
    · rcases @readAll_perm _ _ (readEvent P) _ _ h.transitions with
        ⟨hnone, hnone'⟩ | ⟨events, events', hevents, hevents', hperm'⟩
      · simp only [hrows, hrows', hnone, hnone', Option.bind_some, Option.bind_none]
        exact .error .malformed
      · simp only [hrows, hrows', hevents, hevents', Option.bind_some]
        apply Agree.ok
        refine ⟨hperm, hperm', ?_⟩
        intro checkpointId
        rw [historyOf_read hevents, historyOf_read hevents', h.ordered]
  · simp only [huid, guard_false, Bool.false_eq_true]
    exact .error .malformed

theorem areUnique_perm {rows rows' : List (Row α)} (h : rows.Perm rows') : areUnique rows = areUnique rows' := by
  unfold areUnique
  rw [Bool.eq_iff_iff, decide_eq_true_eq, decide_eq_true_eq, (h.map Row.slot).nodup_iff,
    (h.filterMap Row.checkpointId).nodup_iff]

theorem areContiguous_agree {a b : List (Row α) × List TransitionEvent} (h : SameHistories a b) :
    areContiguous a.2 = areContiguous b.2 := by
  unfold areContiguous
  rw [h.events.all_eq]
  simp only [h.histories]

theorem bindsTransition_perm {rows rows' : List (Row α)} (h : rows.Perm rows') (uid : String) :
    bindsTransition uid rows = bindsTransition uid rows' := by
  funext event
  unfold bindsTransition
  rw [h.any_eq]

theorem wrappers_agree (h : Reordered context context') :
    Agree SameHistories (wrappers P context) (wrappers P context') := by
  unfold wrappers
  apply (readContext_agree h).bind
  rintro ⟨rows, events⟩ ⟨rows', events'⟩ hsame
  have hrows : rows.Perm rows' := hsame.rows
  have hevents : events.Perm events' := hsame.events
  simp only [h.uid, bindsTransition_perm hrows]
  refine (agree_check hrows.all_eq _).bind fun _ _ _ ↦ (agree_check hevents.all_eq _).bind fun _ _ _ ↦
    (agree_check (areUnique_perm hrows) _).bind fun _ _ _ ↦ (agree_check (areContiguous_agree hsame) _).bind
      fun _ _ _ ↦ .ok hsame

theorem buildAuditView_agree (h : Reordered context context') :
    Agree (fun _ _ ↦ True) (buildAuditView P context) (buildAuditView P context') := by
  unfold buildAuditView
  exact (wrappers_agree h).bind fun _ _ _ ↦ .ok trivial

theorem projectActiveEntries_agree (h : Reordered context context') :
    Agree List.Perm (projectActiveEntries P context) (projectActiveEntries P context') := by
  unfold projectActiveEntries
  apply (wrappers_agree h).bind
  rintro ⟨rows, events⟩ ⟨rows', events'⟩ hsame
  have htransitions := hsame.transitions
  apply Agree.ok
  simp only [htransitions]
  exact (hsame.rows.filter _).map _

end Contexts

/-! ## Documents in another order -/

/-- The records of an activity in another order, where the transitions of each checkpoint stay in theirs. -/
structure Reorders (activity activity' : Fields) : Prop where
  perm : (activityRecords activity).Perm (activityRecords activity')
  ordered : ∀ checkpointId, (recordedTransitions (recognizedRecords activity)).filter (names checkpointId) =
    (recordedTransitions (recognizedRecords activity')).filter (names checkpointId)

theorem forM_eq_check {α : Type} {f : α → Checked Unit} {values : List α} {code : Code}
    (h : ∀ value ∈ values, ∀ other, f value = .error other → other = code) :
    values.forM f = check (values.all fun value ↦ (f value).isOk) code := by
  induction values with
  | nil => rfl
  | cons value values ih =>
      have hrest := ih fun other hmem ↦ h other (List.mem_cons_of_mem _ hmem)
      change (f value >>= fun _ ↦ values.forM f) = _
      rw [hrest, List.all_cons]
      cases hvalue : f value with
      | error other =>
          rw [h value (List.mem_cons_self ..) other hvalue]
          rfl
      | ok done => rfl

theorem readLocator_eq_some {legacy : Bool} {uid taskId date ordinal digest : Json} {locator : Locator}
    (h : readLocator P legacy (locatorJson uid taskId date ordinal digest) = some locator) :
    uid = .str locator.workspaceUid ∧ P.isRfc4122Uuid locator.workspaceUid ∧
      optionalPattern legacy isTaskId taskId = some locator.taskId ∧ date = .str locator.date ∧
      isIsoDate locator.date ∧ ordinal = .int locator.ordinal ∧ 0 ≤ locator.ordinal ∧ locator.ordinal ≤ maxInteger ∧
      optionalPattern legacy isEntryDigest digest = some locator.entryDigest := by
  simp only [readLocator, locatorJson, Option.bind_eq_bind, Option.bind_eq_some_iff, Option.pure_def,
    Option.some.injEq, fieldsOf_eq_some, pattern_eq_some, intIn_eq_some, workspaceUid, calendarDate] at h
  obtain ⟨fields, ⟨hfields, -⟩, task, htask, digest', hdigest, uid', ⟨huid, hrfc⟩, date', ⟨hdate, hiso⟩, ordinal',
    ⟨hordinal, hlow, hhigh⟩, rfl⟩ := h
  cases hfields
  exact ⟨huid, hrfc, htask, hdate, hiso, hordinal, hlow, hhigh, hdigest⟩

theorem optionalPattern_known {accepts : String → Bool} {value : Json} {result : Option String}
    (h : optionalPattern false accepts value = some result) : ∃ known, result = some known ∧ value = .str known := by
  simp only [optionalPattern, Option.map_eq_some_iff, pattern_eq_some] at h
  obtain ⟨known, ⟨hvalue, -⟩, rfl⟩ := h
  exact ⟨known, rfl, hvalue⟩

/-- A fact is compared with itself, so nothing but its syntax can fail. -/
theorem validateFactSyntax_error {details : Fields} {code : Code} (h : validateFactSyntax P details = .error code) :
    code = .malformed := by
  unfold validateFactSyntax verifyLocator at h
  cases hread : (do
      let uid ← workspaceUid P (item details "workspace_uid")
      let checkpointId ← pattern isCheckpointId (item details "checkpoint_id")
      let recorded ← readRecorded P (.obj details)
      let actual ← readLocator P false (locatorJson (item details "workspace_uid") (item details "task_id")
        (item details "date") (item details "ordinal") (item details "entry_digest"))
      return (uid, checkpointId, recorded, actual) : Option (String × String × Recorded × Locator)) with
  | none =>
      rw [hread] at h
      cases h
      rfl
  | some values =>
      rw [hread] at h
      simp only [Option.bind_eq_bind, Option.bind_eq_some_iff, Option.pure_def, Option.some.injEq, workspaceUid,
        pattern_eq_some] at hread
      obtain ⟨uid, ⟨huid, -⟩, checkpointId, ⟨hcheckpoint, -⟩, recorded, hrecorded, actual, hactual, rfl⟩ := hread
      obtain ⟨fields, hfields, huid', htask', hcheckpoint', hdate', hordinal', hdigest'⟩ :=
        readRecorded_eq_some hrecorded
      cases hfields
      obtain ⟨hactualUid, -, hknownTask, hdate, -, hordinal, -, -, hknownDigest⟩ := readLocator_eq_some hactual
      obtain ⟨taskId, htaskId, htask⟩ := optionalPattern_known hknownTask
      obtain ⟨digest, hdigestId, hdigest⟩ := optionalPattern_known hknownDigest
      clear hknownTask hknownDigest
      have hlocator : recorded.locator = actual := by
        obtain ⟨actualUid, actualTask, actualDate, actualOrdinal, actualDigest⟩ := actual
        simp only at hactualUid hdate hordinal htaskId hdigestId
        rw [huid'] at hactualUid
        rw [hdate'] at hdate
        rw [hordinal'] at hordinal
        rw [htask'] at htask
        rw [hdigest'] at hdigest
        cases hactualUid
        cases hdate
        cases hordinal
        cases htask
        cases hdigest
        rw [htaskId, hdigestId]
        rfl
      rw [huid'] at huid
      rw [hcheckpoint'] at hcheckpoint
      cases huid
      cases hcheckpoint
      simp [orMalformed, check, hlocator] at h

theorem validateSyntax_error {uid : String} {record : String × Json} {code : Code}
    (h : validateSyntax P uid record = .error code) : code = .malformed := by
  obtain ⟨outer, details⟩ := record
  cases details with
  | obj fields =>
      simp only [validateSyntax] at h
      by_cases hcheck : (!fields.isEmpty && isText outer (item fields "type")) = true
      · rw [hcheck] at h
        change (if (outer == recordedType) = true then _ else _) = _ at h
        split at h
        · cases hfact : validateFactSyntax P fields with
          | error other =>
              rw [hfact] at h
              cases h
              exact validateFactSyntax_error hfact
          | ok locator =>
              rw [hfact] at h
              cases h
        · unfold validateEventSyntax at h
          split at h
          · cases h
            rfl
          · cases h
      · rw [Bool.not_eq_true] at hcheck
        rw [hcheck] at h
        cases h
        rfl
  | _ =>
      cases h
      rfl

theorem validateAll_eq (uid : String) (recognized : List (String × Json)) :
    recognized.forM (validateSyntax P uid) =
      check (recognized.all fun record ↦ (validateSyntax P uid record).isOk) .malformed :=
  forM_eq_check fun _ _ _ h ↦ validateSyntax_error h

theorem rowWrappers_perm {facts facts' : List Json} (h : facts.Perm facts') (uid : String) (row : PhysicalRow) :
    (rowWrappers P uid facts row).Perm (rowWrappers P uid facts' row) := by
  have hclaims : (claimsOf facts row).Perm (claimsOf facts' row) := h.filter _
  unfold rowWrappers
  apply List.Perm.map
  by_cases hempty : claimsOf facts row = []
  · rw [hempty] at hclaims
    rw [hempty, hclaims.nil_eq]
  · have hempty' : claimsOf facts' row ≠ [] := by
      intro hnil
      rw [hnil] at hclaims
      exact hempty hclaims.eq_nil
    simp only [List.isEmpty_iff, hempty, hempty', if_false]
    exact hclaims.map some

variable {activity activity' : Fields}

theorem Reorders.recognized (h : Reorders activity activity') :
    (recognizedRecords activity).Perm (recognizedRecords activity') := h.perm.filterMap recognize

theorem Reorders.facts (h : Reorders activity activity') :
    (recordedFacts (recognizedRecords activity)).Perm (recordedFacts (recognizedRecords activity')) :=
  (h.recognized.filter _).map _

theorem Reorders.representable (h : Reorders activity activity') (uid : String) (worklog : Worklog) :
    Reordered (representable P uid worklog (recognizedRecords activity))
      (representable P uid worklog (recognizedRecords activity')) where
  uid := rfl
  entries := List.Perm.flatMap_left _ fun row _ ↦ rowWrappers_perm h.facts uid row
  transitions := (h.recognized.filter _).map _
  ordered := h.ordered

theorem Reorders.orphans (h : Reorders activity activity') (rows : List PhysicalRow) :
    (orphansOf (recordedFacts (recognizedRecords activity)) rows).isEmpty =
      (orphansOf (recordedFacts (recognizedRecords activity')) rows).isEmpty := by
  have hperm : (orphansOf (recordedFacts (recognizedRecords activity)) rows).Perm
      (orphansOf (recordedFacts (recognizedRecords activity')) rows) := h.facts.filter _
  rw [Bool.eq_iff_iff, List.isEmpty_iff_length_eq_zero, List.isEmpty_iff_length_eq_zero, hperm.length_eq]

theorem buildProjectionContext_agree (h : Reorders activity activity') (uid : String) (worklog : Worklog) :
    Agree Reordered (buildProjectionContext P uid worklog activity)
      (buildProjectionContext P uid worklog activity') := by
  unfold buildProjectionContext
  simp only [validateAll_eq, h.orphans]
  refine (agree_check h.recognized.all_eq _).bind fun _ _ _ ↦ (agree_check rfl _).bind fun _ _ _ ↦
    (agree_check h.recognized.all_eq _).bind fun _ _ _ ↦ ?_
  have hcontext := h.representable (P := P) uid worklog
  split
  · exact (buildAuditView_agree hcontext).bind fun _ _ _ ↦ .error .historyInvalid
  · exact .ok hcontext

/-- The active worklog is the same whatever the order of the activity, and so is the refusal where there is one. -/
theorem activeWorklogDocument_reorders (h : Reorders activity activity') (uid : String) (worklog : Worklog)
    (addresses : Addresses worklog) :
    activeWorklogDocument P uid worklog addresses activity =
      activeWorklogDocument P uid worklog addresses activity' := by
  apply Agree.eq
  unfold activeWorklogDocument
  apply (buildProjectionContext_agree h uid worklog).bind
  intro context context' hcontext
  apply (projectActiveEntries_agree hcontext).bind
  intro active active' hperm
  apply Agree.ok
  congr 1
  funext date ordinal
  rw [Bool.eq_iff_iff, List.contains_iff_mem, List.contains_iff_mem, (hperm.map _).mem_iff]

end WorkStack.Checkpoints
