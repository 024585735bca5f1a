import WorkStack.Checkpoints.Active
import WorkStack.Checkpoints.Facts

/-!
# The row that is selected

The rows that are bound to a task are told apart by their places, a day and a slot within it, and the one
that is selected is the one with the largest place. So a selection does not depend on the order of an audit,
nor on the rows of any other task, as long as the rows of the task keep their places.
-/

open WorkStack.Python WorkStack.Python.Decoding WorkStack.Effect.Refusing

namespace WorkStack.Checkpoints

/-! ## The largest element of a list -/

/-- Where its elements are told apart by their values, the largest of a list does not depend on its order. -/
theorem argmax_perm {α β : Type} [LinearOrder β] {f : α → β} {values values' : List α} (h : values.Perm values')
    (hnodup : (values.map f).Nodup) : values.argmax f = values'.argmax f := by
  cases hmax : values.argmax f with
  | none =>
      rw [List.argmax_eq_none] at hmax
      rw [hmax] at h
      rw [h.symm.eq_nil]
      rfl
  | some m =>
      cases hmax' : values'.argmax f with
      | none =>
          rw [List.argmax_eq_none] at hmax'
          rw [hmax'] at h
          rw [h.eq_nil] at hmax
          cases hmax
      | some m' =>
          have hm : m ∈ values := List.argmax_mem hmax
          have hm' : m' ∈ values := h.mem_iff.mpr (List.argmax_mem hmax')
          have hle : f m ≤ f m' := List.le_of_mem_argmax (h.mem_iff.mp hm) hmax'
          have hge : f m' ≤ f m := List.le_of_mem_argmax hm' hmax
          rw [List.inj_on_of_nodup_map hnodup hm hm' (le_antisymm hle hge)]

/-! ## Rows that are bound to a task -/

/-- The place of a candidate: its day, and its slot within the day. -/
def place (candidate : AuditRow × Binding) : String ×ₗ ℤ :=
  toLex (candidate.1.locator.date, candidate.1.locator.ordinal)

/-- A row with what binds it to the workspace and the task, if it is in this state. -/
def boundRow (workspaceUid taskId : String) (state : CheckpointState) (row : AuditRow) : Option (AuditRow × Binding) :=
  if row.locator.workspaceUid = workspaceUid ∧ row.state = state then (binding row taskId).map (Prod.mk row) else none

/-- The rows of a state that are bound to the workspace and the task. -/
def boundRows (workspaceUid taskId : String) (state : CheckpointState) (rows : List AuditRow) :
    List (AuditRow × Binding) :=
  rows.filterMap (boundRow workspaceUid taskId state)

theorem isLater_eq (candidate incumbent : AuditRow × Binding) :
    isLater candidate.1 incumbent.1 = decide (place incumbent < place candidate) := by
  unfold isLater place
  rw [Bool.eq_iff_iff, decide_eq_true_eq, Prod.Lex.toLex_lt_toLex]
  split
  · next hne => simp [Ne.symm hne]
  · next heq =>
      rw [ne_eq, not_not] at heq
      simp [heq]

/-- What is selected is the largest, by the place, of the active rows that are bound to the task. -/
theorem collect_eq (workspaceUid taskId : String) (rows : List AuditRow) :
    collect workspaceUid taskId rows =
      ⟨(boundRows workspaceUid taskId .active rows).argmax place, (boundRows workspaceUid taskId .active rows).length,
        (boundRows workspaceUid taskId .superseded rows).length⟩ := by
  unfold collect
  induction rows using List.reverseRecOn with
  | nil => rfl
  | append_singleton rows row ih =>
      rw [List.foldl_concat, ih]
      simp only [boundRows, List.filterMap_append, List.filterMap_cons, List.filterMap_nil]
      by_cases huid : row.locator.workspaceUid = workspaceUid
      · cases hbinding : binding row taskId with
        | none => simp [Records.add, boundRow, huid, hbinding]
        | some bound =>
            cases hstate : row.state with
            | superseded => simp [Records.add, boundRow, huid, hbinding, hstate]
            | active =>
                simp only [Records.add, boundRow, huid, hbinding, hstate, ne_eq, not_true_eq_false, if_false, if_true, Option.map_some, reduceCtorEq, and_false, List.append_nil, List.length_append,
                  List.length_singleton, List.argmax_concat, Records.mk.injEq, and_true]
                cases List.argmax place (List.filterMap (boundRow workspaceUid taskId .active) rows) with
                | none => rfl
                | some incumbent =>
                    have hlater := isLater_eq (row, bound) incumbent
                    simp only at hlater
                    simp only [laterOf, hlater, decide_eq_true_eq]
                    split <;> rfl
      · simp [Records.add, boundRow, huid]

/-! ## Audits -/

/-- What the facts present of the row that is selected. -/
def Facts.Presents (facts : Facts) (row : AuditRow) (bound : Binding) : Prop :=
  let summary := summarizeEntry row.entry
  facts.provenance = some (provenanceOf row bound summary) ∧
    (facts.done, facts.next, facts.blockers) =
      if summary.readable then (summary.done, summary.next, summary.blockers) else ([], [], [])

theorem select_presents {workspaceUid taskId : String} {records : Records} {row : AuditRow} {bound : Binding}
    (h : records.latest = some (row, bound)) : (select workspaceUid taskId records).Presents row bound := by
  simp only [select, h, Facts.Presents]
  cases (summarizeEntry row.entry).readable with
  | false => exact ⟨rfl, rfl⟩
  | true => exact ⟨rfl, rfl⟩

/-- The facts are those of the row with the largest place, or there is no row. -/
def SelectsLatest (rows : List (AuditRow × Binding)) (facts : Facts) : Prop :=
  (rows = [] ∧ facts.provenance = none) ∨
    ∃ selected ∈ rows, (∀ other ∈ rows, place other ≤ place selected) ∧ facts.Presents selected.1 selected.2

theorem selectsLatest (workspaceUid taskId : String) (rows : List AuditRow) :
    SelectsLatest (boundRows workspaceUid taskId .active rows)
      (select workspaceUid taskId (collect workspaceUid taskId rows)) := by
  rw [collect_eq]
  cases hmax : (boundRows workspaceUid taskId .active rows).argmax place with
  | none => exact .inl ⟨List.argmax_eq_none.mp hmax, rfl⟩
  | some selected =>
      refine .inr ⟨selected, List.argmax_mem hmax, fun other hmem ↦ List.le_of_mem_argmax hmem hmax, ?_⟩
      exact select_presents rfl

theorem projectCheckpointFacts_eq_ok {audit : Json} {workspaceUid taskId : String} {facts : Facts} :
    projectCheckpointFacts audit workspaceUid taskId = .ok facts ↔
      validateCheckpointRequest workspaceUid taskId = .ok () ∧ ∃ rows, auditRows workspaceUid audit = some rows ∧
        select workspaceUid taskId (collect workspaceUid taskId rows) = facts := by
  simp only [projectCheckpointFacts, bind_eq_ok, pure_eq_ok]
  constructor
  · rintro ⟨done, hrequest, rows, hrows, hselect⟩
    refine ⟨hrequest, rows, ?_, hselect⟩
    cases hread : auditRows workspaceUid audit with
    | none =>
        rw [hread] at hrows
        cases hrows
    | some rows' =>
        rw [hread] at hrows
        cases hrows
        rfl
  · rintro ⟨hrequest, rows, hrows, hselect⟩
    exact ⟨(), hrequest, rows, by rw [hrows]; rfl, hselect⟩

/-- Audits whose rows of the task are the same, each in its place, come to the same facts. -/
theorem projectCheckpointFacts_congr {audit audit' : Json} {workspaceUid taskId : String} {rows rows' : List AuditRow}
    (hrows : auditRows workspaceUid audit = some rows) (hrows' : auditRows workspaceUid audit' = some rows')
    (hperm : ∀ state, (boundRows workspaceUid taskId state rows).Perm (boundRows workspaceUid taskId state rows'))
    (hplaces : ((boundRows workspaceUid taskId .active rows).map place).Nodup) :
    projectCheckpointFacts audit workspaceUid taskId = projectCheckpointFacts audit' workspaceUid taskId := by
  have hcollect : collect workspaceUid taskId rows = collect workspaceUid taskId rows' := by
    rw [collect_eq, collect_eq, argmax_perm (hperm .active) hplaces, (hperm .active).length_eq,
      (hperm .superseded).length_eq]
  unfold projectCheckpointFacts
  rw [hrows, hrows']
  simp only [Option.elim_some]
  change _ >>= (fun _ ↦ Except.ok _) = _ >>= (fun _ ↦ Except.ok _)
  rw [hcollect]

/-- An audit with these entries. -/
def withEntries (entries : List Json) (fields : Fields) : Json := .obj (Dict.set "entries" (.arr entries) fields)

/-- Entries whose rows are in distinct slots of their workspaces. -/
def DistinctSlots (entries : List Json) : Prop :=
  ((entries.filterMap readAuditRow).map fun row ↦
    (row.locator.workspaceUid, row.locator.date, row.locator.ordinal)).Nodup

theorem places_nodup {rows : List AuditRow} (workspaceUid taskId : String) (state : CheckpointState)
    (h : (rows.map fun row ↦ (row.locator.workspaceUid, row.locator.date, row.locator.ordinal)).Nodup) :
    ((boundRows workspaceUid taskId state rows).map place).Nodup := by
  have hrows := h.of_map
  rw [List.nodup_map_iff_inj_on]
  · intro candidate hcandidate other hother hplace
    simp only [boundRows, boundRow, List.mem_filterMap, Option.ite_none_right_eq_some, Option.map_eq_some_iff]
      at hcandidate hother
    obtain ⟨row, hrow, ⟨huid, -⟩, bound, hbound, rfl⟩ := hcandidate
    obtain ⟨row', hrow', ⟨huid', -⟩, bound', hbound', rfl⟩ := hother
    have hslot : (row.locator.date, row.locator.ordinal) = (row'.locator.date, row'.locator.ordinal) :=
      toLex.injective hplace
    have hsame : row = row' := by
      apply List.inj_on_of_nodup_map h hrow hrow'
      simp only [huid, huid', hslot]
    subst hsame
    rw [hbound] at hbound'
    rw [Option.some.inj hbound']
  · apply List.Nodup.filterMap _ hrows
    intro row row' candidate hmem hmem'
    simp only [boundRow, Option.mem_def, Option.ite_none_right_eq_some, Option.map_eq_some_iff] at hmem hmem'
    obtain ⟨-, bound, -, rfl⟩ := hmem
    obtain ⟨-, bound', -, heq⟩ := hmem'
    exact (congrArg Prod.fst heq).symm

theorem auditRows_withEntries (workspaceUid : String) (entries : List Json) (fields : Fields) :
    auditRows workspaceUid (withEntries entries fields) =
      if isText workspaceUid (item fields "workspace_uid") then readAll readAuditRow entries else none := by
  have hentries : item (Dict.set "entries" (.arr entries) fields) "entries" = .arr entries := by
    rw [item, Dict.get_set_self]
    rfl
  have huid : item (Dict.set "entries" (.arr entries) fields) "workspace_uid" = item fields "workspace_uid" := by
    rw [item, Dict.get_set_of_ne fields (by decide)]
    rfl
  simp only [auditRows, withEntries, hentries, huid]
  cases isText workspaceUid (item fields "workspace_uid") <;> rfl

/-- An audit comes to the same facts, or is refused alike, in whatever order its entries are. -/
theorem projectCheckpointFacts_perm {entries entries' : List Json} (h : entries.Perm entries')
    (hslots : DistinctSlots entries) (fields : Fields) (workspaceUid taskId : String) :
    projectCheckpointFacts (withEntries entries fields) workspaceUid taskId =
      projectCheckpointFacts (withEntries entries' fields) workspaceUid taskId := by
  have hrefused (hnone : auditRows workspaceUid (withEntries entries fields) = none)
      (hnone' : auditRows workspaceUid (withEntries entries' fields) = none) :
      projectCheckpointFacts (withEntries entries fields) workspaceUid taskId =
        projectCheckpointFacts (withEntries entries' fields) workspaceUid taskId := by
    unfold projectCheckpointFacts
    rw [hnone, hnone']
  by_cases huid : isText workspaceUid (item fields "workspace_uid") = true
  · have hread (entries : List Json) :
        auditRows workspaceUid (withEntries entries fields) = readAll readAuditRow entries := by
      rw [auditRows_withEntries, if_pos huid]
    rcases @readAll_perm _ _ readAuditRow _ _ h with ⟨hnone, hnone'⟩ | ⟨rows, rows', hrows, hrows', hperm⟩
    · exact hrefused (by rw [hread, hnone]) (by rw [hread, hnone'])
    · refine projectCheckpointFacts_congr (by rw [hread, hrows]) (by rw [hread, hrows'])
        (fun state ↦ hperm.filterMap _) ?_
      apply places_nodup
      rw [← (readAll_eq_some.mp hrows).2]
      exact hslots
  · exact hrefused (by rw [auditRows_withEntries, if_neg huid]) (by rw [auditRows_withEntries, if_neg huid])

end WorkStack.Checkpoints
