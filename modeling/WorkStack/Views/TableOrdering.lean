import WorkStack.Effect.Slots
import WorkStack.Views.WorkspaceTasks

/-!
# The manual order of the table

The order of the Tasks is stored as a list of ids. Ids that are gone are dropped from it and new ones are appended, and
a reordering of the Tasks that a filter shows replaces their places and no other.
-/

open WorkStack.Effect.Slots

namespace WorkStack.Views

def tableOrderCap : ℕ := 10000

/-- `normalizeStoredOrder` -/
def normalizeStoredOrder (stored canonicalIds : List String) : List String :=
  collect (fun _ ↦ true) (collect canonicalIds.contains [] stored) canonicalIds

/-- `applyVisibleReorder` -/
def applyVisibleReorder (stored canonicalIds visibleIds nextVisibleIds : List String) : List String :=
  refill visibleIds.contains nextVisibleIds (normalizeStoredOrder stored canonicalIds)

/-- `normalizeTableOrder` -/
def normalizeTableOrder (stored canonicalIds : List String) : List String :=
  (normalizeStoredOrder stored canonicalIds).take tableOrderCap

/-- `projectVisibleTableOrder` -/
def projectVisibleTableOrder (stored canonicalIds visibleIds : List String) : List String :=
  (normalizeTableOrder stored canonicalIds).filter visibleIds.contains

/-- `sameIdSet` -/
def sameIdSet (left right : List String) : Bool := left.length == right.length && right.all left.contains

/-- `reorderTableVisible` -/
def reorderTableVisible (stored canonicalIds visibleIds nextVisibleIds : List String) : List String :=
  if sameIdSet visibleIds nextVisibleIds then
    (applyVisibleReorder stored canonicalIds visibleIds nextVisibleIds).take tableOrderCap
  else normalizeTableOrder stored canonicalIds

/-- The first loop of `orderTasksManually`: the Tasks of a list of ids, each at its first place. -/
def tasksInOrder (tasks : List WorkspaceTask) (ids : List String) : List WorkspaceTask :=
  (collect (fun id ↦ (byId tasks id).isSome) [] ids).filterMap (byId tasks)

/-- `orderTasksManually` -/
def orderTasksManually (tasks : List WorkspaceTask) (stored canonicalIds : List String) : List WorkspaceTask :=
  let ordered := tasksInOrder tasks (projectVisibleTableOrder stored canonicalIds (tasks.map WorkspaceTask.id))
  ordered ++ tasks.filter fun task ↦ !(ordered.map WorkspaceTask.id).contains task.id

/-! ## Normalized orders -/

variable {stored canonicalIds visibleIds nextVisibleIds : List String}

/-- A normalized order holds the ids there are, each once. -/
theorem normalizeStoredOrder_perm (hcanonical : canonicalIds.Nodup) :
    (normalizeStoredOrder stored canonicalIds).Perm canonicalIds := by
  have hnodup : (normalizeStoredOrder stored canonicalIds).Nodup := nodup_collect (nodup_collect List.nodup_nil)
  rw [List.perm_ext_iff_of_nodup hnodup hcanonical]
  intro id
  simp only [normalizeStoredOrder, mem_collect, List.not_mem_nil, false_or, List.contains_iff_mem, and_true]
  constructor
  · rintro (⟨-, hid⟩ | hid)
    · exact hid
    · exact hid
  · exact .inr

/-- An order of the ids there are is normalized. -/
theorem normalizeStoredOrder_of_perm (hcanonical : canonicalIds.Nodup) (h : stored.Perm canonicalIds) :
    normalizeStoredOrder stored canonicalIds = stored := by
  have hkept : collect canonicalIds.contains [] stored = stored := by
    have hallowed : ∀ id ∈ stored, canonicalIds.contains id = true :=
      fun id hid ↦ List.contains_iff_mem.mpr (h.mem_iff.mp hid)
    have hnodup : ([] ++ stored).Nodup := h.nodup_iff.mpr hcanonical
    rw [collect_of_nodup hallowed hnodup, List.nil_append]
  rw [normalizeStoredOrder, hkept, collect_of_subset]
  exact fun id hid ↦ h.mem_iff.mpr hid

theorem take_tableOrderCap {ids : List String} (h : ids.Perm canonicalIds) (hcap : canonicalIds.length ≤ tableOrderCap) :
    ids.take tableOrderCap = ids :=
  List.take_of_length_le (h.length_eq.trans_le hcap)

/-- The places of visible Tasks in an order. -/
theorem filter_visible_perm {ids : List String} (h : ids.Perm canonicalIds) (hcanonical : canonicalIds.Nodup)
    (hvisible : visibleIds.Nodup) (hsubset : ∀ id ∈ visibleIds, id ∈ canonicalIds) :
    (ids.filter visibleIds.contains).Perm visibleIds := by
  have hnodup : (ids.filter visibleIds.contains).Nodup := (h.nodup_iff.mpr hcanonical).filter _
  rw [List.perm_ext_iff_of_nodup hnodup hvisible]
  intro id
  rw [List.mem_filter, List.contains_iff_mem]
  constructor
  · exact And.right
  · exact fun hid ↦ ⟨h.mem_iff.mpr (hsubset id hid), hid⟩

/-! ## Reordered tables -/

/-- What a reordering is for: no id is lost, ids that are hidden stay where they are, and ids that are visible come in
the order that was asked for, in the list and among the Tasks. -/
structure KeepsTasks (stored canonicalIds visibleIds nextVisibleIds : List String) : Prop where
  perm : (reorderTableVisible stored canonicalIds visibleIds nextVisibleIds).Perm canonicalIds
  hidden : ∀ (i : ℕ) (id : String), (normalizeTableOrder stored canonicalIds)[i]? = some id → id ∉ visibleIds →
    (reorderTableVisible stored canonicalIds visibleIds nextVisibleIds)[i]? = some id
  projected : nextVisibleIds.Perm visibleIds →
    (reorderTableVisible stored canonicalIds visibleIds nextVisibleIds).filter visibleIds.contains = nextVisibleIds
  shown : nextVisibleIds.Perm visibleIds → ∀ tasks : List WorkspaceTask, (tasks.map WorkspaceTask.id).Perm visibleIds →
    (orderTasksManually tasks (reorderTableVisible stored canonicalIds visibleIds nextVisibleIds) canonicalIds).Perm tasks ∧
      (orderTasksManually tasks (reorderTableVisible stored canonicalIds visibleIds nextVisibleIds) canonicalIds).map
        WorkspaceTask.id = nextVisibleIds

/-- Tasks in the order of their own ids are these Tasks. -/
theorem tasksInOrder_of_perm {tasks : List WorkspaceTask} {ids : List String}
    (hdistinct : (tasks.map WorkspaceTask.id).Nodup) (h : ids.Perm (tasks.map WorkspaceTask.id)) :
    (tasksInOrder tasks ids).map WorkspaceTask.id = ids ∧ (tasksInOrder tasks ids).Perm tasks := by
  have hfound : ∀ id ∈ ids, ∃ task, byId tasks id = some task ∧ task ∈ tasks ∧ task.id = id := by
    intro id hid
    obtain ⟨task, htask, rfl⟩ := List.mem_map.mp (h.mem_iff.mp hid)
    exact ⟨task, (byId_eq_some hdistinct).mpr ⟨htask, rfl⟩, htask, rfl⟩
  have hcollect : collect (fun id ↦ (byId tasks id).isSome) [] ids = ids := by
    have hnodup : ([] ++ ids).Nodup := h.nodup_iff.mpr hdistinct
    rw [collect_of_nodup ?_ hnodup, List.nil_append]
    intro id hid
    obtain ⟨task, htask, -⟩ := hfound id hid
    rw [htask]
    rfl
  rw [tasksInOrder, hcollect]
  have hids : (ids.filterMap (byId tasks)).map WorkspaceTask.id = ids := by
    have hsome : ∀ id ∈ ids, ((byId tasks id).map WorkspaceTask.id) = some id := by
      intro id hid
      obtain ⟨task, htask, -, hid⟩ := hfound id hid
      rw [htask, Option.map_some, hid]
    rw [List.map_filterMap, List.filterMap_congr hsome, List.filterMap_some]
  refine ⟨hids, ?_⟩
  have hnodup : ((ids.filterMap (byId tasks)).map WorkspaceTask.id).Nodup := by
    rw [hids]
    exact h.nodup_iff.mpr hdistinct
  rw [List.perm_ext_iff_of_nodup hnodup.of_map hdistinct.of_map]
  intro task
  rw [List.mem_filterMap]
  constructor
  · rintro ⟨id, -, hid⟩
    exact ((byId_eq_some hdistinct).mp hid).1
  · intro htask
    exact ⟨task.id, h.mem_iff.mpr (List.mem_map_of_mem htask), (byId_eq_some hdistinct).mpr ⟨htask, rfl⟩⟩

/-- An order of the ids there are shows visible Tasks in the order it has for them. -/
theorem orderTasksManually_of_perm {tasks : List WorkspaceTask} (hcanonical : canonicalIds.Nodup)
    (hcap : canonicalIds.length ≤ tableOrderCap) (hstored : stored.Perm canonicalIds) (hvisible : visibleIds.Nodup)
    (hsubset : ∀ id ∈ visibleIds, id ∈ canonicalIds) (htasks : (tasks.map WorkspaceTask.id).Perm visibleIds) :
    (orderTasksManually tasks stored canonicalIds).Perm tasks ∧
      (orderTasksManually tasks stored canonicalIds).map WorkspaceTask.id = stored.filter visibleIds.contains := by
  have hdistinct : (tasks.map WorkspaceTask.id).Nodup := htasks.nodup_iff.mpr hvisible
  have hprojected : projectVisibleTableOrder stored canonicalIds (tasks.map WorkspaceTask.id) =
      stored.filter visibleIds.contains := by
    rw [projectVisibleTableOrder, normalizeTableOrder, normalizeStoredOrder_of_perm hcanonical hstored,
      take_tableOrderCap hstored hcap]
    refine List.filter_congr fun id _ ↦ ?_
    rw [Bool.eq_iff_iff, List.contains_iff_mem, List.contains_iff_mem]
    exact htasks.mem_iff
  have hperm := (filter_visible_perm hstored hcanonical hvisible hsubset).trans htasks.symm
  obtain ⟨hids, hordered⟩ := tasksInOrder_of_perm hdistinct hperm
  have hnone : (tasks.filter fun task ↦
      !((tasksInOrder tasks (stored.filter visibleIds.contains)).map WorkspaceTask.id).contains task.id) = [] := by
    rw [List.filter_eq_nil_iff]
    intro task htask
    have hmem := (hordered.map WorkspaceTask.id).mem_iff.mpr (List.mem_map_of_mem htask)
    simp only [List.contains_iff_mem.mpr hmem, Bool.not_true, Bool.false_eq_true, not_false_eq_true]
  simp only [orderTasksManually, hprojected, hnone, List.append_nil]
  exact ⟨hordered, hids⟩

/-! ## The guard -/

theorem sameIdSet_eq_true : sameIdSet visibleIds nextVisibleIds = true ↔
    visibleIds.length = nextVisibleIds.length ∧ ∀ id ∈ nextVisibleIds, id ∈ visibleIds := by
  simp [sameIdSet]

theorem reorderTableVisible_of_refused (h : sameIdSet visibleIds nextVisibleIds = false) :
    reorderTableVisible stored canonicalIds visibleIds nextVisibleIds = normalizeTableOrder stored canonicalIds := by
  rw [reorderTableVisible, h]
  rfl

section Reordered

variable (hcanonical : canonicalIds.Nodup) (hcap : canonicalIds.length ≤ tableOrderCap) (hvisible : visibleIds.Nodup)
  (hsubset : ∀ id ∈ visibleIds, id ∈ canonicalIds)
include hcanonical hcap

theorem normalizeTableOrder_perm : normalizeTableOrder stored canonicalIds = normalizeStoredOrder stored canonicalIds ∧
    (normalizeTableOrder stored canonicalIds).Perm canonicalIds := by
  have hperm := @normalizeStoredOrder_perm stored canonicalIds hcanonical
  have hall : normalizeTableOrder stored canonicalIds = normalizeStoredOrder stored canonicalIds :=
    take_tableOrderCap hperm hcap
  exact ⟨hall, hall ▸ hperm⟩

/-- A list that passes the guard takes the places of the visible Tasks. -/
theorem reorderTableVisible_of_passed (h : sameIdSet visibleIds nextVisibleIds = true) :
    reorderTableVisible stored canonicalIds visibleIds nextVisibleIds =
      refill visibleIds.contains nextVisibleIds (normalizeTableOrder stored canonicalIds) := by
  obtain ⟨hall, hperm⟩ := @normalizeTableOrder_perm stored canonicalIds hcanonical hcap
  rw [reorderTableVisible, if_pos h, applyVisibleReorder, ← hall, List.take_of_length_le]
  rw [length_refill, hperm.length_eq]
  exact hcap

include hvisible hsubset

theorem length_of_passed (h : sameIdSet visibleIds nextVisibleIds = true) : nextVisibleIds.length =
    ((normalizeTableOrder stored canonicalIds).filter visibleIds.contains).length := by
  obtain ⟨-, hperm⟩ := @normalizeTableOrder_perm stored canonicalIds hcanonical hcap
  rw [(filter_visible_perm hperm hcanonical hvisible hsubset).length_eq, (sameIdSet_eq_true.mp h).1]

theorem filter_reorderTableVisible (h : sameIdSet visibleIds nextVisibleIds = true) :
    (reorderTableVisible stored canonicalIds visibleIds nextVisibleIds).filter visibleIds.contains = nextVisibleIds := by
  rw [reorderTableVisible_of_passed hcanonical hcap h]
  exact filter_refill (length_of_passed hcanonical hcap hvisible hsubset h)
    fun id hid ↦ List.contains_iff_mem.mpr ((sameIdSet_eq_true.mp h).2 id hid)

theorem reorderTableVisible_perm (h : nextVisibleIds.Perm visibleIds) :
    (reorderTableVisible stored canonicalIds visibleIds nextVisibleIds).Perm canonicalIds := by
  have hpassed : sameIdSet visibleIds nextVisibleIds = true :=
    sameIdSet_eq_true.mpr ⟨h.length_eq.symm, fun id hid ↦ h.mem_iff.mp hid⟩
  obtain ⟨-, hperm⟩ := @normalizeTableOrder_perm stored canonicalIds hcanonical hcap
  have hplaces := filter_visible_perm hperm hcanonical hvisible hsubset
  rw [reorderTableVisible_of_passed hcanonical hcap hpassed]
  calc
    (refill visibleIds.contains nextVisibleIds (normalizeTableOrder stored canonicalIds)).Perm
        (nextVisibleIds ++ (normalizeTableOrder stored canonicalIds).filter fun id ↦ !visibleIds.contains id) :=
      refill_perm (length_of_passed hcanonical hcap hvisible hsubset hpassed)
    List.Perm _ ((normalizeTableOrder stored canonicalIds).filter visibleIds.contains ++
        (normalizeTableOrder stored canonicalIds).filter fun id ↦ !visibleIds.contains id) :=
      (h.trans hplaces.symm).append_right _
    List.Perm _ (normalizeTableOrder stored canonicalIds) := List.filter_append_perm _ _
    List.Perm _ canonicalIds := hperm

/-- For every stored list, all distinct ids of at most the cap, all distinct visible ids among them and every list that
is asked for: the reordering keeps the Tasks exactly where the list has another length than the visible ids, or names
an id that is not visible, or repeats no id. -/
theorem keepsTasks_iff : KeepsTasks stored canonicalIds visibleIds nextVisibleIds ↔
    nextVisibleIds.length ≠ visibleIds.length ∨ (∃ id ∈ nextVisibleIds, id ∉ visibleIds) ∨ nextVisibleIds.Nodup := by
  obtain ⟨-, hperm⟩ := @normalizeTableOrder_perm stored canonicalIds hcanonical hcap
  cases hguard : sameIdSet visibleIds nextVisibleIds with
  | true =>
      obtain ⟨hlength, hmem⟩ := sameIdSet_eq_true.mp hguard
      have hfilter := @filter_reorderTableVisible stored canonicalIds visibleIds nextVisibleIds hcanonical hcap hvisible
        hsubset hguard
      constructor
      · intro h
        right
        right
        rw [← hfilter]
        exact (h.perm.nodup_iff.mpr hcanonical).filter _
      · rintro (hother | ⟨id, hid, hnot⟩ | hnodup)
        · exact absurd hlength.symm hother
        · exact absurd (hmem id hid) hnot
        · have hsame : nextVisibleIds.Perm visibleIds :=
            (List.subperm_of_subset hnodup hmem).perm_of_length_le hlength.le
          have hresult := @reorderTableVisible_perm stored canonicalIds visibleIds nextVisibleIds hcanonical hcap hvisible
            hsubset hsame
          refine ⟨hresult, ?_, fun _ ↦ hfilter, ?_⟩
          · intro i id hid hhidden
            rw [reorderTableVisible_of_passed hcanonical hcap hguard]
            exact getElem?_refill hid (by simpa using hhidden)
          · intro _ tasks htasks
            obtain ⟨htasksPerm, hids⟩ := orderTasksManually_of_perm hcanonical hcap hresult hvisible hsubset htasks
            exact ⟨htasksPerm, hids.trans hfilter⟩
  | false =>
      have hrefused := @reorderTableVisible_of_refused stored canonicalIds visibleIds nextVisibleIds hguard
      have hnot : ¬nextVisibleIds.Perm visibleIds := by
        intro h
        rw [sameIdSet_eq_true.mpr ⟨h.length_eq.symm, fun id hid ↦ h.mem_iff.mp hid⟩] at hguard
        cases hguard
      constructor
      · intro _
        by_contra hother
        simp only [not_or, not_not, not_exists, not_and] at hother
        rw [sameIdSet_eq_true.mpr ⟨hother.1.symm, hother.2.1⟩] at hguard
        cases hguard
      · intro _
        refine ⟨?_, ?_, fun h ↦ absurd h hnot, fun h ↦ absurd h hnot⟩
        · rw [hrefused]
          exact hperm
        · intro i id hid _
          rw [hrefused]
          exact hid

end Reordered

/-- A list that repeats an id of two that are visible passes the guard, and the other one is lost. -/
theorem repeated_id_is_lost : reorderTableVisible [] ["T-0001", "T-0002"] ["T-0001", "T-0002"] ["T-0001", "T-0001"] =
      ["T-0001", "T-0001"] ∧
    ¬KeepsTasks [] ["T-0001", "T-0002"] ["T-0001", "T-0002"] ["T-0001", "T-0001"] := by
  have hlost : reorderTableVisible [] ["T-0001", "T-0002"] ["T-0001", "T-0002"] ["T-0001", "T-0001"] =
      ["T-0001", "T-0001"] := by decide
  refine ⟨hlost, ?_⟩
  intro h
  have hmem := h.perm.mem_iff (a := "T-0002")
  rw [hlost] at hmem
  simp at hmem

/-- Two visible Tasks change places around one that is hidden, in an order that is stored with an id that is gone. -/
theorem keepsTasks_around_hidden :
    KeepsTasks ["T-0003", "T-0009", "T-0002"] ["T-0001", "T-0002", "T-0003"] ["T-0001", "T-0003"] ["T-0001", "T-0003"] :=
  (keepsTasks_iff (by decide) (by decide) (by decide) (by decide)).mpr (.inr (.inr (by decide)))

end WorkStack.Views
