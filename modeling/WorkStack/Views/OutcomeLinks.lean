import WorkStack.Effect.Updates
import WorkStack.Views.KeyResults

/-!
# Tasks of key results

The nodes have different keys, so a change under a key is a change of one node, and the links of all Tasks are made
node by node. A node is linked, in the order of the Tasks, to those that refer to its key result and are aligned with
its objective.
-/

open WorkStack.Effect.Updates

namespace WorkStack.Views.Outcomes

/-! ## Changes under a key -/

section Changes

variable {change : Node → Node} {key : String} {node : Node} {nodes : List Node}

/-- A change of a node that has a key. -/
def changeAt (change : Node → Node) (key : String) (node : Node) : Node :=
  if node.key = key then change node else node

theorem updateByKey_eq_map (h : (nodes.map Node.key).Nodup) :
    updateByKey key change nodes = nodes.map (changeAt change key) := by
  induction nodes with
  | nil => rfl
  | cons node nodes ih =>
      rw [List.map_cons, List.nodup_cons] at h
      have hothers : ∀ other ∈ nodes, other.key ≠ node.key := by
        intro other hother heq
        apply h.1
        rw [← heq]
        exact List.mem_map_of_mem hother
      rw [updateByKey, List.map_cons, changeAt]
      by_cases hkey : node.key = key
      · have hrest : nodes.map (changeAt change key) = nodes := by
          calc nodes.map (changeAt change key) = nodes.map id := by
                apply List.map_congr_left
                intro other hother
                rw [changeAt, if_neg (hkey ▸ hothers other hother), id]
            _ = nodes := List.map_id nodes
        rw [if_pos ⟨hkey, hkey ▸ hothers⟩, if_pos hkey, hrest]
      · rw [if_neg fun h ↦ hkey h.1, if_neg hkey, ih h.2]

variable (hkey : ∀ node, (change node).key = node.key)

include hkey in
theorem key_changeAt : (changeAt change key node).key = node.key := by
  rw [changeAt]
  split
  · exact hkey node
  · rfl

include hkey in
/-- Changes under several keys are changes of every node. -/
theorem foldl_updateByKey (keys : List String) (h : (nodes.map Node.key).Nodup) :
    keys.foldl (fun nodes key ↦ updateByKey key change nodes) nodes = nodes.map (applyAll (changeAt change) keys) := by
  induction keys generalizing nodes with
  | nil => exact (List.map_id nodes).symm
  | cons key keys ih =>
      have hkeys : (nodes.map (changeAt change key)).map Node.key = nodes.map Node.key := by
        rw [List.map_map]
        apply List.map_congr_left
        intro node _
        exact key_changeAt hkey
      rw [List.foldl_cons, updateByKey_eq_map h, ih (hkeys ▸ h), List.map_map]
      rfl

include hkey in
/-- A change that is made once for all is made where the key of a node is listed. -/
theorem applyAll_changeAt (hidem : ∀ node, change (change node) = change node) (keys : List String) (node : Node) :
    applyAll (changeAt change) keys node = if node.key ∈ keys then change node else node := by
  induction keys generalizing node with
  | nil => rfl
  | cons key keys ih =>
      rw [applyAll_cons, ih, key_changeAt hkey, changeAt]
      by_cases h : node.key = key
      · have hlisted : node.key ∈ key :: keys := by
          rw [h]
          exact List.mem_cons_self ..
        rw [if_pos h, if_pos hlisted, hidem, ite_self]
      · simp [h]

end Changes

/-! ## Links -/

variable {workspaceId : String} {groups : List (String × List Objective)} {objectives : List Objective}
  {visibleIds : List String} {task : Task} {tasks : List Task} {node : Node}

theorem key_linkTask (visibleIds : List String) (task : Task) (node : Node) :
    (linkTask visibleIds task node).key = node.key := by
  rw [linkTask]
  split
  · rfl
  · dsimp only
    split <;> rfl

theorem subject_linkTask (visibleIds : List String) (task : Task) (node : Node) :
    (linkTask visibleIds task node).subject = node.subject := by
  rw [linkTask]
  split
  · rfl
  · dsimp only
    split <;> rfl

theorem linkedTaskIds_linkTask (h : task.id ∉ node.linkedTaskIds) :
    (linkTask visibleIds task node).linkedTaskIds = node.linkedTaskIds ++ [task.id] := by
  rw [linkTask, if_neg (by simpa using h)]
  dsimp only
  split <;> rfl

theorem mem_linkedTaskIds_linkTask : task.id ∈ (linkTask visibleIds task node).linkedTaskIds := by
  by_cases h : task.id ∈ node.linkedTaskIds
  · rw [linkTask, if_pos (by simpa using h)]
    exact h
  · rw [linkedTaskIds_linkTask h]
    simp

theorem linkTask_linkTask (visibleIds : List String) (task : Task) (node : Node) :
    linkTask visibleIds task (linkTask visibleIds task node) = linkTask visibleIds task node := by
  have hmem := @mem_linkedTaskIds_linkTask visibleIds task node
  rw [linkTask.eq_1 visibleIds task (linkTask visibleIds task node), if_pos (by simpa using hmem)]

theorem total_countTask (counts : Counts) (status : String) : (countTask counts status).total = counts.total + 1 := by
  unfold countTask
  split <;> rfl

/-- A node counts the Tasks that it is linked to. -/
theorem total_linkTask (h : node.counts.total = node.linkedTaskIds.length) :
    (linkTask visibleIds task node).counts.total = (linkTask visibleIds task node).linkedTaskIds.length := by
  rw [linkTask]
  split
  · exact h
  · dsimp only
    split
    · rw [total_countTask, h, List.length_append]
      rfl
    · rw [total_countTask, h, List.length_append]
      rfl

/-- What a Task makes of a node. -/
def linkResolved (workspaceId : String) (groups : List (String × List Objective)) (visibleIds : List String)
    (task : Task) (node : Node) : Node :=
  if node.key ∈ (projectTask workspaceId groups task).resolvedKeys then linkTask visibleIds task node else node

theorem key_linkResolved (task : Task) (node : Node) :
    (linkResolved workspaceId groups visibleIds task node).key = node.key := by
  rw [linkResolved]
  split
  · exact key_linkTask visibleIds task node
  · rfl

theorem subject_linkResolved (task : Task) (node : Node) :
    (linkResolved workspaceId groups visibleIds task node).subject = node.subject := by
  rw [linkResolved]
  split
  · exact subject_linkTask visibleIds task node
  · rfl

/-- The nodes of a projection, node by node. -/
theorem keyResults_projectKeyResults (input : Input) : (projectKeyResults input).keyResults =
    (buildNodes input.workspaceId (groupObjectives input.objectives)).map
      (applyAll (linkResolved input.workspaceId (groupObjectives input.objectives)
        ((input.visibleTasks.getD input.tasks).map Task.id)) input.tasks) := by
  let groups := groupObjectives input.objectives
  let visibleIds := (input.visibleTasks.getD input.tasks).map Task.id
  have hfold (tasks : List Task) (nodes : List Node) (h : (nodes.map Node.key).Nodup) :
      tasks.foldl (fun nodes task ↦ (projectTask input.workspaceId groups task).resolvedKeys.foldl
        (fun nodes key ↦ updateByKey key (linkTask visibleIds task) nodes) nodes) nodes =
          nodes.map (applyAll (linkResolved input.workspaceId groups visibleIds) tasks) := by
    induction tasks generalizing nodes with
    | nil => exact (List.map_id nodes).symm
    | cons task tasks ih =>
        have hone : (projectTask input.workspaceId groups task).resolvedKeys.foldl
            (fun nodes key ↦ updateByKey key (linkTask visibleIds task) nodes) nodes =
              nodes.map (linkResolved input.workspaceId groups visibleIds task) := by
          rw [foldl_updateByKey (key_linkTask visibleIds task) _ h]
          apply List.map_congr_left
          intro node _
          exact applyAll_changeAt (key_linkTask visibleIds task) (linkTask_linkTask visibleIds task) _ node
        have hkeys : (nodes.map (linkResolved input.workspaceId groups visibleIds task)).map Node.key =
            nodes.map Node.key := by
          rw [List.map_map]
          apply List.map_congr_left
          intro node _
          exact key_linkResolved task node
        rw [List.foldl_cons, hone, ih _ (hkeys ▸ h), List.map_map]
        rfl
  exact hfold input.tasks _ nodup_keys

/-- The Tasks of a node, in the order of the Tasks. -/
theorem linkedTaskIds_applyAll (hids : (tasks.map Task.id).Nodup)
    (hnew : ∀ task ∈ tasks, task.id ∉ node.linkedTaskIds) :
    (applyAll (linkResolved workspaceId groups visibleIds) tasks node).linkedTaskIds = node.linkedTaskIds ++
      (tasks.filter fun task ↦ node.key ∈ (projectTask workspaceId groups task).resolvedKeys).map Task.id := by
  induction tasks generalizing node with
  | nil => simp
  | cons task tasks ih =>
      obtain ⟨htask, htasks⟩ := List.forall_mem_cons.mp hnew
      rw [List.map_cons, List.nodup_cons] at hids
      have hothers : ∀ other ∈ tasks, other.id ≠ task.id := by
        intro other hother heq
        apply hids.1
        rw [← heq]
        exact List.mem_map_of_mem hother
      by_cases h : node.key ∈ (projectTask workspaceId groups task).resolvedKeys
      · rw [applyAll_cons, linkResolved, if_pos h, ih hids.2, key_linkTask, linkedTaskIds_linkTask htask,
          List.filter_cons_of_pos (by simpa using h), List.append_assoc, List.map_cons, List.singleton_append]
        intro other hother
        rw [linkedTaskIds_linkTask htask, List.mem_append, List.mem_singleton]
        exact not_or.mpr ⟨htasks other hother, hothers other hother⟩
      · rw [applyAll_cons, linkResolved, if_neg h, ih hids.2 htasks, List.filter_cons_of_neg (by simpa using h)]

theorem total_applyAll (h : node.counts.total = node.linkedTaskIds.length) :
    (applyAll (linkResolved workspaceId groups visibleIds) tasks node).counts.total =
      (applyAll (linkResolved workspaceId groups visibleIds) tasks node).linkedTaskIds.length := by
  induction tasks generalizing node with
  | nil => exact h
  | cons task tasks ih =>
      have hone : (linkResolved workspaceId groups visibleIds task node).counts.total =
          (linkResolved workspaceId groups visibleIds task node).linkedTaskIds.length := by
        rw [linkResolved]
        split
        · exact total_linkTask h
        · exact h
      exact ih hone

theorem key_applyAll : (applyAll (linkResolved workspaceId groups visibleIds) tasks node).key = node.key :=
  applyAll_kept key_linkResolved tasks node

theorem subject_applyAll :
    (applyAll (linkResolved workspaceId groups visibleIds) tasks node).subject = node.subject :=
  applyAll_kept subject_linkResolved tasks node

/-! ## Resolved references -/

/-- What a reference is resolved to. -/
theorem key?_resolveRef {aligned : List String} {ref : KeyResultRef} {key : String} :
    (resolveRef workspaceId (groupObjectives objectives) aligned ref).key? = some key ↔
      ref.objectiveId ∈ aligned ∧ ∃ objective, objectivesNamed objectives ref.objectiveId = [objective] ∧
        (keyResultsNamed objective ref.keyResultId).length = 1 ∧
          keyResultKey workspaceId ref.objectiveId ref.keyResultId = key := by
  rw [resolveRef, lookup_groupObjectives]
  by_cases haligned : ref.objectiveId ∈ aligned
  · rw [if_neg (by simpa using haligned)]
    match h : objectivesNamed objectives ref.objectiveId with
    | [] => simp [Resolution.key?]
    | [objective] =>
        match hnamed : keyResultsNamed objective ref.keyResultId with
        | [] => simp [Resolution.key?, hnamed]
        | [_] => simp [Resolution.key?, hnamed, haligned]
        | _ :: _ :: _ => simp [Resolution.key?, hnamed]
    | _ :: _ :: _ => simp [Resolution.key?]
  · rw [if_pos (by simpa using haligned)]
    simp [Resolution.key?, haligned]

/-- A Task resolves to the key of a node where it refers to the key result and is aligned with the objective. -/
theorem key_mem_resolvedKeys (h : node ∈ buildNodes workspaceId (groupObjectives objectives)) :
    node.key ∈ (projectTask workspaceId (groupObjectives objectives) task).resolvedKeys ↔
      node.objectiveId ∈ task.objectiveIds ∧ ⟨node.objectiveId, node.keyResultId⟩ ∈ task.keyResultRefs := by
  obtain ⟨objective, keyResult, hnamed, -, hone, rfl⟩ := mem_buildNodes.mp h
  simp only [projectTask, List.mem_filterMap, List.mem_map, exists_exists_and_eq_and, key?_resolveRef]
  constructor
  · rintro ⟨ref, href, haligned, -, -, -, hkey⟩
    obtain ⟨hobjective, hkeyResult⟩ := keyResultKey_inj hkey
    dsimp only [nodeOf]
    rw [← hobjective, ← hkeyResult]
    exact ⟨haligned, href⟩
  · rintro ⟨haligned, href⟩
    exact ⟨_, href, haligned, objective, hnamed, hone, rfl⟩

end WorkStack.Views.Outcomes
