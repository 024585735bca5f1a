import WorkStack.Text.CodeUnits
import WorkStack.Views.OutcomeLinks

/-!
# The hierarchy of outcomes

Objectives that carry an id of their own show their key results, with the Tasks that are linked to each, and the Tasks
that are aligned with them and refer to no key result. Two more lists hold the Tasks that are aligned with nothing and
those with a reference that is not resolved.
-/

open WorkStack.Effect.Slots WorkStack.Effect.Updates WorkStack.Text.CodeUnits

namespace WorkStack.Views.Outcomes

/-- `OutcomeHierarchyKeyResultNode`; its `taskRefs` are the linked ids again. -/
structure HierarchyKeyResult where
  key : String
  objectiveId : String
  keyResultId : String
  recordedProgress : Option Json
  linkedTaskIds : List String
  visibleTaskIds : List String
  counts : Counts
  visibleCounts : Counts
  taskRefs : List String

/-- `OutcomeHierarchyObjectiveNode` -/
structure HierarchyObjective where
  objectiveId : String
  keyResults : List HierarchyKeyResult
  objectiveOnlyTaskIds : List String

/-- `OutcomeHierarchy` -/
structure Hierarchy where
  workspaceId : String
  objectiveNodes : List HierarchyObjective
  unaligned : List String
  unresolved : List String
  unassignedTaskIds : List String
  projection : Projection

/-- Items in the order of their texts. -/
def sortedBy {α : Type} (text : α → String) (items : List α) : List α :=
  items.insertionSort fun left right ↦ isBefore (text right) (text left) = false

/-- `sortedIds` -/
def sortedIds (ids : List String) : List String := sortedBy id ids

/-- The record of an id that has no other. -/
def soleRecord : List Objective → Option Objective
  | [objective] => some objective
  | _ => none

/-- `singletonObjectives` -/
def singletonObjectives (objectives : List Objective) : List Objective :=
  sortedBy Objective.id ((groupObjectives objectives).filterMap fun group ↦ soleRecord group.2)

/-- `hasNoKeyResultRefs` -/
def hasNoKeyResultRefs (task : Task) : Bool := task.keyResultRefs.isEmpty

/-- The copy of a node. -/
def Node.copied (node : Node) : HierarchyKeyResult where
  key := node.key
  objectiveId := node.objectiveId
  keyResultId := node.keyResultId
  recordedProgress := node.recordedProgress
  linkedTaskIds := sortedIds node.linkedTaskIds
  visibleTaskIds := sortedIds node.visibleTaskIds
  counts := node.counts
  visibleCounts := node.visibleCounts
  taskRefs := sortedIds node.linkedTaskIds

/-- The bucket of `krByObjective` for an objective, sorted. -/
def bucketOf (nodes : List Node) (objectiveId : String) : List HierarchyKeyResult :=
  sortedBy HierarchyKeyResult.keyResultId ((nodes.filter fun node ↦ node.objectiveId == objectiveId).map Node.copied)

def objectiveNodeOf (input : Input) (objective : Objective) : HierarchyObjective where
  objectiveId := objective.id
  keyResults := bucketOf (projectKeyResults input).keyResults objective.id
  objectiveOnlyTaskIds := sortedIds ((input.tasks.filter fun task ↦
    hasNoKeyResultRefs task && task.objectiveIds.contains objective.id).map Task.id)

/-- `projectOutcomeHierarchy` -/
def projectOutcomeHierarchy (input : Input) : Hierarchy :=
  let projection := projectKeyResults input
  ⟨projection.workspaceId, (singletonObjectives input.objectives).map (objectiveNodeOf input),
    sortedIds ((input.tasks.filter fun task ↦ task.objectiveIds.isEmpty && hasNoKeyResultRefs task).map Task.id),
    sortedIds ((projection.tasks.filter fun entry ↦ !entry.unresolvedRefs.isEmpty).map TaskProjection.taskId),
    projection.unassignedTaskIds, projection⟩

/-! ## Nodes of a projection -/

variable {input : Input} {task : Task}

theorem mem_sortedBy {α : Type} {text : α → String} {items : List α} {a : α} : a ∈ sortedBy text items ↔ a ∈ items :=
  List.mem_insertionSort _

theorem sortedBy_perm {α : Type} (text : α → String) (items : List α) : (sortedBy text items).Perm items :=
  List.perm_insertionSort _ items

theorem nodup_keys_projectKeyResults (input : Input) : ((projectKeyResults input).keyResults.map Node.key).Nodup := by
  have hkeys := @nodup_keys input.workspaceId input.objectives
  rw [keyResults_projectKeyResults, List.map_map]
  have hsame : (Node.key ∘ applyAll (linkResolved input.workspaceId (groupObjectives input.objectives)
      ((input.visibleTasks.getD input.tasks).map Task.id)) input.tasks) = Node.key := by
    funext node
    exact key_applyAll
  rw [hsame]
  exact hkeys

/-- The Tasks of a node are those that refer to its key result and are aligned with its objective. -/
structure Node.IsLinked (tasks : List Task) (node : Node) : Prop where
  nodup : node.linkedTaskIds.Nodup
  mem_iff : ∀ taskId, taskId ∈ node.linkedTaskIds ↔ ∃ task ∈ tasks, task.id = taskId ∧
    node.objectiveId ∈ task.objectiveIds ∧ ⟨node.objectiveId, node.keyResultId⟩ ∈ task.keyResultRefs
  total : node.counts.total = node.linkedTaskIds.length

theorem isLinked_of_mem (hids : (input.tasks.map Task.id).Nodup) {node : Node}
    (h : node ∈ (projectKeyResults input).keyResults) : node.IsLinked input.tasks := by
  rw [keyResults_projectKeyResults] at h
  obtain ⟨base, hbase, rfl⟩ := List.mem_map.mp h
  obtain ⟨objective, keyResult, -, -, -, hnode⟩ := mem_buildNodes.mp hbase
  have hfresh : base.linkedTaskIds = [] := hnode ▸ rfl
  have htotal : base.counts.total = base.linkedTaskIds.length := hnode ▸ rfl
  have hlinked := @linkedTaskIds_applyAll input.workspaceId (groupObjectives input.objectives)
    ((input.visibleTasks.getD input.tasks).map Task.id) input.tasks base hids (by simp [hfresh])
  rw [hfresh, List.nil_append] at hlinked
  have hsubject := @subject_applyAll input.workspaceId (groupObjectives input.objectives)
    ((input.visibleTasks.getD input.tasks).map Task.id) input.tasks base
  rw [Node.subject, Node.subject, Prod.mk.injEq] at hsubject
  constructor
  · rw [hlinked]
    exact (List.filter_sublist.map Task.id).nodup hids
  · intro taskId
    rw [hlinked, hsubject.1, hsubject.2]
    simp only [List.mem_map, List.mem_filter, decide_eq_true_eq, key_mem_resolvedKeys hbase]
    constructor
    · rintro ⟨task, ⟨htask, haligned, href⟩, hid⟩
      exact ⟨task, htask, hid, haligned, href⟩
    · rintro ⟨task, htask, hid, haligned, href⟩
      exact ⟨task, ⟨htask, haligned, href⟩, hid⟩
  · exact total_applyAll htotal

/-- A resolved reference has a node. -/
theorem exists_node_of_key_eq_some {ref : KeyResultRef} {aligned : List String} {key : String}
    (h : (resolveRef input.workspaceId (groupObjectives input.objectives) aligned ref).key? = some key) :
    ∃ node ∈ (projectKeyResults input).keyResults, node.objectiveId = ref.objectiveId ∧
      node.keyResultId = ref.keyResultId := by
  obtain ⟨-, objective, hnamed, hone, -⟩ := key?_resolveRef.mp h
  obtain ⟨keyResult, hkeyResult⟩ := List.length_eq_one_iff.mp hone
  have hmem : keyResult ∈ keyResultsNamed objective ref.keyResultId := by
    rw [hkeyResult]
    exact List.mem_cons_self ..
  obtain ⟨hrecorded, hid⟩ := List.mem_filter.mp hmem
  have hid : keyResult.id = ref.keyResultId := eq_of_beq hid
  have hobjective : objective.id = ref.objectiveId := by
    have hobjective : objective ∈ objectivesNamed input.objectives ref.objectiveId := by
      rw [hnamed]
      exact List.mem_cons_self ..
    exact eq_of_beq (List.mem_filter.mp hobjective).2
  have hbase : nodeOf input.workspaceId objective.id objective keyResult ∈
      buildNodes input.workspaceId (groupObjectives input.objectives) :=
    mem_buildNodes.mpr ⟨objective, keyResult, hobjective ▸ hnamed, hrecorded, hid ▸ hone, rfl⟩
  rw [keyResults_projectKeyResults]
  refine ⟨_, List.mem_map_of_mem hbase, ?_⟩
  have hsubject := @subject_applyAll input.workspaceId (groupObjectives input.objectives)
    ((input.visibleTasks.getD input.tasks).map Task.id) input.tasks
      (nodeOf input.workspaceId objective.id objective keyResult)
  rw [Node.subject, Node.subject, Prod.mk.injEq] at hsubject
  exact ⟨hsubject.1.trans hobjective, hsubject.2.trans hid⟩

/-! ## Nodes of the hierarchy -/

theorem soleRecord_eq_some {records : List Objective} {objective : Objective} :
    soleRecord records = some objective ↔ records = [objective] := by
  unfold soleRecord
  split <;> simp_all

theorem mem_singletonObjectives {objectives : List Objective} {objective : Objective} :
    objective ∈ singletonObjectives objectives ↔ objectivesNamed objectives objective.id = [objective] := by
  rw [singletonObjectives, mem_sortedBy, List.mem_filterMap]
  constructor
  · rintro ⟨group, hgroup, hsole⟩
    obtain ⟨id, -, rfl⟩ := List.mem_map.mp hgroup
    have hrecords : objectivesNamed objectives id = [objective] := soleRecord_eq_some.mp hsole
    have hmem : objective ∈ objectivesNamed objectives id := by
      rw [hrecords]
      exact List.mem_cons_self ..
    have hid : objective.id = id := eq_of_beq (List.mem_filter.mp hmem).2
    rw [hid]
    exact hrecords
  · intro h
    have hmem : objective ∈ objectivesNamed objectives objective.id := by
      rw [h]
      exact List.mem_cons_self ..
    refine ⟨(objective.id, [objective]), List.mem_map.mpr ⟨objective.id, ?_, Prod.ext rfl h⟩, rfl⟩
    rw [mem_collect]
    exact .inr ⟨List.mem_map_of_mem (List.mem_filter.mp hmem).1, rfl⟩

theorem mem_bucketOf {nodes : List Node} {objectiveId : String} {entry : HierarchyKeyResult} :
    entry ∈ bucketOf nodes objectiveId ↔ ∃ node ∈ nodes, node.objectiveId = objectiveId ∧ node.copied = entry := by
  rw [bucketOf, mem_sortedBy, List.mem_map]
  simp only [List.mem_filter, beq_iff_eq, and_assoc]

/-- The entries of the hierarchy are copies of the nodes, each under its objective. -/
theorem exists_node_of_mem {objective : HierarchyObjective}
    (hobjective : objective ∈ (projectOutcomeHierarchy input).objectiveNodes) {entry : HierarchyKeyResult}
    (hentry : entry ∈ objective.keyResults) : ∃ node ∈ (projectKeyResults input).keyResults,
      node.objectiveId = objective.objectiveId ∧ node.copied = entry := by
  obtain ⟨record, -, rfl⟩ := List.mem_map.mp hobjective
  exact mem_bucketOf.mp hentry

/-- A node whose objective is alone under its id has an entry. -/
theorem exists_entry_of_node {node : Node} (h : node ∈ (projectKeyResults input).keyResults) :
    ∃ objective ∈ (projectOutcomeHierarchy input).objectiveNodes, node.copied ∈ objective.keyResults := by
  have hbase := h
  rw [keyResults_projectKeyResults] at hbase
  obtain ⟨base, hbase, hnode⟩ := List.mem_map.mp hbase
  obtain ⟨record, keyResult, hnamed, -, -, hfresh⟩ := mem_buildNodes.mp hbase
  have hsubject : node.subject = base.subject := hnode ▸ subject_applyAll
  have hid : node.objectiveId = record.id := by
    rw [hfresh] at hsubject
    exact congrArg Prod.fst hsubject
  exact ⟨objectiveNodeOf input record, List.mem_map_of_mem (mem_singletonObjectives.mpr hnamed),
    mem_bucketOf.mpr ⟨node, h, hid, rfl⟩⟩

theorem nodup_ids_singletonObjectives (objectives : List Objective) :
    ((singletonObjectives objectives).map Objective.id).Nodup := by
  have hname (id : String) (objective : Objective)
      (h : soleRecord (objectives.filter fun objective ↦ objective.id == id) = some objective) : objective.id = id := by
    have hmem : objective ∈ objectives.filter fun objective ↦ objective.id == id := by
      rw [soleRecord_eq_some.mp h]
      exact List.mem_cons_self ..
    exact eq_of_beq (List.mem_filter.mp hmem).2
  have hperm := (sortedBy_perm Objective.id ((groupObjectives objectives).filterMap fun group ↦
    soleRecord group.2)).map Objective.id
  have hids := @nodup_collect _ (objectives.map Objective.id) _ (fun _ ↦ true) _ List.nodup_nil
  rw [singletonObjectives, hperm.nodup_iff, List.Nodup, List.pairwise_map, List.pairwise_filterMap, groupObjectives,
    List.pairwise_map]
  apply hids.imp
  intro id id' hne objective hobjective objective' hobjective'
  rw [hname id objective hobjective, hname id' objective' hobjective']
  exact hne

/-- No two entries of the hierarchy share a key. -/
theorem nodup_keys_hierarchy (input : Input) :
    (((projectOutcomeHierarchy input).objectiveNodes.flatMap HierarchyObjective.keyResults).map
      HierarchyKeyResult.key).Nodup := by
  have hkeys := nodup_keys_projectKeyResults input
  rw [List.map_flatMap, List.nodup_flatMap]
  constructor
  · intro objective hobjective
    obtain ⟨record, -, rfl⟩ := List.mem_map.mp hobjective
    have hperm := (sortedBy_perm HierarchyKeyResult.keyResultId (((projectKeyResults input).keyResults.filter fun node ↦
      node.objectiveId == record.id).map Node.copied)).map HierarchyKeyResult.key
    have hentries : (((projectKeyResults input).keyResults.filter fun node ↦ node.objectiveId == record.id).map
        Node.copied).map HierarchyKeyResult.key = ((projectKeyResults input).keyResults.filter fun node ↦
          node.objectiveId == record.id).map Node.key := List.map_map
    rw [hentries] at hperm
    exact hperm.nodup_iff.mpr ((List.filter_sublist.map Node.key).nodup hkeys)
  · have hids := nodup_ids_singletonObjectives input.objectives
    rw [projectOutcomeHierarchy, List.pairwise_map]
    rw [List.Nodup, List.pairwise_map] at hids
    apply hids.imp
    intro record record' hne
    rw [Function.onFun, List.disjoint_left]
    intro key hleft hright
    obtain ⟨entry, hentry, rfl⟩ := List.mem_map.mp hleft
    obtain ⟨entry', hentry', hkey⟩ := List.mem_map.mp hright
    obtain ⟨node, hnode, hid, rfl⟩ := mem_bucketOf.mp hentry
    obtain ⟨node', hnode', hid', rfl⟩ := mem_bucketOf.mp hentry'
    have hsame : node' = node := List.inj_on_of_nodup_map hkeys hnode' hnode hkey
    apply hne
    rw [← hid, ← hid', hsame]

/-! ## What the hierarchy shows -/

/-- Where a Task appears. -/
def Hierarchy.Shows (hierarchy : Hierarchy) (taskId : String) : Prop :=
  (∃ objective ∈ hierarchy.objectiveNodes, ∃ node ∈ objective.keyResults, taskId ∈ node.linkedTaskIds) ∨
    (∃ objective ∈ hierarchy.objectiveNodes, taskId ∈ objective.objectiveOnlyTaskIds) ∨
      taskId ∈ hierarchy.unaligned ∨ taskId ∈ hierarchy.unresolved

theorem shows_of_resolved (hids : (input.tasks.map Task.id).Nodup) (htask : task ∈ input.tasks) {ref : KeyResultRef}
    (href : ref ∈ task.keyResultRefs) {key : String}
    (h : (resolveRef input.workspaceId (groupObjectives input.objectives) task.objectiveIds ref).key? = some key) :
    (projectOutcomeHierarchy input).Shows task.id := by
  obtain ⟨node, hnode, hobjective, hkeyResult⟩ := exists_node_of_key_eq_some h
  obtain ⟨haligned, -⟩ := key?_resolveRef.mp h
  have hlinked : task.id ∈ node.linkedTaskIds := by
    rw [(isLinked_of_mem hids hnode).mem_iff, hobjective, hkeyResult]
    exact ⟨task, htask, rfl, haligned, href⟩
  obtain ⟨objective, hobjective, hentry⟩ := exists_entry_of_node hnode
  exact .inl ⟨objective, hobjective, node.copied, hentry, mem_sortedBy.mpr hlinked⟩

theorem shows_of_unresolved (htask : task ∈ input.tasks) {ref : KeyResultRef} (href : ref ∈ task.keyResultRefs)
    (h : (resolveRef input.workspaceId (groupObjectives input.objectives) task.objectiveIds ref).key? = none) :
    (projectOutcomeHierarchy input).Shows task.id := by
  refine .inr (.inr (.inr (mem_sortedBy.mpr (List.mem_map.mpr
    ⟨projectTask input.workspaceId (groupObjectives input.objectives) task, ?_, rfl⟩))))
  have hunresolved : ∃ unresolved, (resolveRef input.workspaceId (groupObjectives input.objectives) task.objectiveIds
      ref).unresolvedRef? = some unresolved := by
    cases hresolution : resolveRef input.workspaceId (groupObjectives input.objectives) task.objectiveIds ref with
    | resolved key ref =>
        rw [hresolution] at h
        cases h
    | unresolved ref reason => exact ⟨ref, rfl⟩
  obtain ⟨unresolved, hunresolved⟩ := hunresolved
  have hmem : unresolved ∈ (projectTask input.workspaceId (groupObjectives input.objectives) task).unresolvedRefs :=
    List.mem_filterMap.mpr ⟨_, List.mem_map_of_mem href, hunresolved⟩
  rw [List.mem_filter]
  exact ⟨List.mem_map_of_mem htask, by simpa using List.ne_nil_of_mem hmem⟩

/-- A Task that is aligned with nothing, or with an objective that is alone under its id, appears somewhere. -/
theorem shows_of_aligned (hids : (input.tasks.map Task.id).Nodup) (htask : task ∈ input.tasks)
    (h : task.objectiveIds = [] ∨ ∃ id ∈ task.objectiveIds, (objectivesNamed input.objectives id).length = 1) :
    (projectOutcomeHierarchy input).Shows task.id := by
  cases hrefs : task.keyResultRefs with
  | cons ref refs =>
      have href : ref ∈ task.keyResultRefs := by
        rw [hrefs]
        exact List.mem_cons_self ..
      cases hkey : (resolveRef input.workspaceId (groupObjectives input.objectives) task.objectiveIds ref).key? with
      | none => exact shows_of_unresolved htask href hkey
      | some key => exact shows_of_resolved hids htask href hkey
  | nil =>
      have hnone : hasNoKeyResultRefs task = true := by rw [hasNoKeyResultRefs, hrefs, List.isEmpty_nil]
      rcases h with hempty | ⟨id, hid, hone⟩
      · refine .inr (.inr (.inl (mem_sortedBy.mpr (List.mem_map_of_mem (List.mem_filter.mpr ⟨htask, ?_⟩)))))
        rw [hempty, hnone]
        rfl
      · obtain ⟨objective, hobjective⟩ := List.length_eq_one_iff.mp hone
        have hmem : objective ∈ objectivesNamed input.objectives id := by
          rw [hobjective]
          exact List.mem_cons_self ..
        have hname : objective.id = id := eq_of_beq (List.mem_filter.mp hmem).2
        refine .inr (.inl ⟨objectiveNodeOf input objective, List.mem_map_of_mem (mem_singletonObjectives.mpr
          (hname ▸ hobjective)), mem_sortedBy.mpr (List.mem_map_of_mem (List.mem_filter.mpr ⟨htask, ?_⟩))⟩)
        rw [hnone, hname, Bool.true_and]
        exact List.contains_iff_mem.mpr hid

/-- Every entry of a key result holds the Tasks that refer to it and are aligned with its objective, each once and all
counted, under a key of its own, and no Task that has a place is lost. -/
theorem hierarchy_links_and_shows (input : Input) (hids : (input.tasks.map Task.id).Nodup) :
    (∀ objective ∈ (projectOutcomeHierarchy input).objectiveNodes, ∀ node ∈ objective.keyResults,
      node.objectiveId = objective.objectiveId ∧ node.linkedTaskIds.Nodup ∧
        (∀ taskId, taskId ∈ node.linkedTaskIds ↔ ∃ task ∈ input.tasks, task.id = taskId ∧
          node.objectiveId ∈ task.objectiveIds ∧ ⟨node.objectiveId, node.keyResultId⟩ ∈ task.keyResultRefs) ∧
        node.counts.total = node.linkedTaskIds.length) ∧
    (∀ node ∈ (projectOutcomeHierarchy input).projection.keyResults, node.IsLinked input.tasks) ∧
    (((projectOutcomeHierarchy input).objectiveNodes.flatMap HierarchyObjective.keyResults).map
      HierarchyKeyResult.key).Nodup ∧
    ((projectOutcomeHierarchy input).projection.keyResults.map Node.key).Nodup ∧
    ∀ task ∈ input.tasks, (task.objectiveIds = [] ∨
      ∃ id ∈ task.objectiveIds, (objectivesNamed input.objectives id).length = 1) →
        (projectOutcomeHierarchy input).Shows task.id := by
  refine ⟨?_, fun node hnode ↦ isLinked_of_mem hids hnode, nodup_keys_hierarchy input,
    nodup_keys_projectKeyResults input, fun task htask h ↦ shows_of_aligned hids htask h⟩
  intro objective hobjective entry hentry
  obtain ⟨node, hnode, hid, rfl⟩ := exists_node_of_mem hobjective hentry
  have hlinked := isLinked_of_mem hids hnode
  have hperm : (sortedIds node.linkedTaskIds).Perm node.linkedTaskIds := sortedBy_perm id node.linkedTaskIds
  refine ⟨hid, hperm.nodup_iff.mpr hlinked.nodup, ?_, hlinked.total.trans hperm.length_eq.symm⟩
  intro taskId
  exact (mem_sortedBy.trans (hlinked.mem_iff taskId))

/-! ## An outcome with an id that needs an escape -/

/-- A Task of a key result, one of an objective alone, one of nothing, and one with an id that two objectives carry. -/
def sampleInput : Input where
  workspaceId := "w|1"
  tasks := [⟨"T-1", "open", ["o|a"], [⟨"o|a", "k"⟩, ⟨"o|a", "k"⟩]⟩, ⟨"T-2", "done", ["o|a"], []⟩,
    ⟨"T-3", "open", [], []⟩, ⟨"T-4", "started", ["twin", "o|a"], [⟨"twin", "k"⟩]⟩]
  visibleTasks := none
  objectives := [⟨"o|a", "Ship", none, none, 1, [⟨"k", "Land", none, none, none⟩]⟩, ⟨"twin", "Left", none, none, 1, []⟩,
    ⟨"twin", "Right", none, none, 1, []⟩]

theorem sample_links_and_shows :
    (sampleInput.tasks.map Task.id).Nodup ∧ (∀ task ∈ sampleInput.tasks,
      (projectOutcomeHierarchy sampleInput).Shows task.id) ∧
    (((projectOutcomeHierarchy sampleInput).objectiveNodes.flatMap HierarchyObjective.keyResults).map
      HierarchyKeyResult.key).Nodup := by
  have hids : (sampleInput.tasks.map Task.id).Nodup := by decide
  obtain ⟨-, -, hkeys, -, hshows⟩ := hierarchy_links_and_shows sampleInput hids
  exact ⟨hids, fun task htask ↦ hshows task htask ((by decide : ∀ task ∈ sampleInput.tasks, task.objectiveIds = [] ∨
    ∃ id ∈ task.objectiveIds, (objectivesNamed sampleInput.objectives id).length = 1) task htask), hkeys⟩

end WorkStack.Views.Outcomes
