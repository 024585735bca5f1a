import WorkStack.Effect.Slots
import WorkStack.Text.Segments
import WorkStack.Views.WorkspaceTasks

/-!
# The projection of key results

A key result that one objective carries once has a node, under a key of the workspace, the objective and the key
result. The references of the Tasks are resolved one after the other, and each that is resolved adds its Task to the
node of its key.
-/

open WorkStack.Effect.Slots WorkStack.Text

namespace WorkStack.Views.Outcomes

/-- `Task`, as far as outcomes are concerned. -/
structure Task where
  id : String
  status : String
  objectiveIds : List String
  keyResultRefs : List KeyResultRef
  deriving DecidableEq, Repr

structure KeyResult where
  id : String
  text : String
  target : Option String
  progress : Option Json
  status : Option String

structure Objective where
  id : String
  objective : String
  title : Option String
  status : Option String
  revision : ℤ
  keyResults : List KeyResult

/-- `KeyResultCounts` -/
structure Counts where
  total : ℕ
  opened : ℕ
  started : ℕ
  done : ℕ
  dropped : ℕ
  deriving DecidableEq, Repr

/-- `emptyCounts` -/
def emptyCounts : Counts := ⟨0, 0, 0, 0, 0⟩

/-- `countTask` -/
def countTask (counts : Counts) (status : String) : Counts :=
  let counted := { counts with total := counts.total + 1 }
  match status with
  | "open" => { counted with opened := counted.opened + 1 }
  | "started" => { counted with started := counted.started + 1 }
  | "done" => { counted with done := counted.done + 1 }
  | "dropped" => { counted with dropped := counted.dropped + 1 }
  | _ => counted

/-- `KeyResultNode` -/
structure Node where
  key : String
  workspaceId : String
  objectiveId : String
  keyResultId : String
  objectiveTitle : String
  objectiveStatus : Option String
  objectiveRevision : ℤ
  text : String
  target : Option String
  status : Option String
  recordedProgress : Option Json
  linkedTaskIds : List String
  counts : Counts
  visibleTaskIds : List String
  visibleCounts : Counts

inductive UnresolvedReason where
  | unalignedParent
  | missingObjective
  | ambiguousObjective
  | missingKeyResult
  | ambiguousKeyResult
  deriving DecidableEq, Repr

/-- `TaskRefResolution` -/
inductive Resolution where
  | resolved (key : String) (ref : KeyResultRef)
  | unresolved (ref : KeyResultRef) (reason : UnresolvedReason)
  deriving DecidableEq, Repr

namespace Resolution

def key? : Resolution → Option String
  | resolved key _ => some key
  | unresolved _ _ => none

def unresolvedRef? : Resolution → Option KeyResultRef
  | resolved _ _ => none
  | unresolved ref _ => some ref

end Resolution

inductive Placement where
  | singleOutcome
  | multipleOutcomes
  | unassignedOutcome
  | unresolvedOutcome
  deriving DecidableEq, Repr

/-- `TaskOutcomeProjection` -/
structure TaskProjection where
  taskId : String
  refs : List Resolution
  resolvedKeys : List String
  unresolvedRefs : List KeyResultRef
  placement : Placement

/-- `KeyResultProjectionInput` -/
structure Input where
  workspaceId : String
  tasks : List Task
  visibleTasks : Option (List Task)
  objectives : List Objective

/-- `KeyResultProjection` -/
structure Projection where
  workspaceId : String
  keyResults : List Node
  tasks : List TaskProjection
  unassignedTaskIds : List String

/-! ## Keys -/

/-- `encodeSegment`: a backslash before every backslash, and then one before every bar. -/
def encodeSegment (value : String) : List Char :=
  (value.toList.flatMap fun c ↦ if c = '\\' then ['\\', '\\'] else [c]).flatMap fun c ↦
    if c = '|' then ['\\', '|'] else [c]

/-- `keyResultKey` -/
def keyResultKey (workspaceId objectiveId keyResultId : String) : String :=
  String.ofList (['|'].intercalate (["ws", workspaceId, "kr", objectiveId, keyResultId].map encodeSegment))

/-! ## Nodes -/

/-- `groupObjectives`: the objectives of each id, by the first place of the id. -/
def groupObjectives (objectives : List Objective) : List (String × List Objective) :=
  (collect (fun _ ↦ true) [] (objectives.map Objective.id)).map fun id ↦
    (id, objectives.filter fun objective ↦ objective.id == id)

def isNumber : Json → Bool
  | .int _ | .float _ => true
  | _ => false

def nodeOf (workspaceId objectiveId : String) (objective : Objective) (keyResult : KeyResult) : Node where
  key := keyResultKey workspaceId objectiveId keyResult.id
  workspaceId := workspaceId
  objectiveId := objectiveId
  keyResultId := keyResult.id
  objectiveTitle := objective.title.getD objective.objective
  objectiveStatus := objective.status
  objectiveRevision := objective.revision
  text := keyResult.text
  target := keyResult.target
  status := keyResult.status
  recordedProgress := keyResult.progress.filter isNumber
  linkedTaskIds := []
  counts := emptyCounts
  visibleTaskIds := []
  visibleCounts := emptyCounts

/-- The key results of an objective that have an id. -/
def keyResultsNamed (objective : Objective) (keyResultId : String) : List KeyResult :=
  objective.keyResults.filter fun keyResult ↦ keyResult.id == keyResultId

/-- The nodes of the objectives of one id. -/
def nodesOfGroup (workspaceId : String) : String × List Objective → List Node
  | (objectiveId, [objective]) =>
      (objective.keyResults.filter fun keyResult ↦ (keyResultsNamed objective keyResult.id).length == 1).map
        (nodeOf workspaceId objectiveId objective)
  | _ => []

/-- `buildNodes` -/
def buildNodes (workspaceId : String) (groups : List (String × List Objective)) : List Node :=
  groups.flatMap (nodesOfGroup workspaceId)

/-! ## References -/

/-- `resolveRef` -/
def resolveRef (workspaceId : String) (groups : List (String × List Objective)) (aligned : List String)
    (ref : KeyResultRef) : Resolution :=
  if !aligned.contains ref.objectiveId then .unresolved ref .unalignedParent
  else
    match groups.lookup ref.objectiveId with
    | none | some [] => .unresolved ref .missingObjective
    | some [objective] =>
        match keyResultsNamed objective ref.keyResultId with
        | [] => .unresolved ref .missingKeyResult
        | [_] => .resolved (keyResultKey workspaceId ref.objectiveId ref.keyResultId) ref
        | _ => .unresolved ref .ambiguousKeyResult
    | some _ => .unresolved ref .ambiguousObjective

/-- `placementFor` -/
def placementFor (refs : List Resolution) : Placement :=
  if refs.isEmpty then .unassignedOutcome
  else if refs.any fun ref ↦ ref.key?.isNone then .unresolvedOutcome
  else if refs.length = 1 then .singleOutcome
  else .multipleOutcomes

/-- The entry of one Task. -/
def projectTask (workspaceId : String) (groups : List (String × List Objective)) (task : Task) : TaskProjection :=
  let refs := task.keyResultRefs.map (resolveRef workspaceId groups task.objectiveIds)
  ⟨task.id, refs, refs.filterMap Resolution.key?, refs.filterMap Resolution.unresolvedRef?, placementFor refs⟩

/-- What a node becomes when a Task links to it. -/
def linkTask (visibleIds : List String) (task : Task) (node : Node) : Node :=
  if node.linkedTaskIds.contains task.id then node
  else
    let linked := { node with
      linkedTaskIds := node.linkedTaskIds ++ [task.id], counts := countTask node.counts task.status }
    if visibleIds.contains task.id then
      { linked with
        visibleTaskIds := node.visibleTaskIds ++ [task.id], visibleCounts := countTask node.visibleCounts task.status }
    else linked

/-- A change of the node that `byKey` holds under a key: the last one that was put there. -/
def updateByKey (key : String) (change : Node → Node) : List Node → List Node
  | [] => []
  | node :: nodes =>
      if node.key = key ∧ ∀ other ∈ nodes, other.key ≠ key then change node :: nodes
      else node :: updateByKey key change nodes

/-- `projectKeyResults` -/
def projectKeyResults (input : Input) : Projection :=
  let groups := groupObjectives input.objectives
  let visibleIds := (input.visibleTasks.getD input.tasks).map Task.id
  let tasks := input.tasks.map (projectTask input.workspaceId groups)
  ⟨input.workspaceId,
    input.tasks.foldl (fun nodes task ↦ (projectTask input.workspaceId groups task).resolvedKeys.foldl
      (fun nodes key ↦ updateByKey key (linkTask visibleIds task) nodes) nodes) (buildNodes input.workspaceId groups),
    tasks,
    (tasks.filter fun entry ↦ entry.placement == .unassignedOutcome).map TaskProjection.taskId⟩

/-! ## Keys tell their parts -/

theorem encodeSegment_eq (value : String) : encodeSegment value = Segments.escape '\\' '|' value.toList := by
  rw [encodeSegment, List.flatMap_assoc, Segments.escape]
  apply List.flatMap_congr
  intro c _
  by_cases hsign : c = '\\'
  · rw [if_pos hsign, if_pos (.inl hsign), hsign]
    rfl
  · by_cases hbar : c = '|'
    · rw [if_neg hsign, if_pos (.inr hbar), hbar]
      rfl
    · rw [if_neg hsign, if_neg (not_or.mpr ⟨hsign, hbar⟩), List.flatMap_singleton, if_neg hbar]

/-- A key of a workspace tells the objective and the key result. -/
theorem keyResultKey_inj {workspaceId objectiveId keyResultId objectiveId' keyResultId' : String}
    (h : keyResultKey workspaceId objectiveId keyResultId = keyResultKey workspaceId objectiveId' keyResultId') :
    objectiveId = objectiveId' ∧ keyResultId = keyResultId' := by
  have htexts := congrArg String.toList h
  rw [keyResultKey, keyResultKey, String.toList_ofList, String.toList_ofList] at htexts
  have hjoin (objectiveId keyResultId : String) :
      ['|'].intercalate (["ws", workspaceId, "kr", objectiveId, keyResultId].map encodeSegment) =
        Segments.join '\\' '|' (["ws", workspaceId, "kr", objectiveId, keyResultId].map String.toList) := by
    rw [Segments.join, List.map_map]
    congr 2
    funext value
    exact encodeSegment_eq value
  rw [hjoin, hjoin] at htexts
  have hsegments := Segments.join_inj (by decide : '\\' ≠ '|') (by rfl) htexts
  simp only [List.map_cons, List.map_nil, List.cons.injEq, String.toList_inj, and_true, true_and] at hsegments
  exact hsegments

/-! ## Groups and nodes -/

theorem lookup_map_self {β : Type} (ids : List String) (value : String → β) (id : String) :
    (ids.map fun id ↦ (id, value id)).lookup id = if id ∈ ids then some (value id) else none := by
  induction ids with
  | nil => rfl
  | cons first ids ih =>
      rw [List.map_cons, List.lookup_cons, ih]
      by_cases h : id = first
      · rw [h, if_pos (List.mem_cons_self ..), beq_self_eq_true]
      · rw [beq_false_of_ne h]
        simp [h]

/-- The objectives of an id. -/
def objectivesNamed (objectives : List Objective) (id : String) : List Objective :=
  objectives.filter fun objective ↦ objective.id == id

theorem lookup_groupObjectives (objectives : List Objective) (id : String) :
    (groupObjectives objectives).lookup id =
      if objectivesNamed objectives id = [] then none else some (objectivesNamed objectives id) := by
  rw [groupObjectives, lookup_map_self]
  have hmem : id ∈ collect (fun _ ↦ true) [] (objectives.map Objective.id) ↔ objectivesNamed objectives id ≠ [] := by
    rw [mem_collect, objectivesNamed, Ne, List.filter_eq_nil_iff]
    simp
  by_cases h : objectivesNamed objectives id = []
  · rw [if_pos h, if_neg (fun hid ↦ hmem.mp hid h)]
  · rw [if_neg h, if_pos (hmem.mpr h)]
    rfl

variable {workspaceId : String} {objectives : List Objective}

theorem mem_nodesOfGroup {id : String} {records : List Objective} {node : Node} :
    node ∈ nodesOfGroup workspaceId (id, records) ↔ ∃ objective keyResult, records = [objective] ∧
      keyResult ∈ objective.keyResults ∧ (keyResultsNamed objective keyResult.id).length = 1 ∧
        node = nodeOf workspaceId id objective keyResult := by
  constructor
  · intro h
    match records, h with
    | [objective], h =>
        obtain ⟨keyResult, hmem, rfl⟩ := List.mem_map.mp h
        obtain ⟨hmem, hone⟩ := List.mem_filter.mp hmem
        exact ⟨objective, keyResult, rfl, hmem, eq_of_beq hone, rfl⟩
  · rintro ⟨objective, keyResult, rfl, hmem, hone, rfl⟩
    exact List.mem_map.mpr ⟨keyResult, List.mem_filter.mpr ⟨hmem, beq_iff_eq.mpr hone⟩, rfl⟩

/-- The nodes are those of the key results that one objective carries once. -/
theorem mem_buildNodes {node : Node} : node ∈ buildNodes workspaceId (groupObjectives objectives) ↔
    ∃ objective keyResult, objectivesNamed objectives objective.id = [objective] ∧
      keyResult ∈ objective.keyResults ∧ (keyResultsNamed objective keyResult.id).length = 1 ∧
        node = nodeOf workspaceId objective.id objective keyResult := by
  simp only [buildNodes, groupObjectives, List.mem_flatMap, List.mem_map]
  constructor
  · rintro ⟨_, ⟨id, -, rfl⟩, hnode⟩
    obtain ⟨objective, keyResult, hrecords, hmem, hone, rfl⟩ := mem_nodesOfGroup.mp hnode
    have hid : objective.id = id := by
      have hobjective : objective ∈ objectives.filter fun objective ↦ objective.id == id := by
        rw [hrecords]
        exact List.mem_cons_self ..
      simpa using (List.mem_filter.mp hobjective).2
    subst hid
    exact ⟨objective, keyResult, hrecords, hmem, hone, rfl⟩
  · rintro ⟨objective, keyResult, hrecords, hmem, hone, rfl⟩
    refine ⟨_, ⟨objective.id, ?_, rfl⟩, mem_nodesOfGroup.mpr ⟨objective, keyResult, hrecords, hmem, hone, rfl⟩⟩
    have hobjective : objective ∈ objectivesNamed objectives objective.id := by
      rw [hrecords]
      exact List.mem_cons_self ..
    rw [mem_collect]
    exact .inr ⟨List.mem_map_of_mem (List.mem_filter.mp hobjective).1, rfl⟩

/-- Items that are alone under their name have different names. -/
theorem nodup_map_alone {β : Type} (items : List β) (name : β → String) :
    ((items.filter fun item ↦ (items.filter fun other ↦ name other == name item).length == 1).map name).Nodup := by
  rw [List.nodup_iff_count_le_one]
  intro a
  by_contra hmany
  rw [not_le] at hmany
  have hmem := List.count_pos_iff.mp (Nat.lt_trans Nat.zero_lt_one hmany)
  obtain ⟨item, hitem, rfl⟩ := List.mem_map.mp hmem
  have hone : (items.filter fun other ↦ name other == name item).length = 1 := eq_of_beq (List.mem_filter.mp hitem).2
  have hle : ((items.filter fun item ↦ (items.filter fun other ↦ name other == name item).length == 1).map name).count
      (name item) ≤ (items.filter fun other ↦ name other == name item).length := by
    rw [List.count, List.countP_map, ← List.countP_eq_length_filter]
    exact List.filter_sublist.countP_le
  omega

/-- What a node is of. -/
def Node.subject (node : Node) : String × String := (node.objectiveId, node.keyResultId)

theorem nodup_nodesOfGroup (id : String) (records : List Objective) :
    ((nodesOfGroup workspaceId (id, records)).map Node.subject).Nodup := by
  match records with
  | [] => exact List.nodup_nil
  | [objective] =>
      have hsubject : Node.subject ∘ nodeOf workspaceId id objective = Prod.mk id ∘ KeyResult.id := rfl
      rw [nodesOfGroup, List.map_map, hsubject, ← List.map_map]
      exact (nodup_map_alone objective.keyResults KeyResult.id).map (Prod.mk_right_injective id)
  | _ :: _ :: _ => exact List.nodup_nil

theorem objectiveId_of_mem_nodesOfGroup {id : String} {records : List Objective} {node : Node}
    (h : node ∈ nodesOfGroup workspaceId (id, records)) : node.objectiveId = id := by
  obtain ⟨objective, keyResult, -, -, -, rfl⟩ := mem_nodesOfGroup.mp h
  rfl

theorem nodup_subjects : ((buildNodes workspaceId (groupObjectives objectives)).map Node.subject).Nodup := by
  rw [buildNodes, groupObjectives, List.flatMap_map, List.map_flatMap, List.nodup_flatMap]
  constructor
  · intro id _
    exact nodup_nodesOfGroup id _
  · have hids := @nodup_collect _ (objectives.map Objective.id) _ (fun _ ↦ true) _ List.nodup_nil
    apply hids.imp
    intro id id' hne
    rw [Function.onFun, List.disjoint_left]
    intro subject hleft hright
    obtain ⟨node, hnode, rfl⟩ := List.mem_map.mp hleft
    obtain ⟨node', hnode', hsame⟩ := List.mem_map.mp hright
    have hid := objectiveId_of_mem_nodesOfGroup hnode
    have hid' := objectiveId_of_mem_nodesOfGroup hnode'
    apply hne
    rw [← hid, ← hid']
    exact (congrArg Prod.fst hsame).symm

/-- The key of every node is that of its subject. -/
theorem key_of_mem_buildNodes {node : Node} (h : node ∈ buildNodes workspaceId (groupObjectives objectives)) :
    node.key = keyResultKey workspaceId node.objectiveId node.keyResultId := by
  obtain ⟨objective, keyResult, -, -, -, rfl⟩ := mem_buildNodes.mp h
  rfl

/-- No two nodes share a key. -/
theorem nodup_keys : ((buildNodes workspaceId (groupObjectives objectives)).map Node.key).Nodup := by
  have hsubjects := @nodup_subjects workspaceId objectives
  rw [List.nodup_map_iff_inj_on hsubjects.of_map]
  intro node hnode node' hnode' hkey
  rw [key_of_mem_buildNodes hnode, key_of_mem_buildNodes hnode'] at hkey
  obtain ⟨hobjective, hkeyResult⟩ := keyResultKey_inj hkey
  exact List.inj_on_of_nodup_map hsubjects hnode hnode' (Prod.ext hobjective hkeyResult)

end WorkStack.Views.Outcomes
