import WorkStack.Effect.Slots
import WorkStack.Views.TaskFilters

/-!
# The visibility of completed Tasks

Completed Tasks that the filters match are hidden, except where they are pinned, kept by the board, or revealed as the
prerequisites of a visible Task. What is hidden is listed, by whether the filters match it.
-/

open WorkStack.Effect.Slots

namespace WorkStack.Views

/-! ## The request -/

/-- `DoneVisibility`: `default`, `hide` or `show` -/
inductive DoneVisibility where
  | standard
  | hidden
  | shown
  deriving DecidableEq, Repr

def DoneVisibility.name : DoneVisibility → String
  | .standard => "default"
  | .hidden => "hide"
  | .shown => "show"

inductive WorkspaceView where
  | graph
  | treemap
  | board
  | table
  deriving DecidableEq, Repr

def WorkspaceView.name : WorkspaceView → String
  | .graph => "graph"
  | .treemap => "treemap"
  | .board => "board"
  | .table => "table"

/-- `CompletedVisibilityReveal` -/
structure Reveal where
  anchorTaskId : String
  scopeKey : String
  taskIds : List String
  deriving DecidableEq, Repr

/-- `CompletedVisibilityRequest` -/
structure VisibilityInput where
  tasks : List WorkspaceTask
  filters : Filters
  view : WorkspaceView
  doneVisibility : Option DoneVisibility := none
  selectedTaskId : Option String := none
  contextTargetTaskId : Option String := none
  focusPinnedTaskId : Option String := none
  prerequisiteAnchorTaskId : Option String := none
  reveal : Option Reveal := none
  sessionRetainedTaskIds : List String := []
  deriving DecidableEq, Repr

/-- `REVEAL_DISPLAY_LIMIT` -/
def revealDisplayLimit : ℕ := 10

def VisibilityInput.visibility (input : VisibilityInput) : DoneVisibility := input.doneVisibility.getD .standard

/-- `outcomeScopeSegments` -/
def outcomeScopeSegments (outcome : Option OutcomeFilter) : List Json :=
  match normalizeOutcomeFilter (outcome.getD .all) with
  | .all => [.str "all", .null, .null]
  | .unassigned => [.str "unassigned", .null, .null]
  | .pair objectiveId keyResultId => [.str "pair", .str objectiveId, .str keyResultId]

/-- `completedVisibilityScopeKey` -/
def completedVisibilityScopeKey (view : WorkspaceView) (filters : Filters) (doneVisibility : DoneVisibility) : String :=
  String.ofList (Json.compactText (.arr ([
    .str view.name,
    .str (filters.search.getD ""),
    .str (filters.status.getD "all"),
    .str (filters.priority.getD "all"),
    .str (filters.objectiveId.getD "all"),
    .str (filters.readiness.getD "all"),
    .str (filters.timing.getD "all")] ++
      outcomeScopeSegments filters.outcome ++
      [(filters.today.map Json.str).getD .null, .str doneVisibility.name])))

def VisibilityInput.scopeKey (input : VisibilityInput) : String :=
  completedVisibilityScopeKey input.view input.filters input.visibility

/-! ## Pins -/

inductive PinReason where
  | selected
  | context
  | focus
  deriving DecidableEq, Repr

/-- `PIN_ORDER` -/
def pinOrder : List PinReason := [.selected, .context, .focus]

/-- The reasons by the ids of Tasks, and the ids that are missing. -/
structure Pins where
  reasonsById : List (String × List PinReason)
  missing : List String
  deriving DecidableEq, Repr

/-- One candidate of `resolvePins`. -/
def Pins.add (tasks : List WorkspaceTask) (pins : Pins) (candidate : PinReason × Option String) : Pins :=
  match candidate.2.filter (· ≠ "") with
  | none => pins
  | some taskId =>
      if (byId tasks taskId).isNone then
        if pins.missing.contains taskId then pins else { pins with missing := pins.missing ++ [taskId] }
      else if (pins.reasonsById.lookup taskId).isSome then
        { pins with reasonsById := pins.reasonsById.map fun pin ↦
            if pin.1 = taskId then (pin.1, pin.2 ++ [candidate.1]) else pin }
      else { pins with reasonsById := pins.reasonsById ++ [(taskId, [candidate.1])] }

/-- `resolvePins` -/
def resolvePins (input : VisibilityInput) : Pins :=
  [(PinReason.selected, input.selectedTaskId), (.context, input.contextTargetTaskId),
    (.focus, input.focusPinnedTaskId)].foldl (Pins.add input.tasks) ⟨[], []⟩

/-! ## Prerequisites -/

inductive PrerequisiteReason where
  | missing
  | visible
  | otherFilter
  | completed
  deriving DecidableEq, Repr

structure PrerequisiteClassification where
  id : String
  reason : PrerequisiteReason
  revealable : Bool
  deriving DecidableEq, Repr

/-- `uniqueDependencyIds` -/
def uniqueDependencyIds (task : WorkspaceTask) : List String := collect (fun _ ↦ true) [] task.dependencies

/-- The classification of one prerequisite. -/
def classifyPrerequisite (tasks : List WorkspaceTask) (matchedIds visibleIds : List String) (id : String) :
    PrerequisiteClassification :=
  let reason :=
    if (byId tasks id).isNone then .missing
    else if visibleIds.contains id then .visible
    else if !matchedIds.contains id then .otherFilter
    else .completed
  ⟨id, reason, reason = .completed⟩

/-- `classifyPrerequisites` -/
def classifyPrerequisites (tasks : List WorkspaceTask) (matchedIds visibleIds : List String) (task : WorkspaceTask) :
    List PrerequisiteClassification :=
  (uniqueDependencyIds task).map (classifyPrerequisite tasks matchedIds visibleIds)

def isDone (task : WorkspaceTask) : Bool := asTaskStatus task.status == "done"

/-- `eligibleRevealTargets` -/
def eligibleRevealTargets (tasks : List WorkspaceTask) (matchedIds visibleIds : List String) (anchor : WorkspaceTask) :
    List String :=
  (uniqueDependencyIds anchor).filter fun id ↦
    (byId tasks id).any isDone && matchedIds.contains id && !visibleIds.contains id

/-! ## Visible Tasks -/

section Projecting

variable (input : VisibilityInput) (matched : List WorkspaceTask)

def hidesDone : Bool := normalizedFilter input.filters.status ≠ "done" && input.visibility ≠ .shown

def baseVisibleIds : List String :=
  (matched.filter fun task ↦ !(hidesDone input && isDone task)).map WorkspaceTask.id

/-- `applySessionRetainedCompletedTasks` -/
def applySessionRetained (visibleIds : List String) : List String :=
  if input.view ≠ .board ∨ input.visibility = .hidden then visibleIds
  else collect (fun id ↦ (byId input.tasks id).any isDone && (matched.map WorkspaceTask.id).contains id) visibleIds
    input.sessionRetainedTaskIds

def visibleBeforeReveal : List String :=
  applySessionRetained input matched
    (collect (fun _ ↦ true) (baseVisibleIds input matched) ((resolvePins input).reasonsById.map Prod.fst))

/-- The ids of a request that are revealed, up to the limit. -/
def activeReveals (eligible : List String) : List String → List String → List String
  | active, [] => active
  | active, id :: taskIds =>
      if revealDisplayLimit ≤ active.length then active
      else if !eligible.contains id || active.contains id then activeReveals eligible active taskIds
      else activeReveals eligible (active ++ [id]) taskIds

/-- `resolveReveal` -/
def resolveReveal (scopeKey : String) (visibleIds : List String) : Option Reveal × ℤ :=
  match input.reveal, input.prerequisiteAnchorTaskId.filter (· ≠ "") with
  | some request, some anchorId =>
      if request.scopeKey ≠ scopeKey ∨ request.anchorTaskId ≠ anchorId then (none, 0)
      else
        match byId input.tasks anchorId with
        | none => (none, 0)
        | some anchor =>
            if !visibleIds.contains anchorId then (none, 0)
            else
              let eligible := eligibleRevealTargets input.tasks (matched.map WorkspaceTask.id) visibleIds anchor
              let active := activeReveals eligible [] request.taskIds
              (some ⟨anchorId, scopeKey, active⟩, eligible.length - active.length)
  | _, _ => (none, 0)

def revealedTaskIds (reveal : Option Reveal) : List String := (reveal.map Reveal.taskIds).getD []

/-- The ids that are visible after the reveal. -/
def visibleIdsOf : List String :=
  let visibleIds := visibleBeforeReveal input matched
  collect (fun _ ↦ true) visibleIds (revealedTaskIds (resolveReveal input matched input.scopeKey visibleIds).1)

end Projecting

/-! ## The projection -/

inductive EmptyKind where
  | filled
  | noTasks
  | allComplete
  | otherFilterEmpty
  deriving DecidableEq, Repr

/-- `emptyKindFor` -/
def emptyKindFor (visibleCount canonicalTotal filterMatchedTotal hiddenCompleted : ℕ) : EmptyKind :=
  if 0 < visibleCount then .filled
  else if canonicalTotal = 0 then .noTasks
  else if 0 < filterMatchedTotal ∧ hiddenCompleted = filterMatchedTotal then .allComplete
  else .otherFilterEmpty

structure VisibilityCounts where
  canonicalTotal : ℕ
  filterMatchedTotal : ℕ
  visible : ℕ
  hiddenCompleted : ℕ
  hiddenOther : ℕ
  retained : ℕ
  revealed : ℕ
  deriving DecidableEq, Repr

/-- `CompletedVisibilityProjection`; its `selection` is that of the input. -/
structure VisibilityProjection where
  referenceTasks : List WorkspaceTask
  visibleTasks : List WorkspaceTask
  hiddenCompletedTaskIds : List String
  hiddenOtherTaskIds : List String
  retainedTaskIds : List String
  pinReasonsByTaskId : List (String × List PinReason)
  missingPinTaskIds : List String
  reveal : Option Reveal
  revealRemainingCount : ℤ
  prerequisitesByTaskId : List (String × List PrerequisiteClassification)
  counts : VisibilityCounts
  emptyKind : EmptyKind
  deriving DecidableEq, Repr

/-- `classifyHiddenTaskIds` of the Tasks that are matched, or of the others. -/
def hiddenTaskIds (tasks : List WorkspaceTask) (visibleIds matchedIds : List String) (isMatched : Bool) : List String :=
  (tasks.filter fun task ↦ !visibleIds.contains task.id && matchedIds.contains task.id == isMatched).map
    WorkspaceTask.id

/-- `projectPinReasons`: the pinned ids that the filters alone would not show. -/
def retainedTaskIds (tasks : List WorkspaceTask) (pins : Pins) (baseVisibleIds : List String) : List String :=
  (tasks.filter fun task ↦ (pins.reasonsById.lookup task.id).isSome && !baseVisibleIds.contains task.id).map
    WorkspaceTask.id

/-- `projectPinReasons`: the reasons of pinned Tasks in their order. -/
def pinReasonsByTaskId (tasks : List WorkspaceTask) (pins : Pins) : List (String × List PinReason) :=
  tasks.filterMap fun task ↦ (pins.reasonsById.lookup task.id).map fun reasons ↦
    (task.id, pinOrder.filter reasons.contains)

/-- The projection of Tasks of which these are matched. -/
def projectMatched (input : VisibilityInput) (matched : List WorkspaceTask) : VisibilityProjection :=
  let matchedIds := matched.map WorkspaceTask.id
  let pins := resolvePins input
  let (reveal, remaining) := resolveReveal input matched input.scopeKey (visibleBeforeReveal input matched)
  let visibleIds := visibleIdsOf input matched
  let visibleTasks := input.tasks.filter fun task ↦ visibleIds.contains task.id
  let hiddenCompleted := hiddenTaskIds input.tasks visibleIds matchedIds true
  let hiddenOther := hiddenTaskIds input.tasks visibleIds matchedIds false
  let retained := retainedTaskIds input.tasks pins (baseVisibleIds input matched)
  { referenceTasks := input.tasks
    visibleTasks := visibleTasks
    hiddenCompletedTaskIds := hiddenCompleted
    hiddenOtherTaskIds := hiddenOther
    retainedTaskIds := retained
    pinReasonsByTaskId := pinReasonsByTaskId input.tasks pins
    missingPinTaskIds := pins.missing
    reveal := reveal
    revealRemainingCount := remaining
    prerequisitesByTaskId := visibleTasks.map fun task ↦
      (task.id, classifyPrerequisites input.tasks matchedIds visibleIds task)
    counts := ⟨input.tasks.length, matched.length, visibleTasks.length, hiddenCompleted.length, hiddenOther.length,
      retained.length, (revealedTaskIds reveal).length⟩
    emptyKind := emptyKindFor visibleTasks.length input.tasks.length matched.length hiddenCompleted.length }

/-- `projectCompletedTaskVisibility` -/
def projectCompletedTaskVisibility (lower : String → String) (input : VisibilityInput) :
    Except FocusCode VisibilityProjection := do
  let matched ← filterWorkspaceTasks lower input.tasks input.filters
  pure (projectMatched input matched)

end WorkStack.Views
