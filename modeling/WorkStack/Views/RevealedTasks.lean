import WorkStack.Views.CompletedVisibility

/-!
# Hidden Tasks are accounted for

Every Task is visible, or listed as completed, or listed as one that the filters do not match. A prerequisite can be
revealed where it is listed as completed, and revealing the prerequisites of a visible Task shows the first of them and
nothing else.
-/

open WorkStack.Effect.Slots

namespace WorkStack.Views

variable {input : VisibilityInput} {matched : List WorkspaceTask}

/-! ## What the filters show -/

theorem mem_applySessionRetained {visibleIds : List String} {id : String} (h : id ∈ visibleIds) :
    id ∈ applySessionRetained input matched visibleIds := by
  unfold applySessionRetained
  split
  · exact h
  · exact mem_collect.mpr (.inl h)

theorem mem_visibleBeforeReveal {id : String} (h : id ∈ baseVisibleIds input matched) :
    id ∈ visibleBeforeReveal input matched :=
  mem_applySessionRetained (mem_collect.mpr (.inl h))

variable {task : WorkspaceTask}

/-- A matched Task that is not shown is done. -/
theorem isDone_of_hidden (hmatched : task ∈ matched) (h : task.id ∉ visibleBeforeReveal input matched) :
    isDone task = true := by
  by_contra hdone
  apply h
  apply mem_visibleBeforeReveal
  refine List.mem_map_of_mem (List.mem_filter.mpr ⟨hmatched, ?_⟩)
  rw [Bool.not_eq_true] at hdone
  rw [hdone, Bool.and_false, Bool.not_false]

/-! ## The split of the Tasks -/

/-- How the Tasks are accounted for. -/
structure Accounts (input : VisibilityInput) (matched : List WorkspaceTask) (p : VisibilityProjection) : Prop where
  visible : p.visibleTasks.Sublist input.tasks
  hiddenCompleted : p.hiddenCompletedTaskIds.Sublist (input.tasks.map WorkspaceTask.id)
  hiddenOther : p.hiddenOtherTaskIds.Sublist (input.tasks.map WorkspaceTask.id)
  split : (p.visibleTasks.map WorkspaceTask.id ++ p.hiddenCompletedTaskIds ++ p.hiddenOtherTaskIds).Perm
    (input.tasks.map WorkspaceTask.id)
  done : ∀ id ∈ p.hiddenCompletedTaskIds, ∃ task ∈ matched, task.id = id ∧ asTaskStatus task.status = "done"
  revealable : ∀ task ∈ p.visibleTasks, ∃ prerequisites, p.prerequisitesByTaskId.lookup task.id = some prerequisites ∧
    (∀ id ∈ task.dependencies, ∃ prerequisite ∈ prerequisites, prerequisite.id = id) ∧
    ∀ prerequisite ∈ prerequisites, prerequisite.id ∈ task.dependencies ∧
      (prerequisite.revealable = true ↔ prerequisite.id ∈ p.hiddenCompletedTaskIds)

/-- Three exclusive parts of a list are the list. -/
theorem filter_three_perm {α : Type} (p q : α → Bool) (items : List α) :
    (items.filter p ++ (items.filter fun a ↦ !p a && q a == true) ++ items.filter fun a ↦ !p a && q a == false).Perm
      items := by
  have hrest : ((items.filter fun a ↦ !p a && q a == true) ++ items.filter fun a ↦ !p a && q a == false).Perm
      (items.filter fun a ↦ !p a) := by
    have hinner := List.filter_append_perm (fun a ↦ q a == true) (items.filter fun a ↦ !p a)
    simp only [List.filter_filter] at hinner
    refine List.Perm.trans (List.Perm.of_eq ?_) hinner
    congr 1
    · congr 1
      funext a
      exact Bool.and_comm ..
    · congr 1
      funext a
      cases p a <;> cases q a <;> rfl
  rw [List.append_assoc]
  exact (hrest.append_left _).trans (List.filter_append_perm p items)

theorem split_perm (tasks : List WorkspaceTask) (visibleIds matchedIds : List String) :
    ((tasks.filter fun task ↦ visibleIds.contains task.id).map WorkspaceTask.id ++
      hiddenTaskIds tasks visibleIds matchedIds true ++ hiddenTaskIds tasks visibleIds matchedIds false).Perm
        (tasks.map WorkspaceTask.id) := by
  rw [hiddenTaskIds, hiddenTaskIds, ← List.map_append, ← List.map_append]
  exact (filter_three_perm _ (fun task : WorkspaceTask ↦ matchedIds.contains task.id) tasks).map WorkspaceTask.id

variable {tasks : List WorkspaceTask}

theorem mem_hiddenTaskIds {visibleIds matchedIds : List String} {isMatched : Bool} {id : String} :
    id ∈ hiddenTaskIds tasks visibleIds matchedIds isMatched ↔
      id ∈ tasks.map WorkspaceTask.id ∧ id ∉ visibleIds ∧ (id ∈ matchedIds ↔ isMatched = true) := by
  simp only [hiddenTaskIds, List.mem_map, List.mem_filter, Bool.and_eq_true, Bool.not_eq_true', beq_iff_eq,
    List.contains_eq_mem, decide_eq_false_iff_not]
  constructor
  · rintro ⟨task, ⟨htask, hvisible, hmatched⟩, rfl⟩
    exact ⟨⟨task, htask, rfl⟩, hvisible, by rw [← hmatched, decide_eq_true_iff]⟩
  · rintro ⟨⟨task, htask, rfl⟩, hvisible, hmatched⟩
    refine ⟨task, ⟨htask, hvisible, ?_⟩, rfl⟩
    rw [Bool.eq_iff_iff, decide_eq_true_iff]
    exact hmatched

theorem lookup_map_id {β : Type} (hids : (tasks.map WorkspaceTask.id).Nodup) (value : WorkspaceTask → β)
    (h : task ∈ tasks) :
    (tasks.map fun task ↦ (task.id, value task)).lookup task.id = some (value task) := by
  induction tasks with
  | nil => cases h
  | cons first tasks ih =>
      rw [List.map_cons, List.nodup_cons] at hids
      rw [List.map_cons, List.lookup_cons]
      rcases List.mem_cons.mp h with rfl | hmem
      · rw [beq_self_eq_true]
      · have hne : task.id ≠ first.id := fun heq ↦ hids.1 (heq ▸ List.mem_map_of_mem hmem)
        rw [beq_false_of_ne hne]
        exact ih hids.2 hmem

theorem revealable_classifyPrerequisite {matchedIds visibleIds : List String} {id : String} :
    (classifyPrerequisite tasks matchedIds visibleIds id).revealable = true ↔
      id ∈ hiddenTaskIds tasks visibleIds matchedIds true := by
  rw [mem_hiddenTaskIds, ← byId_isSome, classifyPrerequisite]
  dsimp only
  cases hfound : byId tasks id with
  | none => simp
  | some found =>
      by_cases hvisible : id ∈ visibleIds
      · simp [hvisible]
      · by_cases hmatched : id ∈ matchedIds <;> simp [hvisible, hmatched]

theorem mem_uniqueDependencyIds {id : String} :
    id ∈ uniqueDependencyIds task ↔ id ∈ task.dependencies := by
  simp [uniqueDependencyIds, mem_collect]

theorem exists_classified {matchedIds visibleIds : List String} {id : String} (h : id ∈ task.dependencies) :
    ∃ prerequisite ∈ classifyPrerequisites tasks matchedIds visibleIds task, prerequisite.id = id := by
  exact ⟨_, List.mem_map_of_mem (mem_uniqueDependencyIds.mpr h), rfl⟩

theorem mem_visibleIdsOf {id : String} (h : id ∈ visibleBeforeReveal input matched) : id ∈ visibleIdsOf input matched :=
  mem_collect.mpr (.inl h)

/-- Every projection accounts for the Tasks. -/
theorem accounts_projectMatched (hids : (input.tasks.map WorkspaceTask.id).Nodup) :
    Accounts input matched (projectMatched input matched) where
  visible := List.filter_sublist
  hiddenCompleted := List.filter_sublist.map _
  hiddenOther := List.filter_sublist.map _
  split := split_perm ..
  done := by
    intro id hid
    obtain ⟨-, hvisible, hmatched⟩ := mem_hiddenTaskIds.mp hid
    obtain ⟨task, htask, rfl⟩ := List.mem_map.mp (hmatched.mpr rfl)
    have hdone := isDone_of_hidden htask fun hbefore ↦ hvisible (mem_visibleIdsOf hbefore)
    exact ⟨task, htask, rfl, eq_of_beq hdone⟩
  revealable := by
    intro task htask
    have hvisibleIds : ((projectMatched input matched).visibleTasks.map WorkspaceTask.id).Nodup :=
      (List.filter_sublist.map _).nodup hids
    refine ⟨_, lookup_map_id hvisibleIds _ htask, fun id hid ↦ exists_classified hid, ?_⟩
    intro prerequisite hprerequisite
    obtain ⟨id, hid, rfl⟩ := List.mem_map.mp hprerequisite
    exact ⟨mem_uniqueDependencyIds.mp hid, revealable_classifyPrerequisite⟩

/-! ## Revealing prerequisites -/

/-- The request to reveal the prerequisites of an anchor. -/
def VisibilityInput.revealing (input : VisibilityInput) (anchorId : String) (taskIds : List String) : VisibilityInput :=
  { input with prerequisiteAnchorTaskId := some anchorId, reveal := some ⟨anchorId, input.scopeKey, taskIds⟩ }

/-- Requested ids that are all eligible are revealed up to the limit. -/
theorem activeReveals_eq {eligible active taskIds : List String} (heligible : ∀ id ∈ taskIds, id ∈ eligible)
    (hnodup : (active ++ taskIds).Nodup) (hactive : active.length ≤ revealDisplayLimit) :
    activeReveals eligible active taskIds = active ++ taskIds.take (revealDisplayLimit - active.length) := by
  induction taskIds generalizing active with
  | nil => rw [activeReveals, List.take_nil, List.append_nil]
  | cons id taskIds ih =>
      obtain ⟨hid, hothers⟩ := List.forall_mem_cons.mp heligible
      rw [activeReveals]
      by_cases hfull : revealDisplayLimit ≤ active.length
      · rw [if_pos hfull, Nat.sub_eq_zero_of_le hfull, List.take_zero, List.append_nil]
      · have hnew : id ∉ active := fun hmem ↦ (List.nodup_append.mp hnodup).2.2 id hmem id (List.mem_cons_self ..) rfl
        have hsplit : active ++ id :: taskIds = active ++ [id] ++ taskIds := by
          rw [List.append_assoc, List.singleton_append]
        have hlength : (active ++ [id]).length = active.length + 1 := List.length_append
        have hroom : revealDisplayLimit - active.length = revealDisplayLimit - (active ++ [id]).length + 1 := by omega
        rw [if_neg hfull, if_neg (by simp [hid, hnew]), ih hothers (hsplit ▸ hnodup) (by omega), hroom,
          List.take_succ_cons, List.append_assoc, List.singleton_append]

/-- What is eligible is what the classification offers. -/
theorem eligible_eq_revealable (hsub : ∀ task ∈ matched, task ∈ input.tasks)
    (hids : (input.tasks.map WorkspaceTask.id).Nodup) (anchor : WorkspaceTask) :
    eligibleRevealTargets input.tasks (matched.map WorkspaceTask.id) (visibleBeforeReveal input matched) anchor =
      ((classifyPrerequisites input.tasks (matched.map WorkspaceTask.id) (visibleBeforeReveal input matched)
        anchor).filter PrerequisiteClassification.revealable).map PrerequisiteClassification.id := by
  have hback : PrerequisiteClassification.id ∘ classifyPrerequisite input.tasks (matched.map WorkspaceTask.id)
      (visibleBeforeReveal input matched) = id := rfl
  rw [classifyPrerequisites, List.filter_map, List.map_map, hback, List.map_id]
  apply List.filter_congr
  intro id _
  rw [Bool.eq_iff_iff, Function.comp_apply, revealable_classifyPrerequisite, mem_hiddenTaskIds]
  simp only [Bool.and_eq_true, Bool.not_eq_true', List.contains_eq_mem, decide_eq_true_eq, decide_eq_false_iff_not,
    iff_true]
  constructor
  · rintro ⟨⟨hdone, hmatched⟩, hvisible⟩
    refine ⟨byId_isSome.mp ?_, hvisible, hmatched⟩
    cases hfound : byId input.tasks id with
    | none =>
        rw [hfound] at hdone
        cases hdone
    | some found => rfl
  · rintro ⟨-, hvisible, hmatched⟩
    obtain ⟨task, htask, rfl⟩ := List.mem_map.mp hmatched
    have hfound : byId input.tasks task.id = some task := (byId_eq_some hids).mpr ⟨hsub task htask, rfl⟩
    have hdone := isDone_of_hidden htask hvisible
    rw [hfound, Option.any_some]
    exact ⟨⟨hdone, hmatched⟩, hvisible⟩

/-- A reveal for the scope and a visible anchor is granted, up to the limit. -/
theorem resolveReveal_revealing {anchor : WorkspaceTask} {taskIds : List String}
    (hids : (input.tasks.map WorkspaceTask.id).Nodup) (hanchor : anchor ∈ input.tasks) (hne : anchor.id ≠ "")
    (hvisible : anchor.id ∈ visibleBeforeReveal input matched)
    (hperm : taskIds.Perm (eligibleRevealTargets input.tasks (matched.map WorkspaceTask.id)
      (visibleBeforeReveal input matched) anchor)) :
    resolveReveal (input.revealing anchor.id taskIds) matched input.scopeKey (visibleBeforeReveal input matched) =
      (some (⟨anchor.id, input.scopeKey, taskIds.take revealDisplayLimit⟩ : Reveal),
        ((taskIds.drop revealDisplayLimit).length : ℤ)) := by
  have hfound : byId input.tasks anchor.id = some anchor := (byId_eq_some hids).mpr ⟨hanchor, rfl⟩
  have hunique : (uniqueDependencyIds anchor).Nodup := nodup_collect List.nodup_nil
  have hnodup : taskIds.Nodup := hperm.nodup_iff.mpr (hunique.filter _)
  have hactive : activeReveals (eligibleRevealTargets input.tasks (matched.map WorkspaceTask.id)
      (visibleBeforeReveal input matched) anchor) [] taskIds = taskIds.take revealDisplayLimit :=
    activeReveals_eq (fun id hid ↦ hperm.subset hid) hnodup (Nat.zero_le _)
  have hname : (some anchor.id).filter (· ≠ "") = some anchor.id := by simp [hne]
  simp only [resolveReveal, VisibilityInput.revealing, hname, hfound, hactive]
  rw [if_neg (by simp), if_neg (by simpa using hvisible), ← hperm.length_eq, List.length_take, List.length_drop]
  congr 1
  omega

/-- What a reveal changes: the first of the prerequisites are shown and nothing else, and the rest are counted. -/
structure Reveals (input : VisibilityInput) (taskIds : List String) (p revealed : VisibilityProjection) : Prop where
  shown : ∀ task, task ∈ revealed.visibleTasks ↔
    task ∈ p.visibleTasks ∨ task ∈ input.tasks ∧ task.id ∈ taskIds.take revealDisplayLimit
  hidden : ∀ id ∈ taskIds.take revealDisplayLimit,
    id ∉ p.visibleTasks.map WorkspaceTask.id ∧ id ∈ revealed.visibleTasks.map WorkspaceTask.id
  remaining : revealed.revealRemainingCount = (taskIds.drop revealDisplayLimit).length

theorem visibleIdsOf_of_none (h : input.reveal = none) :
    visibleIdsOf input matched = visibleBeforeReveal input matched := by
  have hnone : resolveReveal input matched input.scopeKey (visibleBeforeReveal input matched) = (none, 0) := by
    rw [resolveReveal, h]
  rw [visibleIdsOf, hnone]
  rfl

theorem mem_visibleTasks :
    task ∈ (projectMatched input matched).visibleTasks ↔ task ∈ input.tasks ∧ task.id ∈ visibleIdsOf input matched := by
  rw [projectMatched, List.mem_filter, List.contains_eq_mem, decide_eq_true_iff]

theorem reveals_projectMatched (hids : (input.tasks.map WorkspaceTask.id).Nodup)
    (hsub : ∀ task ∈ matched, task ∈ input.tasks) (hnone : input.reveal = none) {anchor : WorkspaceTask}
    (hanchor : anchor ∈ (projectMatched input matched).visibleTasks) (hne : anchor.id ≠ "") {taskIds : List String}
    {prerequisites : List PrerequisiteClassification}
    (hprerequisites : (projectMatched input matched).prerequisitesByTaskId.lookup anchor.id = some prerequisites)
    (hperm : taskIds.Perm ((prerequisites.filter PrerequisiteClassification.revealable).map
      PrerequisiteClassification.id)) :
    Reveals input taskIds (projectMatched input matched)
      (projectMatched (input.revealing anchor.id taskIds) matched) := by
  have hbefore : visibleIdsOf input matched = visibleBeforeReveal input matched := visibleIdsOf_of_none hnone
  obtain ⟨hcanonical, hvisible⟩ := mem_visibleTasks.mp hanchor
  rw [hbefore] at hvisible
  have hclassified : prerequisites = classifyPrerequisites input.tasks (matched.map WorkspaceTask.id)
      (visibleBeforeReveal input matched) anchor := by
    have hnodup : ((projectMatched input matched).visibleTasks.map WorkspaceTask.id).Nodup :=
      (List.filter_sublist.map _).nodup hids
    have hlookup := lookup_map_id hnodup (classifyPrerequisites input.tasks (matched.map WorkspaceTask.id)
      (visibleIdsOf input matched)) hanchor
    rw [← hbefore]
    exact Option.some.inj (hprerequisites.symm.trans hlookup)
  rw [hclassified, ← eligible_eq_revealable hsub hids] at hperm
  have hreveal := resolveReveal_revealing hids hcanonical hne hvisible hperm
  have hids' (id : String) : id ∈ visibleIdsOf (input.revealing anchor.id taskIds) matched ↔
      id ∈ visibleBeforeReveal input matched ∨ id ∈ taskIds.take revealDisplayLimit := by
    change id ∈ collect (fun _ ↦ true) (visibleBeforeReveal input matched) (revealedTaskIds (resolveReveal
      (input.revealing anchor.id taskIds) matched input.scopeKey (visibleBeforeReveal input matched)).1) ↔ _
    rw [hreveal, mem_collect]
    simp [revealedTaskIds]
  have hshown (task : WorkspaceTask) :
      task ∈ (projectMatched (input.revealing anchor.id taskIds) matched).visibleTasks ↔ task ∈ input.tasks ∧
        (task.id ∈ visibleBeforeReveal input matched ∨ task.id ∈ taskIds.take revealDisplayLimit) := by
    rw [mem_visibleTasks, hids']
    rfl
  constructor
  · intro task
    rw [hshown, mem_visibleTasks, hbefore, and_or_left]
  · intro id hid
    have heligible := hperm.subset (List.mem_of_mem_take hid)
    simp only [eligibleRevealTargets, List.mem_filter, Bool.and_eq_true, Bool.not_eq_true', List.contains_eq_mem,
      decide_eq_true_eq, decide_eq_false_iff_not] at heligible
    obtain ⟨-, ⟨-, hmatched⟩, hhidden⟩ := heligible
    obtain ⟨task, htask, rfl⟩ := List.mem_map.mp hmatched
    constructor
    · intro hmem
      obtain ⟨other, hother, hsame⟩ := List.mem_map.mp hmem
      rw [mem_visibleTasks, hbefore, hsame] at hother
      exact hhidden hother.2
    · exact List.mem_map_of_mem ((hshown task).mpr ⟨hsub task htask, .inr hid⟩)
  · exact congrArg Prod.snd hreveal

/-- Where the filter can read its day, every Task is accounted for, and revealing the prerequisites of a visible Task
with an id shows the first of them and nothing else. -/
theorem completed_tasks_accounted (lower : String → String) (input : VisibilityInput)
    (hids : (input.tasks.map WorkspaceTask.id).Nodup) (hdates : input.filters.ReadsDates) :
    ∃ matched p, filterWorkspaceTasks lower input.tasks input.filters = .ok matched ∧
      projectCompletedTaskVisibility lower input = .ok p ∧ Accounts input matched p ∧
      ∀ anchor ∈ p.visibleTasks, anchor.id ≠ "" → input.reveal = none → ∀ (taskIds : List String)
        (prerequisites : List PrerequisiteClassification), p.prerequisitesByTaskId.lookup anchor.id = some prerequisites →
        taskIds.Perm ((prerequisites.filter PrerequisiteClassification.revealable).map PrerequisiteClassification.id) →
          ∃ revealed, projectCompletedTaskVisibility lower (input.revealing anchor.id taskIds) = .ok revealed ∧
            Reveals input taskIds p revealed := by
  obtain ⟨matched, hmatched⟩ := filterWorkspaceTasks_of_readsDates lower hdates input.tasks
  have hsub : ∀ task ∈ matched, task ∈ input.tasks := by
    rw [keepTasks_eq_ok hmatched]
    exact fun task htask ↦ (List.mem_filter.mp htask).1
  have hproject (anchorId : String) (taskIds : List String) :
      projectCompletedTaskVisibility lower (input.revealing anchorId taskIds) =
        .ok (projectMatched (input.revealing anchorId taskIds) matched) := by
    change (filterWorkspaceTasks lower input.tasks input.filters >>= fun matched ↦
      .ok (projectMatched (input.revealing anchorId taskIds) matched)) = _
    rw [hmatched]
    rfl
  refine ⟨matched, projectMatched input matched, hmatched, ?_, accounts_projectMatched hids, ?_⟩
  · rw [projectCompletedTaskVisibility, hmatched]
    rfl
  · intro anchor hanchor hne hnone taskIds prerequisites hprerequisites hperm
    exact ⟨_, hproject anchor.id taskIds,
      reveals_projectMatched hids hsub hnone hanchor hne hprerequisites hperm⟩

/-! ## A prerequisite that is done -/

/-- A Task that waits for one that is done. -/
def waitingTasks (id : String) : List WorkspaceTask :=
  [⟨id, "Paint", none, some "started", none, none, [], [], [], ["T-0002"]⟩,
    ⟨"T-0002", "Plaster", none, some "done", none, none, [], [], [], []⟩]

def waitingInput (id : String) : VisibilityInput where
  tasks := waitingTasks id
  filters := {}
  view := .table

theorem waiting_prerequisite_revealed : ((waitingInput "T-0001").tasks.map WorkspaceTask.id).Nodup ∧
    ∃ p, projectCompletedTaskVisibility id (waitingInput "T-0001") = .ok p ∧
      ∃ revealed, projectCompletedTaskVisibility id ((waitingInput "T-0001").revealing "T-0001" ["T-0002"]) =
        .ok revealed ∧ Reveals (waitingInput "T-0001") ["T-0002"] p revealed := by
  have hids : ((waitingInput "T-0001").tasks.map WorkspaceTask.id).Nodup := by decide
  have hdates : (waitingInput "T-0001").filters.ReadsDates := .inl (by decide)
  have hproject : projectCompletedTaskVisibility id (waitingInput "T-0001") =
      .ok (projectMatched (waitingInput "T-0001") (waitingTasks "T-0001")) := by rfl
  obtain ⟨matched, p, -, hp, -, hreveals⟩ := completed_tasks_accounted id (waitingInput "T-0001") hids hdates
  have hvalue := Except.ok.inj (hproject.symm.trans hp)
  have hanchor : (waitingTasks "T-0001")[0] ∈ p.visibleTasks := by
    rw [← hvalue]
    decide
  have hlookup : p.prerequisitesByTaskId.lookup "T-0001" = some [⟨"T-0002", .completed, true⟩] := by
    rw [← hvalue]
    decide
  exact ⟨hids, p, hp, hreveals _ hanchor (by decide) rfl ["T-0002"] _ hlookup (List.Perm.refl _)⟩

/-- A visible Task without an id reveals nothing, though its prerequisite could be revealed, and no filter can tell
what is soon due on the last day of the calendar. -/
theorem nameless_anchor_reveals_nothing :
    ((waitingInput "").tasks.map WorkspaceTask.id).Nodup ∧
      (∃ p revealed, projectCompletedTaskVisibility id (waitingInput "") = .ok p ∧
        p.visibleTasks.map WorkspaceTask.id = [""] ∧
        p.prerequisitesByTaskId.lookup "" = some [⟨"T-0002", .completed, true⟩] ∧
        projectCompletedTaskVisibility id ((waitingInput "").revealing "" ["T-0002"]) = .ok revealed ∧
        revealed.visibleTasks.map WorkspaceTask.id = [""]) ∧
      projectCompletedTaskVisibility id { waitingInput "T-0001" with
        filters := { timing := some "soon", today := some "9999-12-31" } } = .error .invalidCalendarDate := by
  refine ⟨by decide, ⟨projectMatched (waitingInput "") (waitingTasks ""), projectMatched
    ((waitingInput "").revealing "" ["T-0002"]) (waitingTasks ""), by rfl, by decide, by decide, by rfl, by decide⟩, ?_⟩
  rfl

end WorkStack.Views
