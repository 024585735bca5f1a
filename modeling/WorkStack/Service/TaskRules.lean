import WorkStack.Service.OutcomeRefs
import WorkStack.Service.PlanningStatus
import WorkStack.Python.Platform

/-!
# Rules for Tasks

What a new Task and a patch of a Task must look like, decided before any document is written. A patch
is normalized field by field and then validated against the Tasks there are; whether a relationship
would close a cycle is decided by a walk over the relationships of the stored Tasks.
-/

namespace WorkStack.Service

open Effect.Outcome Python

def priorities : List String := ["P0", "P1", "P2", "P3"]

def objectiveStatuses : List String := ["active", "done", "dropped"]

def taskPatchFields : List String :=
  ["title", "detail", "status", "priority", "due", "scheduled", "estimate_minutes", "tags", "objective_ids",
    "parent_id", "dependencies", "key_result_refs", "revision"]

def taskCreateFields : List String :=
  ["title", "detail", "priority", "due", "scheduled", "estimate_minutes", "tags", "objective_ids"]

/-- The names of a dictionary that are not among the known ones, as `sorted(set(record) - known)`. -/
def unknownFields (record : Record) (known : List String) : List String :=
  sortedSet ((Dict.keys record).filter (· ∉ known))

def textsJson (texts : List String) : Json := .arr (texts.map .str)

/-- Whether a value equals one of these texts. -/
def isOneOf (texts : List String) (value : Json) : Bool := texts.any fun text ↦ Json.same (.str text) value

/-- The texts of an array all of whose entries are texts. -/
def textsOf (refusal : ServiceError) : List Json → Checked (List String)
  | [] => .ok []
  | .str text :: rest => do
      let texts ← textsOf refusal rest
      pure (text :: texts)
  | _ :: _ => .error refusal

/-! ## Relationships -/

section Relationships

/-- The Tasks of a backlog by their ids, `{item["id"]: item for item in tasks}`. -/
def recordsById : Dict String Record → List Json → Checked (Dict String Record)
  | indexed, [] => .ok indexed
  | indexed, candidate :: rest => do
      let record ← asRecord candidate
      match ← field record "id" with
      | .str id => recordsById (indexed.set id record) rest
      | _ => fault "TypeError"

/-- The relationships of a Task of one kind. -/
inductive Relationship where
  | parent | dependencies
  deriving DecidableEq

/-- The texts of a list that are not empty. -/
def nonemptyTexts : List Json → List String
  | [] => []
  | .str text :: rest => if text = "" then nonemptyTexts rest else text :: nonemptyTexts rest
  | _ :: rest => nonemptyTexts rest

/-- The Tasks a Task is related to. -/
def relatedTo (kind : Relationship) (task : Record) : Checked (List String) :=
  match kind with
  | .parent =>
      match valueAt task "parent_id" with
      | .str parent => .ok (if parent = "" then [] else [parent])
      | _ => .ok []
  | .dependencies => do
      let dependencies ← listAt task "dependencies"
      pure (nonemptyTexts dependencies)

def relatedCount (kind : Relationship) (task : Record) : ℕ :=
  match relatedTo kind task with
  | .ok related => related.length
  | .error _ => 0

/-- The relationships a walk has not followed yet. -/
def unfollowed (kind : Relationship) (tasks : Dict String Record) (visited : List String) : ℕ :=
  ((tasks.filter fun item ↦ item.1 ∉ visited).map fun item ↦ relatedCount kind item.2).sum

theorem unfollowed_visit_le (kind : Relationship) (tasks : Dict String Record) (visited : List String)
    (current : String) : unfollowed kind tasks (current :: visited) ≤ unfollowed kind tasks visited := by
  induction tasks with
  | nil => simp [unfollowed]
  | cons item rest ih =>
      unfold unfollowed at *
      by_cases hcurrent : item.1 = current
      · by_cases hvisited : item.1 ∈ visited
        · simpa [hcurrent, hcurrent ▸ hvisited] using ih
        · have hnot : current ∉ visited := hcurrent ▸ hvisited
          simp [hcurrent, hnot]
          simp at ih
          omega
      · by_cases hvisited : item.1 ∈ visited
        · simpa [hcurrent, hvisited] using ih
        · simp [hcurrent, hvisited]
          simp at ih
          omega

/-- Following the relationships of a Task uses them up. -/
theorem unfollowed_visit {kind : Relationship} {tasks : Dict String Record} {visited : List String}
    {current : String} {task : Record} (hget : tasks.get current = some task) (hnew : current ∉ visited) :
    relatedCount kind task + unfollowed kind tasks (current :: visited) ≤ unfollowed kind tasks visited := by
  induction tasks with
  | nil => simp at hget
  | cons item rest ih =>
      rw [Dict.get_cons] at hget
      have hle := unfollowed_visit_le kind rest visited current
      unfold unfollowed at *
      by_cases hcurrent : item.1 = current
      · rw [if_pos hcurrent, Option.some.injEq] at hget
        simp [hcurrent, hnew, hget]
        simp at hle
        omega
      · rw [if_neg hcurrent] at hget
        have hrest := ih hget
        by_cases hvisited : item.1 ∈ visited
        · simpa [hcurrent, hvisited] using hrest
        · simp [hcurrent, hvisited]
          simp at hrest
          omega

/-- The loop of `_relationship_reaches`. The last pending Task is the first of the list. -/
def reachesFrom (kind : Relationship) (tasks : Dict String Record) (target : String) (visited : List String)
    (pending : List String) : Checked Bool :=
  match pending with
  | [] => .ok false
  | current :: rest =>
      if current = target then .ok true
      else if _hvisited : current ∈ visited then reachesFrom kind tasks target visited rest
      else
        match _htask : tasks.get current with
        | none => reachesFrom kind tasks target (current :: visited) rest
        | some task =>
            match _hrelated : relatedTo kind task with
            | .error refusal => .error refusal
            | .ok related =>
                reachesFrom kind tasks target (current :: visited) (related.reverse ++ rest)
termination_by pending.length + unfollowed kind tasks visited
decreasing_by
  · simp
  · have hle := unfollowed_visit_le kind tasks visited current
    simp only [List.length_cons]
    omega
  · have hle := @unfollowed_visit kind _ _ _ _ _htask _hvisited
    have hcount : relatedCount kind task = related.length := by simp [relatedCount, _hrelated]
    simp only [List.length_cons, List.length_append, List.length_reverse]
    omega

/-- `_relationship_reaches` -/
def relationshipReaches (kind : Relationship) (tasks : Dict String Record) (startIds : List String)
    (target : String) : Checked Bool :=
  reachesFrom kind tasks target [] startIds.reverse

/-- The ids from which a relationship reaches the target, in their order. -/
def cyclicIds (kind : Relationship) (tasks : Dict String Record) (target : String) :
    List String → Checked (List String)
  | [] => .ok []
  | id :: rest => do
      let reaches ← relationshipReaches kind tasks [id] target
      let cyclic ← cyclicIds kind tasks target rest
      pure (if reaches then id :: cyclic else cyclic)

end Relationships

/-! ## Patches -/

section Patches

variable (I : Interpreter)

/-- Normalize a field the patch has. -/
def normalizeField (name : String) (normalize : Json → Checked Json) (changes : Record) : Checked Record :=
  match changes.get name with
  | some value => do
      let value ← normalize value
      pure (changes.set name value)
  | none => .ok changes

/-- Normalizing a field leaves the others alone. -/
theorem get_normalizeField {name other : String} {normalize : Json → Checked Json} {changes after : Record}
    (h : normalizeField name normalize changes = .ok after) (hne : name ≠ other) :
    after.get other = changes.get other := by
  unfold normalizeField at h
  cases hget : changes.get name with
  | none =>
      rw [hget] at h
      cases h
      rfl
  | some value =>
      rw [hget] at h
      obtain ⟨normal, -, h⟩ := bind_eq_ok.mp h
      cases h
      exact Dict.get_set_of_ne _ hne _

/-- A field is normalized where the patch has it. -/
theorem normalizeField_self {name : String} {normalize : Json → Checked Json} {changes after : Record}
    (h : normalizeField name normalize changes = .ok after) :
    changes.get name = none ∧ after.get name = none ∨
      ∃ value normal, changes.get name = some value ∧ normalize value = .ok normal ∧
        after.get name = some normal := by
  unfold normalizeField at h
  cases hget : changes.get name with
  | none =>
      rw [hget] at h
      cases h
      exact Or.inl ⟨rfl, hget⟩
  | some value =>
      rw [hget] at h
      obtain ⟨normal, hnormal, h⟩ := bind_eq_ok.mp h
      cases h
      exact Or.inr ⟨value, normal, rfl, hnormal, Dict.get_set_self _ _ _⟩

/-- Check a field the patch has. -/
def checkField (name : String) (check : Json → Checked Unit) (changes : Record) : Checked Unit :=
  match changes.get name with
  | some value => check value
  | none => .ok ()

/-- `_normalize_patch_title` -/
def normalizePatchTitle : Record → Checked Record :=
  normalizeField "title" fun
    | .str title => do
        let title ← requiredText I title "title"
        pure (.str title)
    | _ => domainError "title must be a string"

/-- `_normalize_patch_detail` -/
def normalizePatchDetail : Record → Checked Record :=
  normalizeField "detail" fun
    | .str detail => .ok (.str (I.strip detail))
    | _ => domainError "detail must be a string"

/-- `_validate_patch_enums` -/
def validatePatchEnums (changes : Record) : Checked Unit := do
  checkField "status" (fun value ↦
    if isOneOf taskStatuses value then .ok () else domainError "invalid task status") changes
  checkField "priority" (fun value ↦
    if isOneOf priorities value then .ok () else domainError "invalid task priority") changes

/-- `_validate_patch_local_date` -/
def validatePatchLocalDate (name : String) : Json → Checked Unit
  | .null => .ok ()
  | .str text => if isIsoDate text then .ok () else domainError (name ++ " must be an ISO date or null")
  | _ => domainError (name ++ " must be an ISO date or null")

/-- Whether a value is an estimate in minutes. -/
def isEstimate : Json → Bool
  | .int minutes => decide (1 ≤ minutes ∧ minutes ≤ 1440)
  | _ => false

/-- `_validate_patch_estimate` -/
def validatePatchEstimate : Record → Checked Unit :=
  checkField "estimate_minutes" fun
    | .null => .ok ()
    | value =>
        if isEstimate value then .ok ()
        else domainError "estimate_minutes must be null or an integer from 1 to 1440"

/-- `_normalize_patch_scalar_fields` -/
def normalizePatchScalarFields (changes : Record) : Checked Record := do
  let changes ← normalizePatchTitle I changes
  let changes ← normalizePatchDetail I changes
  validatePatchEnums changes
  checkField "due" (validatePatchLocalDate "due") changes
  checkField "scheduled" (validatePatchLocalDate "scheduled") changes
  validatePatchEstimate changes
  pure changes

/-- `_require_patch_array` -/
def requirePatchArray (name : String) : Record → Checked Unit :=
  checkField name fun
    | .arr _ => .ok ()
    | _ => domainError (name ++ " must be an array")

/-- The texts without blanks around them, sorted, without empty ones. -/
def strippedSet (texts : List String) : List String := sortedSet ((texts.map I.strip).filter (· ≠ ""))

/-- The same in upper case. -/
def upperSet (texts : List String) : List String :=
  sortedSet (((texts.filter fun text ↦ I.strip text ≠ "").map fun text ↦ I.upper (I.strip text)))

def entriesRefusal (name : String) : ServiceError :=
  .domain "invalid_request" (name ++ " entries must be strings") []

/-- `_normalize_patch_tags` -/
def normalizePatchTags : Record → Checked Record :=
  normalizeField "tags" fun value ↦ do
    let items ← asList value
    let tags ← textsOf (entriesRefusal "tags") items
    pure (textsJson (strippedSet I tags))

/-- `_normalize_patch_objectives` -/
def normalizePatchObjectives (objectives : List (Json × Record)) : Record → Checked Record :=
  normalizeField "objective_ids" fun value ↦ do
    let items ← asList value
    let ids ← textsOf (entriesRefusal "objective_ids") items
    let missing := (upperSet I ids).filter fun id ↦ (recordsWithId objectives (.str id)).isEmpty
    if missing ≠ [] then domainError "unknown objective ids" [("ids", textsJson missing)]
    else pure (textsJson (upperSet I ids))

/-- `_normalize_patch_dependencies` -/
def normalizePatchDependencies : Record → Checked Record :=
  normalizeField "dependencies" fun value ↦ do
    let items ← asList value
    let ids ← textsOf (entriesRefusal "dependencies") items
    pure (textsJson (upperSet I ids))

/-- `_normalized_ref_id` -/
def normalizedRefId (name : String) : Json → Checked String
  | .str value =>
      if I.upper (I.strip value) = "" then
        domainError ("key_result_refs " ++ name ++ " must not be blank")
      else .ok (I.upper (I.strip value))
  | _ => domainError ("key_result_refs " ++ name ++ " must be a string")

/-- `_normalized_key_result_ref` -/
def normalizedKeyResultRef : Json → Checked KeyResultRef
  | .obj ref =>
      if hasExactly ref ["objective_id", "key_result_id"] then do
        let objectiveId ← normalizedRefId I "objective_id" (valueAt ref "objective_id")
        let keyResultId ← normalizedRefId I "key_result_id" (valueAt ref "key_result_id")
        pure (objectiveId, keyResultId)
      else domainError "key_result_refs entries must be exact scoped pairs"
  | _ => domainError "key_result_refs entries must be exact scoped pairs"

/-- `_normalize_patch_key_result_refs` -/
def normalizePatchKeyResultRefs : Record → Checked Record :=
  normalizeField "key_result_refs" fun value ↦ do
    let items ← asList value
    let refs ← items.mapM (normalizedKeyResultRef I)
    pure (.arr ((canonicalizeKeyResultRefs refs).map KeyResultRef.toJson))

/-- `_normalize_patch_collection_fields` -/
def normalizePatchCollectionFields (objectives : List (Json × Record)) (changes : Record) : Checked Record := do
  requirePatchArray "tags" changes
  requirePatchArray "objective_ids" changes
  requirePatchArray "dependencies" changes
  requirePatchArray "key_result_refs" changes
  let changes ← normalizePatchTags I changes
  let changes ← normalizePatchObjectives I objectives changes
  let changes ← normalizePatchDependencies I changes
  normalizePatchKeyResultRefs I changes

/-- `_validate_patch_dependencies` of normalized dependencies. -/
def validatePatchDependencies (taskId : String) (tasks : Dict String Record) : Record → Checked Unit :=
  checkField "dependencies" fun value ↦ do
    let items ← asList value
    let ids ← textsOf (entriesRefusal "dependencies") items
    let missing := ids.filter fun id ↦ (tasks.get id).isNone
    if missing ≠ [] ∨ taskId ∈ ids then
      domainError "invalid dependency ids" [("ids", textsJson missing)]
    else do
      let cyclic ← cyclicIds .dependencies tasks taskId ids
      if cyclic ≠ [] then
        domainError "dependency relationship would create a cycle" [("ids", textsJson cyclic)]
      else pure ()

/-- `parent.strip().upper() if parent else None` -/
def normalizedParent : Json → Checked (Option String)
  | .null => .ok none
  | .str parent => .ok (if parent = "" then none else some (I.upper (I.strip parent)))
  | _ => domainError "parent_id must be a task ID or null"

def parentJson : Option String → Json
  | none => .null
  | some parent => .str parent

/-- `_normalize_and_validate_patch_parent` -/
def normalizeAndValidatePatchParent (taskId : String) (tasks : Dict String Record) : Record → Checked Record :=
  normalizeField "parent_id" fun value ↦ do
    let parent ← normalizedParent I value
    if parent = some taskId then domainError "invalid parent task"
    else
      match parent with
      | none => pure .null
      | some parent =>
          if parent = "" then pure (.str parent)
          else if (tasks.get parent).isNone then domainError "invalid parent task"
          else do
            let reaches ← relationshipReaches .parent tasks [parent] taskId
            if reaches then
              domainError "parent relationship would create a cycle" [("id", .str parent)]
            else pure (.str parent)

/-- `_patch_change_set`: the changes of a patch, and the status it asks for. -/
def patchChangeSet (patch : Record) (taskId : String) (tasks : Dict String Record)
    (objectives : List (Json × Record)) : Checked (Record × Option Json) := do
  let changes := patch.erase "revision"
  let changes ← normalizePatchScalarFields I changes
  let changes ← normalizePatchCollectionFields I objectives changes
  validatePatchDependencies taskId tasks changes
  let changes ← normalizeAndValidatePatchParent I taskId tasks changes
  pure (changes.erase "status", changes.get "status")

variable {objectives : List (Json × Record)}

/-- The change set of a patch, step by step. -/
theorem patchChangeSet_ok {patch changes : Record} {taskId : String} {tasks : Dict String Record}
    {requested : Option Json} (h : patchChangeSet I patch taskId tasks objectives = .ok (changes, requested)) :
    ∃ scalar collected final, normalizePatchScalarFields I (patch.erase "revision") = .ok scalar ∧
      normalizePatchCollectionFields I objectives scalar = .ok collected ∧
      validatePatchDependencies taskId tasks collected = .ok () ∧
      normalizeAndValidatePatchParent I taskId tasks collected = .ok final ∧
      changes = final.erase "status" ∧ requested = final.get "status" := by
  obtain ⟨scalar, hscalar, h⟩ := bind_eq_ok.mp h
  obtain ⟨collected, hcollected, h⟩ := bind_eq_ok.mp h
  obtain ⟨⟨⟩, hdependencies, h⟩ := bind_eq_ok.mp h
  obtain ⟨final, hfinal, h⟩ := bind_eq_ok.mp h
  cases h
  exact ⟨scalar, collected, final, hscalar, hcollected, hdependencies, hfinal, rfl, rfl⟩

/-- The collections of a patch, field by field. -/
theorem normalizePatchCollectionFields_ok {changes after : Record}
    (h : normalizePatchCollectionFields I objectives changes = .ok after) :
    ∃ tagged aligned related, normalizePatchTags I changes = .ok tagged ∧
      normalizePatchObjectives I objectives tagged = .ok aligned ∧
      normalizePatchDependencies I aligned = .ok related ∧ normalizePatchKeyResultRefs I related = .ok after := by
  obtain ⟨⟨⟩, -, h⟩ := bind_eq_ok.mp h
  obtain ⟨⟨⟩, -, h⟩ := bind_eq_ok.mp h
  obtain ⟨⟨⟩, -, h⟩ := bind_eq_ok.mp h
  obtain ⟨⟨⟩, -, h⟩ := bind_eq_ok.mp h
  obtain ⟨tagged, htagged, h⟩ := bind_eq_ok.mp h
  obtain ⟨aligned, haligned, h⟩ := bind_eq_ok.mp h
  obtain ⟨related, hrelated, h⟩ := bind_eq_ok.mp h
  exact ⟨tagged, aligned, related, htagged, haligned, hrelated, h⟩

/-- The references of a change set are canonical. -/
theorem patchChangeSet_refs {patch changes : Record} {taskId : String} {tasks : Dict String Record}
    {requested : Option Json} (h : patchChangeSet I patch taskId tasks objectives = .ok (changes, requested)) :
    changes.get "key_result_refs" = none ∨ ∃ refs,
      changes.get "key_result_refs" = some (.arr ((canonicalizeKeyResultRefs refs).map KeyResultRef.toJson)) := by
  obtain ⟨scalar, collected, final, -, hcollected, -, hfinal, hchanges, -⟩ := patchChangeSet_ok I h
  obtain ⟨tagged, aligned, related, -, -, -, hrefs⟩ := normalizePatchCollectionFields_ok I hcollected
  have hget : changes.get "key_result_refs" = collected.get "key_result_refs" := by
    rw [hchanges, Dict.get_erase, if_neg (by decide), get_normalizeField hfinal (by decide)]
  rw [hget]
  rcases normalizeField_self hrefs with ⟨-, hnone⟩ | ⟨value, normal, -, hnormal, hsome⟩
  · exact Or.inl hnone
  · obtain ⟨items, -, hnormal⟩ := bind_eq_ok.mp hnormal
    obtain ⟨refs, -, hnormal⟩ := bind_eq_ok.mp hnormal
    cases hnormal
    exact Or.inr ⟨refs, hsome⟩

/-- `_patch_changed_fields` -/
def patchChangedFields (changes : Record) (requested : Option Json) (current : String) : List String :=
  sortedSet (Dict.keys changes) ++
    (match requested with
      | some requested => if Json.same (.str current) requested then [] else ["status"]
      | none => [])

end Patches

end WorkStack.Service
