import Mathlib
import WorkStack.Python.Equality
import WorkStack.Python.Sorting
import WorkStack.Service.Domain

/-!
# References to key results

A Task refers to key results by the id of their Objective and their own id. References are kept
sorted and free of duplicates; each of them must name an Objective that is there exactly once, that
the Task is aligned with, and that owns the key result exactly once.
-/

namespace WorkStack.Service

open Effect.Outcome Python

/-- A reference: the id of an Objective and the id of a key result. -/
abbrev KeyResultRef := String × String

def KeyResultRef.toJson (ref : KeyResultRef) : Json :=
  .obj [("objective_id", .str ref.1), ("key_result_id", .str ref.2)]

/-- `canonicalize_key_result_refs` -/
def canonicalizeKeyResultRefs (refs : List KeyResultRef) : List KeyResultRef :=
  refs.dedup.insertionSort fun a b ↦ toLex a ≤ toLex b

/-- The references are sorted, and none is there twice. -/
theorem canonicalizeKeyResultRefs_sorted (refs : List KeyResultRef) :
    (canonicalizeKeyResultRefs refs).Pairwise fun a b ↦ toLex a < toLex b := by
  have hsorted : (canonicalizeKeyResultRefs refs).Pairwise fun a b ↦ toLex a ≤ toLex b :=
    List.pairwise_insertionSort (fun a b : KeyResultRef ↦ toLex a ≤ toLex b) refs.dedup
  have hperm : (canonicalizeKeyResultRefs refs).Perm refs.dedup := List.perm_insertionSort _ _
  have hnodup : (canonicalizeKeyResultRefs refs).Pairwise (· ≠ ·) :=
    hperm.nodup_iff.mpr (List.nodup_dedup refs)
  apply (hsorted.and hnodup).imp
  intro a b h
  exact lt_of_le_of_ne h.1 fun heq ↦ h.2 (toLex.injective heq)

/-! ## Objectives by their ids -/

/-- `_objective_records_by_id` -/
def objectiveRecordsById : List Json → Checked (List (Json × Record))
  | [] => .ok []
  | candidate :: rest => do
      let record ← asRecord candidate
      let id ← field record "id"
      if hashable id then do
        let grouped ← objectiveRecordsById rest
        pure ((id, record) :: grouped)
      else fault "TypeError"

/-- `objectives_by_id.get(objective_id, [])` -/
def recordsWithId (objectives : List (Json × Record)) (id : Json) : List Record :=
  (objectives.filter fun item ↦ Json.same id item.1).map Prod.snd

section Checks

variable (I : Interpreter)

/-- Whether a key result answers to an id, whatever the case of its own and the blanks around it. -/
def hasKeyResultId (id : Json) : Json → Bool
  | .obj record => Json.same (.str (I.upper (I.strip (idText I record)))) id
  | _ => false

/-- `_key_result_match_count` -/
def keyResultMatchCount (objective : Record) (keyResultId : Json) : Checked ℕ := do
  let keyResults ← listAt objective "key_results"
  pure (keyResults.countP (hasKeyResultId I keyResultId))

/-- Whether another Objective owns a key result. -/
def hasOtherOwner (objectives : List (Json × Record)) (objectiveId keyResultId : Json) :
    List (Json × Record) → Checked Bool
  | [] => .ok false
  | (id, record) :: rest => do
      let owns ←
        if ¬Json.same objectiveId id ∧ (recordsWithId objectives id).length = 1 then do
          let owned ← keyResultMatchCount I record keyResultId
          pure (decide (owned = 1))
        else pure false
      let others ← hasOtherOwner objectives objectiveId keyResultId rest
      pure (owns || others)

/-- The Objective of a reference owns its key result exactly once. -/
def requireOwned (objectives : List (Json × Record)) (objective : Record) (objectiveId keyResultId : Json) :
    Checked Unit := do
  let owned ← keyResultMatchCount I objective keyResultId
  if owned = 1 then pure ()
  else if owned ≠ 0 then
    domainError "unknown key result reference" [("key_result_id", keyResultId)]
  else do
    let other ← hasOtherOwner I objectives objectiveId keyResultId objectives
    if other then
      domainError "key result is not owned by the referenced objective"
        [("objective_id", objectiveId), ("key_result_id", keyResultId)]
    else domainError "unknown key result reference" [("key_result_id", keyResultId)]

/-- `validate_key_result_ref_roster` -/
def validateKeyResultRefRoster (objectives : List (Json × Record)) (ref : Json) : Checked Unit := do
  let ref ← asRecord ref
  let objectiveId ← field ref "objective_id"
  let keyResultId ← field ref "key_result_id"
  match recordsWithId objectives objectiveId with
  | [] => domainError "unknown key result reference" [("objective_id", objectiveId)]
  | [objective] => requireOwned I objectives objective objectiveId keyResultId
  | _ =>
      domainError "key result reference objective is not uniquely resolvable"
        [("objective_id", objectiveId)]

/-- One turn of the loop of `validate_resulting_key_result_refs`. -/
def validateResultingRef (objectives : List (Json × Record)) (aligned : List Json) (ref : Json) :
    Checked Unit := do
  let ref ← asRecord ref
  let objectiveId ← field ref "objective_id"
  if ¬hashable objectiveId then fault "TypeError"
  else if ¬aligned.any (Json.same objectiveId) then
    domainError "key result reference parent is not aligned" [("objective_id", objectiveId)]
  else
    match recordsWithId objectives objectiveId with
    | [objective] => do
        let keyResultId ← field ref "key_result_id"
        requireOwned I objectives objective objectiveId keyResultId
    | _ =>
        domainError "key result reference objective is not uniquely resolvable"
          [("objective_id", objectiveId)]

/-- `value or []`, which is iterated. -/
def listOrEmpty (value : Json) : Checked (List Json) := if truthy value then asList value else .ok []

/-- The members of a set are hashable. -/
def requireHashable (values : List Json) : Checked Unit :=
  if values.all hashable then .ok () else fault "TypeError"

/-- `validate_resulting_key_result_refs` -/
def validateResultingKeyResultRefs (objectives : List (Json × Record)) (refs objectiveIds : Json) :
    Checked Unit :=
  match refs with
  | .null => .ok ()
  | refs => do
      let aligned ← listOrEmpty objectiveIds
      requireHashable aligned
      let refs ← asList refs
      refs.forM (validateResultingRef I objectives aligned)

/-! ## Alignment -/

/-- Append the items that are not there yet. -/
def appendUnseen : List Json → List Json → List Json
  | result, [] => result
  | result, item :: rest =>
      appendUnseen (if result.any (Json.same item) then result else result ++ [item]) rest

/-- `ensure_parent_objective_ids` -/
def ensureParentObjectiveIds (objectiveIds refs : List Json) : Checked (List Json) := do
  requireHashable objectiveIds
  let parents ← refs.mapM fun ref ↦ do
    let ref ← asRecord ref
    field ref "objective_id"
  pure (appendUnseen (appendUnseen [] objectiveIds) parents)

/-- The Objectives a patch gives, or else the current ones. -/
def baseObjectiveIds (changes : Record) (current : List Json) : Checked (List Json) :=
  match changes.get "objective_ids" with
  | some given => asList given
  | none => .ok current

/-- The part of `apply_task_outcome_write_invariant` that aligns a Task with the Objectives of the
references it is given. -/
def alignParents (objectives : List (Json × Record)) (changes task : Record) : Checked Record :=
  match changes.get "key_result_refs" with
  | some (.arr (ref :: refs)) => do
      (ref :: refs).forM (validateKeyResultRefRoster I objectives)
      let current ← listOrEmpty (valueAt task "objective_ids")
      let base ← baseObjectiveIds changes current
      let aligned ← ensureParentObjectiveIds base (ref :: refs)
      if (changes.get "objective_ids").isSome ∨ ¬Json.same (.arr aligned) (.arr current) then
        pure (changes.set "objective_ids" (.arr aligned))
      else pure changes
  | _ => .ok changes

/-- `apply_task_outcome_write_invariant`: the changes with the Task's alignment. -/
def applyTaskOutcomeWriteInvariant (objectives : List (Json × Record)) (changes task : Record) :
    Checked Record := do
  let changes ← alignParents I objectives changes task
  validateResultingKeyResultRefs I objectives
    ((changes.get "key_result_refs").getD (valueAt task "key_result_refs"))
    ((changes.get "objective_ids").getD ((task.get "objective_ids").getD (.arr [])))
  pure changes

end Checks

end WorkStack.Service
