import WorkStack.Service.Domain

/-!
# Display ids of Tasks

A Task is shown under `T-` and a number. Numbers are never used twice: the largest one that was ever
given out is kept in the workspace document, and the next one is above it and above every Task there is.
-/

namespace WorkStack.Service

open Effect.Outcome Python

/-- `FIELD` -/
def highWaterField : String := "task_display_id_high_water"

/-- `MAX_SAFE_INTEGER` -/
def maxSafeInteger : ℕ := 9007199254740991

/-- `TaskDisplayIdAuthorityError`, by the code of the refusal. -/
def displayIdError {α : Type} (code : String) : Checked α := .error (.domain code code [])

/-- `parse_display_number` -/
def displayNumber (value : Json) : Checked ℕ :=
  match value with
  | .str text =>
      match text.toList with
      | 'T' :: '-' :: digits =>
          if 4 ≤ digits.length then
            match number asciiDigit digits with
            | some n => if n ≤ maxSafeInteger then .ok n else displayIdError "malformed_task_id"
            | none => displayIdError "malformed_task_id"
          else displayIdError "malformed_task_id"
      | _ => displayIdError "malformed_task_id"
  | _ => displayIdError "malformed_task_id"

/-- `format_display_id` of a number in its range. -/
def formatDisplayId (n : ℕ) : String := String.ofList ('T' :: '-' :: zeroPadded 4 n)

/-- `read_optional_high_water` -/
def readOptionalHighWater (workspace : Record) : Checked (Option ℕ) :=
  match workspace.get highWaterField with
  | none => .ok none
  | some (.int value) =>
      if 0 ≤ value ∧ value ≤ (maxSafeInteger : ℤ) then .ok (some value.toNat)
      else displayIdError "high_water_invalid"
  | some _ => displayIdError "high_water_invalid"

/-- `task_ids_from_records` -/
def taskIdsFromRecords : List Json → Checked (List Json)
  | [] => .ok []
  | candidate :: rest => do
      let record ← asRecord candidate
      let ids ← taskIdsFromRecords rest
      pure (valueAt record "id" :: ids)

/-- `roster_numbers`, continuing the numbers seen. -/
def rosterNumbers : List ℕ → List Json → Checked (List ℕ)
  | seen, [] => .ok seen.reverse
  | seen, id :: rest => do
      let n ← displayNumber id
      if n ∈ seen then displayIdError "duplicate_numeric_id" else rosterNumbers (n :: seen) rest

/-- `roster_high_water` -/
def rosterHighWater (ids : List Json) : Checked ℕ := do
  let numbers ← rosterNumbers [] ids
  pure (numbers.foldl max 0)

/-- `admitted_high_water` -/
def admittedHighWater (stored : Option ℕ) (ids : List Json) : Checked ℕ := do
  let live ← rosterHighWater ids
  match stored with
  | none => pure live
  | some stored => if stored < live then displayIdError "high_water_below_live" else pure stored

/-- `allocate_create`: the next id and its number. -/
def allocateCreate (stored : Option ℕ) (ids : List Json) : Checked (String × ℕ) := do
  let current ← admittedHighWater stored ids
  if maxSafeInteger ≤ current then displayIdError "high_water_overflow"
  else pure (formatDisplayId (current + 1), current + 1)

/-- `persist_field` -/
def persistHighWater (workspace : Record) (highWater : ℕ) : Record :=
  workspace.set highWaterField (.int highWater)

/-- `_next_task_display`: the next id, and the workspace document that gives it out. -/
def nextTaskDisplay (workspace : Record) (tasks : List Json) : Checked (String × Record) := do
  let stored ← readOptionalHighWater workspace
  let ids ← taskIdsFromRecords tasks
  let (id, highWater) ← allocateCreate stored ids
  pure (id, persistHighWater workspace highWater)

end WorkStack.Service
