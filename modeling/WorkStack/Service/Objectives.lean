import WorkStack.Service.TaskCommands

/-!
# Commands on Objectives

Objectives have a revision of their own. A write to a key result advances the revision of the
Objective that owns it, and every write leaves an event beside the document.
-/

namespace WorkStack.Service

open Effect.Outcome Python

section Objectives

variable (I : Interpreter)

/-- `_required_text` of any value -/
def requiredValueText (value : Json) (name : String) : Checked String :=
  requiredText I (if truthy value then I.str value else "") name

/-- `value or default`, which is stored. -/
def valueOr (value : Json) (default : String) : Json := if truthy value then value else .str default

/-- `_objective_next_revision` -/
def objectiveNextRevision (objective : Record) (expected : Json) : Checked ℤ :=
  match (objective.get "revision").getD (.int 0) with
  | .int current =>
      if 0 ≤ current ∧ current ≤ maxRevision then
        match expected with
        | .int expected =>
            if expected < 0 then domainError "revision is required and must be a non-negative integer"
            else if expected ≠ current then
              .error (.domain "revision_conflict" "objective revision is stale"
                [("expected", .int current), ("received", .int expected)])
            else if current = maxRevision then
              .error (.domain "revision_exhausted"
                "objective revision cannot advance beyond the safe integer limit"
                [("maximum", .int maxRevision)])
            else .ok (current + 1)
        | _ => domainError "revision is required and must be a non-negative integer"
      else corrupt "persisted objective revision is invalid"
  | _ => corrupt "persisted objective revision is invalid"

/-- `_project_objective` -/
def projectObjective (objective : Record) : Checked Record :=
  match (objective.get "revision").getD (.int 0) with
  | .int revision =>
      if 0 ≤ revision ∧ revision ≤ maxRevision then
        .ok ((objective.set "revision" (.int revision)).set "key_results"
          ((objective.get "key_results").getD (.arr [])))
      else corrupt "persisted objective revision is invalid"
  | _ => corrupt "persisted objective revision is invalid"

/-- The Objectives of the document, `data["objectives"]`. -/
def objectivesOf (okr : Record) : Checked (List Json) := do
  let objectives ← field okr "objectives"
  asList objectives

/-- The documents with a new Objective. -/
def withNewObjective (documents : Documents) (objectives : List Json) (objective activity : Record) :
    Documents :=
  { documents with
    okr := documents.okr.set "objectives" (.arr (objectives ++ [.obj objective])), activity }

/-- The documents with an Objective in place of the one with this index. -/
def withObjective (documents : Documents) (objectives : List Json) (index : ℕ)
    (objective activity : Record) : Documents :=
  { documents with
    okr := documents.okr.set "objectives" (.arr (objectives.set index (.obj objective))), activity }

/-- A new Objective without a revision. -/
def newObjective (objectives : List Json) (clock : Clock) (text quarter : Json) : Checked Record := do
  let id ← nextId I objectives ['O']
  let objective ← requiredValueText I text "objective"
  pure [("id", .str id), ("quarter", quarter), ("objective", .str objective), ("status", .str "active"),
    ("key_results", .arr []), ("created", .str (clock.today 0)), ("updated_at", .str (clock.today 1))]

/-- `add_objective` -/
def addObjective (documents : Documents) (clock : Clock) (currentQuarter text : String)
    (quarter : Option String) : Checked Performed := do
  let objectives ← objectivesOf documents.okr
  let objective ← newObjective I objectives clock (.str text)
    (valueOr (.str (quarter.getD "")) currentQuarter)
  pure ⟨.obj objective, some (withNewObjective documents objectives objective documents.activity)⟩

/-- `create_objective_v1` -/
def createObjective (documents : Documents) (clock : Clock) (currentQuarter : String) (body : Record)
    (key : String) (path : String := "/api/v1/objectives") : Checked Served := do
  validateIdempotencyKey key
  let intent : Intent := ⟨key, "POST", path, I.canonicalDigest (.obj body)⟩
  keyed I documents intent do
    let objectives ← objectivesOf documents.okr
    let quarter ← field body "quarter"
    let text ← field body "objective"
    let objective ← newObjective I objectives clock text (valueOr quarter currentQuarter)
    let objective := objective.set "revision" (.int 0)
    let activity ← recordEvent I documents.activity "objective.created" {}
      [("objective_id", valueAt objective "id"), ("revision", .int 0)] (clock.now 0).utcNow
    let activity ← recordIdempotency activity intent 201 (clock.now 1).utcNow
      (.frozen (freshResponse objective))
    pure ⟨⟨201, freshResponse objective⟩, some (withNewObjective documents objectives objective activity)⟩

/-! ## Key results -/

/-- `value.strip()` of a text -/
def strippedText (value : Json) : Checked String :=
  match value with
  | .str text => .ok (I.strip text)
  | _ => fault "AttributeError"

/-- A new key result of an Objective. -/
def newKeyResult (keyResults : List Json) (text target : Json) : Checked Record := do
  let id ← nextId I keyResults ['K', 'R']
  let text ← requiredValueText I text "text"
  let target ← strippedText I target
  pure [("id", .str id), ("text", .str text), ("target", .str target), ("progress", .int 0),
    ("status", .str "active")]

/-- An Objective that owns a new key result. -/
def withKeyResult (objective : Record) (keyResults : List Json) (keyResult : Record) : Record :=
  objective.set "key_results" (.arr (keyResults ++ [.obj keyResult]))

/-- The event of a write to a key result. -/
def keyResultEvent (activity objective : Record) (eventType : String) (keyResultId : Json)
    (more : Record) (revision : ℤ) (createdAt : String) : Checked Record := do
  let objectiveId ← field objective "id"
  recordEvent I activity eventType {} ([("objective_id", objectiveId), ("key_result_id", keyResultId)] ++
    more ++ [("revision", .int revision)]) createdAt

/-- `add_key_result` -/
def addKeyResult (documents : Documents) (clock : Clock) (objectiveId text target : String) :
    Checked Performed := do
  let objectives ← objectivesOf documents.okr
  let (index, objective) ← find I objectives objectiveId "objective"
  let next ← objectiveNextRevision objective ((objective.get "revision").getD (.int 0))
  let keyResults ← listAt objective "key_results"
  let keyResult ← newKeyResult I keyResults (.str text) (.str target)
  let objective := touched (withKeyResult objective keyResults keyResult) (clock.today 0) next
  let activity ← keyResultEvent I documents.activity objective "key_result.created"
    (valueAt keyResult "id") [] next (clock.now 0).utcNow
  pure ⟨.obj keyResult, some (withObjective documents objectives index objective activity)⟩

/-- `add_key_result_v1` -/
def addKeyResultKeyed (documents : Documents) (clock : Clock) (objectiveId : String) (body : Record)
    (key path : String) : Checked Served := do
  validateIdempotencyKey key
  let intent : Intent := ⟨key, "POST", path, I.canonicalDigest (.obj body)⟩
  keyed I documents intent do
    let objectives ← objectivesOf documents.okr
    let (index, objective) ← find I objectives objectiveId "objective"
    let expected ← field body "revision"
    let next ← objectiveNextRevision objective expected
    let keyResults ← listAt objective "key_results"
    let text ← field body "text"
    let target ← field body "target"
    let keyResult ← newKeyResult I keyResults text target
    let objective := touched (withKeyResult objective keyResults keyResult) (clock.today 0) next
    let activity ← keyResultEvent I documents.activity objective "key_result.created"
      (valueAt keyResult "id") [] next (clock.now 0).utcNow
    let data ← projectObjective objective
    let activity ← recordIdempotency activity intent 201 (clock.now 1).utcNow (.frozen (freshResponse data))
    pure ⟨⟨201, freshResponse data⟩, some (withObjective documents objectives index objective activity)⟩

/-- Change a field that the body gives. -/
def changeField (name : String) (check : Json → Checked Json) (body record : Record) : Checked Record :=
  match body.get name with
  | some value => do
      let value ← check value
      pure (record.set name value)
  | none => .ok record

def admitText (name : String) (value : Json) : Checked Json := do
  let text ← requiredValueText I value name
  pure (.str text)

def admitStatus (refusal : String) (value : Json) : Checked Json :=
  if isOneOf objectiveStatuses value then .ok value else domainError refusal

/-- The fields of a key result that `patch_key_result_v1` changes. -/
def patchedKeyResult (body keyResult : Record) : Checked Record := do
  let keyResult ← changeField "text" (admitText I "text") body keyResult
  let keyResult ← changeField "target" (fun
    | .str target => .ok (.str (I.strip target))
    | _ => domainError "key result target must be a string") body keyResult
  let keyResult ← changeField "progress" (fun
    | .int progress =>
        if 0 ≤ progress ∧ progress ≤ 100 then .ok (.int progress)
        else domainError "key result progress is invalid"
    | _ => domainError "key result progress is invalid") body keyResult
  changeField "status" (admitStatus "key result status is invalid") body keyResult

/-- An Objective with a key result in place of the one with this index. -/
def withKeyResultAt (objective : Record) (keyResults : List Json) (index : ℕ) (keyResult : Record) : Record :=
  objective.set "key_results" (.arr (keyResults.set index (.obj keyResult)))

/-- `patch_key_result_v1` -/
def patchKeyResult (documents : Documents) (clock : Clock) (objectiveId keyResultId : String)
    (body : Record) : Checked Performed := do
  let objectives ← objectivesOf documents.okr
  let (index, objective) ← find I objectives objectiveId "objective"
  let expected ← field body "revision"
  let next ← objectiveNextRevision objective expected
  let keyResults ← listAt objective "key_results"
  let (place, keyResult) ← find I keyResults keyResultId "key result"
  let patched ← patchedKeyResult I body keyResult
  let objective := touched (withKeyResultAt objective keyResults place patched) (clock.today 0) next
  let id ← field patched "id"
  let activity ← keyResultEvent I documents.activity objective "key_result.updated" id
    [("fields", textsJson (unknownFields body ["revision"]))] next (clock.now 0).utcNow
  let projected ← projectObjective objective
  pure ⟨.obj projected, some (withObjective documents objectives index objective activity)⟩

/-- `set_key_result_progress` -/
def setKeyResultProgress (documents : Documents) (clock : Clock) (objectiveId keyResultId : String)
    (progress : ℤ) : Checked Performed := do
  let progress := max 0 (min 100 progress)
  let objectives ← objectivesOf documents.okr
  let (index, objective) ← find I objectives objectiveId "objective"
  let next ← objectiveNextRevision objective ((objective.get "revision").getD (.int 0))
  let keyResults ← listAt objective "key_results"
  let (place, keyResult) ← find I keyResults keyResultId "key result"
  let status := if progress = 100 then "done" else "active"
  let patched := (keyResult.set "progress" (.int progress)).set "status" (.str status)
  let objective := touched (withKeyResultAt objective keyResults place patched) (clock.today 0) next
  let id ← field patched "id"
  let activity ← keyResultEvent I documents.activity objective "key_result.updated" id
    [("prior", .obj [("progress", (keyResult.get "progress").getD (.int 0)),
        ("status", (keyResult.get "status").getD (.str "active"))]),
      ("current", .obj [("progress", .int progress), ("status", .str status)])] next (clock.now 0).utcNow
  pure ⟨.obj patched, some (withObjective documents objectives index objective activity)⟩

/-! ## Objectives -/

/-- The fields of an Objective that `patch_objective_v1` changes. -/
def patchedObjective (body objective : Record) : Checked Record := do
  let objective ← changeField "objective" (admitText I "objective") body objective
  let objective ← changeField "quarter" (admitText I "quarter") body objective
  changeField "status" (admitStatus "invalid objective status") body objective

/-- The event of a patch of an Objective. -/
def objectiveEvent (activity objective body : Record) (id : Json) (revision : ℤ) (createdAt : String) :
    Checked Record :=
  let fields := unknownFields body ["revision"]
  let details : Record := [("objective_id", id), ("fields", textsJson fields), ("revision", .int revision)]
  if fields = ["status"] then
    recordEvent I activity "objective.status_changed" {}
      (details ++ [("prior_status", (objective.get "status").getD (.str "active")),
        ("status", valueAt body "status")]) createdAt
  else recordEvent I activity "objective.updated" {} details createdAt

/-- `patch_objective_v1` -/
def patchObjective (documents : Documents) (clock : Clock) (objectiveId : String) (body : Record) :
    Checked Performed := do
  let objectives ← objectivesOf documents.okr
  let (index, objective) ← find I objectives objectiveId "objective"
  let expected ← field body "revision"
  let next ← objectiveNextRevision objective expected
  let patched ← patchedObjective I body objective
  let patched := touched patched (clock.today 0) next
  let id ← field patched "id"
  let activity ← objectiveEvent I documents.activity objective body id next (clock.now 0).utcNow
  let projected ← projectObjective patched
  pure ⟨.obj projected, some (withObjective documents objectives index patched activity)⟩

/-- `link_task` -/
def linkTask (documents : Documents) (clock : Clock) (objectiveId taskId : String) : Checked Performed := do
  let objectives ← listAt documents.okr "objectives"
  let _ ← find I objectives objectiveId "objective"
  let tasks ← tasksOf documents.backlog
  let (index, task) ← find I tasks taskId "task"
  let next ← nextRevision task
  let linked ← listAt task "objective_ids"
  let links ← textsOf (.fault "TypeError") linked
  let linked := sortedSet (links ++ [I.upper (I.strip objectiveId)])
  let task := touched (task.set "objective_ids" (textsJson linked)) (clock.today 0) next
  pure ⟨.obj task, some (withTask documents tasks index task documents.activity)⟩

end Objectives

end WorkStack.Service
