import WorkStack.Python.Decoding
import WorkStack.Python.Platform

/-!
# The contract of checkpoint transitions

A checkpoint is a recorded entry of the worklog, and a transition supersedes it or restores it. The
contract is given the entries, each with the slot it physically has and the fact that was recorded of it,
and the transitions in the order they were met. It reads all of them before it decides anything, then
compares every binding, and only then looks at what must be unique and at the histories.
-/

open WorkStack.Python WorkStack.Python.Decoding

namespace WorkStack.Checkpoints

/-! ## Refusals -/

/-- The codes of `CheckpointTransitionError` that a projection may end in. -/
inductive Code where
  | malformed
  | locatorMismatch
  | historyInvalid
  deriving DecidableEq, Repr

abbrev Checked := Except Code

/-- What cannot be read is malformed, whatever of it cannot. -/
def orMalformed {α : Type} (value : Option α) : Checked α := value.elim (.error .malformed) .ok

/-- A list of values, each of which has to be read. -/
def readAll {α β : Type} (read : α → Option β) (values : List α) : Option (List β) :=
  if values.all fun value ↦ (read value).isSome then some (values.filterMap read) else none

/-! ## Values -/

def maxInteger : ℤ := 9007199254740991

/-- `_text` -/
def text : Json → Option String
  | .str value => some value
  | _ => none

/-- `_int_in` -/
def intIn (low high : ℤ) : Json → Option ℤ
  | .int value => if low ≤ value ∧ value ≤ high then some value else none
  | _ => none

/-- `_fields` -/
def fieldsOf (names : List String) : Json → Option Fields
  | .obj fields => if hasKeys names fields then some fields else none
  | _ => none

/-- `_pattern`, by what the pattern accepts. -/
def pattern (accepts : String → Bool) (value : Json) : Option String := (text value).filter accepts

def isLowerHex (c : Char) : Bool := c.isDigit || ('a' ≤ c && c ≤ 'f')

/-- `T-[0-9]{4,}` -/
def isTaskId (value : String) : Bool :=
  match value.toList with
  | 'T' :: '-' :: digits => 4 ≤ digits.length && digits.all Char.isDigit
  | _ => false

/-- `CP-[0-9a-f]{64}` -/
def isCheckpointId (value : String) : Bool :=
  match value.toList with
  | 'C' :: 'P' :: '-' :: digits => digits.length == 64 && digits.all isLowerHex
  | _ => false

/-- `sha256:[0-9a-f]{64}` -/
def isEntryDigest (value : String) : Bool :=
  "sha256:".toList.isPrefixOf value.toList && (value.toList.drop 7).length == 64 &&
    (value.toList.drop 7).all isLowerHex

/-- `_calendar_date` -/
def calendarDate : Json → Option String := pattern isIsoDate

def originName : String := "agent-cli-v1"

/-- `_origin` -/
def readOrigin : Json → Option (Option String)
  | .null => some none
  | value => (pattern (· == originName) value).map some

inductive CheckpointState where
  | active | superseded
  deriving DecidableEq, Repr

def CheckpointState.name : CheckpointState → String
  | .active => "active"
  | .superseded => "superseded"

/-- `_state` -/
def readState : Json → Option CheckpointState
  | .str "active" => some .active
  | .str "superseded" => some .superseded
  | _ => none

/-- The codes of a reason for a state. -/
def reasonCodes : CheckpointState → List String
  | .superseded => ["incorrect", "duplicate", "obsolete"]
  | .active => ["restore"]

/-- The outer type of a transition into a state. -/
def transitionType : CheckpointState → String
  | .superseded => "worklog.superseded"
  | .active => "worklog.restored"

def recordedType : String := "worklog.recorded"

/-! ## Facts and transitions -/

/-- Where an entry is: its workspace and task, its slot, and the digest of what it holds. -/
structure Locator where
  workspaceUid : String
  taskId : Option String
  date : String
  ordinal : ℤ
  entryDigest : Option String
  deriving DecidableEq, Repr

/-- A recorded fact. -/
structure Recorded where
  workspaceUid : String
  taskId : String
  checkpointId : String
  date : String
  ordinal : ℤ
  entryDigest : String
  origin : Option String
  deriving DecidableEq, Repr

structure Reason where
  code : String
  explanation : String
  deriving DecidableEq, Repr

/-- A transition of a checkpoint. -/
structure TransitionEvent where
  workspaceUid : String
  taskId : String
  checkpointId : String
  date : String
  ordinal : ℤ
  entryDigest : String
  state : CheckpointState
  revision : ℤ
  reason : Reason
  origin : Option String
  deriving DecidableEq, Repr

/-- `_recorded_locator` -/
def Recorded.locator (recorded : Recorded) : Locator :=
  ⟨recorded.workspaceUid, some recorded.taskId, recorded.date, recorded.ordinal, some recorded.entryDigest⟩

/-- The locator that a transition names. -/
def TransitionEvent.locator (event : TransitionEvent) : Locator :=
  ⟨event.workspaceUid, some event.taskId, event.date, event.ordinal, some event.entryDigest⟩

def locatorKeys : List String := ["workspace_uid", "task_id", "date", "ordinal", "entry_digest"]

def recordedKeys : List String :=
  ["type", "workspace_uid", "task_id", "checkpoint_id", "date", "ordinal", "entry_digest", "origin"]

def eventKeys : List String :=
  ["type", "workspace_uid", "task_id", "checkpoint_id", "date", "ordinal", "entry_digest", "state", "revision",
    "reason", "origin"]

section Reading

variable (P : Platform)

/-- `_workspace_uid` -/
def workspaceUid : Json → Option String := pattern P.isRfc4122Uuid

/-- `_reason` and `_reason_for_state` of a reason that is not normalized. -/
def readReason (state : CheckpointState) (value : Json) : Option Reason := do
  let fields ← fieldsOf ["code", "explanation"] value
  let code ← pattern (reasonCodes state).contains (item fields "code")
  let explanation ← text (item fields "explanation")
  guard (P.strip explanation = explanation)
  guard (1 ≤ explanation.length ∧ explanation.length ≤ 240)
  guard ((Json.utf8 explanation.toList).length ≤ 1024)
  return ⟨code, explanation⟩

/-- A coordinate that only a row nobody recorded may lack. -/
def optionalPattern (legacy : Bool) (accepts : String → Bool) (value : Json) : Option (Option String) :=
  match legacy, value with
  | true, .null => some none
  | _, value => (pattern accepts value).map some

/-- `_locator` -/
def readLocator (legacy : Bool) (value : Json) : Option Locator := do
  let fields ← fieldsOf locatorKeys value
  let taskId ← optionalPattern legacy isTaskId (item fields "task_id")
  let entryDigest ← optionalPattern legacy isEntryDigest (item fields "entry_digest")
  let uid ← workspaceUid P (item fields "workspace_uid")
  let date ← calendarDate (item fields "date")
  let ordinal ← intIn 0 maxInteger (item fields "ordinal")
  return ⟨uid, taskId, date, ordinal, entryDigest⟩

/-- `_recorded` -/
def readRecorded (value : Json) : Option Recorded := do
  let fields ← fieldsOf recordedKeys value
  let _ ← pattern (· == recordedType) (item fields "type")
  let uid ← workspaceUid P (item fields "workspace_uid")
  let taskId ← pattern isTaskId (item fields "task_id")
  let checkpointId ← pattern isCheckpointId (item fields "checkpoint_id")
  let date ← calendarDate (item fields "date")
  let ordinal ← intIn 0 maxInteger (item fields "ordinal")
  let entryDigest ← pattern isEntryDigest (item fields "entry_digest")
  let origin ← readOrigin (item fields "origin")
  return ⟨uid, taskId, checkpointId, date, ordinal, entryDigest, origin⟩

/-- `_event` -/
def readEvent (value : Json) : Option TransitionEvent := do
  let fields ← fieldsOf eventKeys value
  let state ← readState (item fields "state")
  let _ ← pattern (· == transitionType state) (item fields "type")
  let revision ← intIn 1 maxInteger (item fields "revision")
  let reason ← readReason P state (item fields "reason")
  let uid ← workspaceUid P (item fields "workspace_uid")
  let taskId ← pattern isTaskId (item fields "task_id")
  let checkpointId ← pattern isCheckpointId (item fields "checkpoint_id")
  let date ← calendarDate (item fields "date")
  let ordinal ← intIn 0 maxInteger (item fields "ordinal")
  let entryDigest ← pattern isEntryDigest (item fields "entry_digest")
  let origin ← readOrigin (item fields "origin")
  return ⟨uid, taskId, checkpointId, date, ordinal, entryDigest, state, revision, reason, origin⟩

end Reading

/-! ## The projection context -/

/-- An entry with the locator it physically has and the fact that claims it, if one does. -/
structure Wrapper (α : Type) where
  locator : Json
  recorded : Option Json
  entry : α

structure Context (α : Type) where
  workspaceUid : String
  entries : List (Wrapper α)
  transitions : List Json

/-- A wrapper that was read. -/
structure Row (α : Type) where
  locator : Locator
  recorded : Option Recorded
  entry : α

def Row.checkpointId {α : Type} (row : Row α) : Option String := row.recorded.map Recorded.checkpointId

def Row.slot {α : Type} (row : Row α) : String × String × ℤ :=
  (row.locator.workspaceUid, row.locator.date, row.locator.ordinal)

section Projecting

variable (P : Platform) {α : Type}

/-- `_wrapper_row` -/
def readWrapper (wrapper : Wrapper α) : Option (Row α) :=
  match wrapper.recorded with
  | none => do
      let locator ← readLocator P true wrapper.locator
      return ⟨locator, none, wrapper.entry⟩
  | some details => do
      let locator ← readLocator P false wrapper.locator
      let recorded ← readRecorded P details
      return ⟨locator, some recorded, wrapper.entry⟩

/-- `_bind_rows` of one row -/
def bindsRow (uid : String) (row : Row α) : Bool :=
  row.locator.workspaceUid == uid && row.recorded.all fun recorded ↦ decide (recorded.locator = row.locator)

/-- `_bind_transitions` of one transition -/
def bindsTransition (uid : String) (rows : List (Row α)) (event : TransitionEvent) : Bool :=
  event.workspaceUid == uid &&
    rows.any fun row ↦ row.checkpointId == some event.checkpointId && decide (event.locator = row.locator)

/-- `_check_uniqueness` -/
def areUnique (rows : List (Row α)) : Bool :=
  decide ((rows.map Row.slot).Nodup ∧ (rows.filterMap Row.checkpointId).Nodup)

/-- The transitions of a checkpoint in the order they were met. -/
def historyOf (events : List TransitionEvent) (checkpointId : String) : List TransitionEvent :=
  events.filter fun event ↦ event.checkpointId == checkpointId

/-- The state that belongs to a revision. -/
def stateOfRevision (revision : ℕ) : CheckpointState := if revision % 2 = 1 then .superseded else .active

/-- `_check_history` of one checkpoint, from one index on -/
def isContiguous : ℕ → List TransitionEvent → Bool
  | _, [] => true
  | index, event :: events =>
      event.revision == (index + 1 : ℕ) && event.state == stateOfRevision (index + 1) && isContiguous (index + 1) events

/-- `_check_history` -/
def areContiguous (events : List TransitionEvent) : Bool :=
  events.all fun event ↦ isContiguous 0 (historyOf events event.checkpointId)

/-- The rows and the transitions of a context, as far as they can be read. -/
def readContext (context : Context α) : Option (List (Row α) × List TransitionEvent) := do
  guard (P.isRfc4122Uuid context.workspaceUid)
  let rows ← readAll (readWrapper P) context.entries
  let events ← readAll (readEvent P) context.transitions
  return (rows, events)

/-- `_wrappers`: syntax, then every binding, then uniqueness and the histories. -/
def wrappers (context : Context α) : Checked (List (Row α) × List TransitionEvent) := do
  let (rows, events) ← orMalformed (readContext P context)
  check (rows.all (bindsRow context.workspaceUid)) .locatorMismatch
  check (events.all (bindsTransition context.workspaceUid rows)) .locatorMismatch
  check (areUnique rows) .historyInvalid
  check (areContiguous events) .historyInvalid
  return (rows, events)

/-- The transitions that a row is bound to. -/
def Row.transitions (events : List TransitionEvent) (row : Row α) : List TransitionEvent :=
  match row.checkpointId with
  | some checkpointId => historyOf events checkpointId
  | none => []

/-- The state and the revision that a history leads to. -/
def stateAfter (history : List TransitionEvent) : CheckpointState :=
  (history.getLast?.map TransitionEvent.state).getD .active

def revisionAfter (history : List TransitionEvent) : ℤ := (history.getLast?.map TransitionEvent.revision).getD 0

/-- `project_active_entries` -/
def projectActiveEntries (context : Context α) : Checked (List α) := do
  let (rows, events) ← wrappers P context
  return (rows.filter fun row ↦ stateAfter (row.transitions events) == .active).map Row.entry

/-- One entry of the audit. -/
structure AuditEntry (α : Type) where
  locator : Locator
  checkpointId : Option String
  entry : α
  recorded : Option Recorded
  state : CheckpointState
  revision : ℤ
  transitions : List TransitionEvent

/-- The entry of the audit that a row becomes. -/
def auditEntry (events : List TransitionEvent) (row : Row α) : AuditEntry α :=
  let history := row.transitions events
  ⟨row.locator, row.checkpointId, row.entry, row.recorded, stateAfter history, revisionAfter history, history⟩

/-- `build_audit_view` -/
def buildAuditView (context : Context α) : Checked (List (AuditEntry α)) := do
  let (rows, events) ← wrappers P context
  return rows.map (auditEntry events)

/-- `verify_locator` -/
def verifyLocator (uid checkpointId recorded actual : Json) : Checked Locator := do
  let (uid, checkpointId, recorded, actual) ← orMalformed do
    let uid ← workspaceUid P uid
    let checkpointId ← pattern isCheckpointId checkpointId
    let recorded ← readRecorded P recorded
    let actual ← readLocator P false actual
    return (uid, checkpointId, recorded, actual)
  check (uid == recorded.workspaceUid && checkpointId == recorded.checkpointId) .locatorMismatch
  check (decide (recorded.locator = actual)) .locatorMismatch
  return recorded.locator

end Projecting

/-! ## What was read -/

variable {value : Json}

theorem text_eq_some {result : String} : text value = some result ↔ value = .str result := by
  cases value <;> simp [text]

theorem pattern_eq_some {accepts : String → Bool} {result : String} :
    pattern accepts value = some result ↔ value = .str result ∧ accepts result = true := by
  simp [pattern, Option.filter_eq_some_iff, text_eq_some]

theorem intIn_eq_some {low high : ℤ} {result : ℤ} :
    intIn low high value = some result ↔ value = .int result ∧ low ≤ result ∧ result ≤ high := by
  cases value with
  | int number =>
      simp only [intIn, Option.ite_none_right_eq_some, Option.some.injEq, Json.int.injEq]
      constructor
      · rintro ⟨hbounds, rfl⟩
        exact ⟨rfl, hbounds⟩
      · rintro ⟨rfl, hbounds⟩
        exact ⟨hbounds, rfl⟩
  | _ => simp [intIn]

theorem fieldsOf_eq_some {names : List String} {fields : Fields} :
    fieldsOf names value = some fields ↔ value = .obj fields ∧ hasKeys names fields = true := by
  cases value with
  | obj entries =>
      simp only [fieldsOf, Option.ite_none_right_eq_some, Option.some.injEq, Json.obj.injEq]
      constructor
      · rintro ⟨hkeys, rfl⟩
        exact ⟨rfl, hkeys⟩
      · rintro ⟨rfl, hkeys⟩
        exact ⟨hkeys, rfl⟩
  | _ => simp [fieldsOf]

variable {P : Platform}

/-- What a transition says is what its document says. -/
theorem readEvent_eq_some {event : TransitionEvent} (h : readEvent P value = some event) :
    ∃ fields, value = .obj fields ∧ readState (item fields "state") = some event.state ∧
      item fields "workspace_uid" = .str event.workspaceUid ∧ item fields "task_id" = .str event.taskId ∧
      item fields "checkpoint_id" = .str event.checkpointId ∧ item fields "date" = .str event.date ∧
      item fields "ordinal" = .int event.ordinal ∧ item fields "entry_digest" = .str event.entryDigest := by
  simp only [readEvent, Option.bind_eq_bind, Option.bind_eq_some_iff, Option.pure_def, Option.some.injEq,
    fieldsOf_eq_some, pattern_eq_some, intIn_eq_some, workspaceUid, calendarDate] at h
  obtain ⟨fields, ⟨rfl, -⟩, state, hstate, -, -, revision, -, reason, -, uid, ⟨huid, -⟩, taskId, ⟨htask, -⟩,
    checkpointId, ⟨hcheckpoint, -⟩, date, ⟨hdate, -⟩, ordinal, ⟨hordinal, -⟩, digest, ⟨hdigest, -⟩, origin, -, rfl⟩ := h
  exact ⟨fields, rfl, hstate, huid, htask, hcheckpoint, hdate, hordinal, hdigest⟩

/-- What a fact says is what its document says. -/
theorem readRecorded_eq_some {recorded : Recorded} (h : readRecorded P value = some recorded) :
    ∃ fields, value = .obj fields ∧ item fields "workspace_uid" = .str recorded.workspaceUid ∧
      item fields "task_id" = .str recorded.taskId ∧ item fields "checkpoint_id" = .str recorded.checkpointId ∧
      item fields "date" = .str recorded.date ∧ item fields "ordinal" = .int recorded.ordinal ∧
      item fields "entry_digest" = .str recorded.entryDigest := by
  simp only [readRecorded, Option.bind_eq_bind, Option.bind_eq_some_iff, Option.pure_def, Option.some.injEq,
    fieldsOf_eq_some, pattern_eq_some, intIn_eq_some, workspaceUid, calendarDate] at h
  obtain ⟨fields, ⟨rfl, -⟩, -, -, uid, ⟨huid, -⟩, taskId, ⟨htask, -⟩, checkpointId, ⟨hcheckpoint, -⟩, date,
    ⟨hdate, -⟩, ordinal, ⟨hordinal, -⟩, digest, ⟨hdigest, -⟩, origin, -, rfl⟩ := h
  exact ⟨fields, rfl, huid, htask, hcheckpoint, hdate, hordinal, hdigest⟩

theorem readRecorded_checkpointId {recorded : Recorded} (h : readRecorded P value = some recorded) :
    isCheckpointId recorded.checkpointId = true := by
  simp only [readRecorded, Option.bind_eq_bind, Option.bind_eq_some_iff, Option.pure_def, Option.some.injEq,
    pattern_eq_some] at h
  obtain ⟨-, -, -, -, -, -, -, -, checkpointId, ⟨-, hid⟩, -, -, -, -, -, -, -, -, rfl⟩ := h
  exact hid

theorem readEvent_revision {event : TransitionEvent} (h : readEvent P value = some event) :
    1 ≤ event.revision ∧ event.revision ≤ maxInteger := by
  simp only [readEvent, Option.bind_eq_bind, Option.bind_eq_some_iff, Option.pure_def, Option.some.injEq,
    intIn_eq_some] at h
  obtain ⟨-, -, -, -, -, -, revision, ⟨-, hrevision⟩, -, -, -, -, -, -, -, -, -, -, -, -, -, -, -, -, rfl⟩ := h
  exact hrevision

end WorkStack.Checkpoints
