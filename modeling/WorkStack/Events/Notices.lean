import WorkStack.Python.Calendar
import WorkStack.Python.Dict
import WorkStack.Python.Interpreter
import WorkStack.Store.Layout

/-!
# The notices of a checkpoint

A committed checkpoint and a transition of one are announced by a notice. A notice is built from facts
that are validated once more, field by field, and from the id under which it is published; nothing else
enters it.
-/

open WorkStack.Python WorkStack.Effect.Outcome

namespace WorkStack.Events

/-! ## Texts and numbers -/

def maxSafeInteger : ℤ := 9007199254740991

def maxCategoryCount : ℤ := 20

def attributedOrigin : String := "agent-cli-v1"

/-- `CP-[0-9a-f]{64}` -/
def isCheckpointId (value : String) : Bool :=
  match value.toList with
  | 'C' :: 'P' :: '-' :: digits => digits.length == 64 && digits.all Store.isLowerHex
  | _ => false

/-- `sha256:[0-9a-f]{64}` -/
def isEntryDigest (value : String) : Bool :=
  value.toList.take 7 == "sha256:".toList && (value.toList.drop 7).length == 64 &&
    (value.toList.drop 7).all Store.isLowerHex

/-- The fields of an object that has exactly these. -/
def exactFields (refusal : String) (names : List String) : Option Json → Except String (Dict String Json)
  | some (.obj fields) =>
      if (Dict.keys fields).all (· ∈ names) ∧ names.all (· ∈ Dict.keys fields) then .ok fields
      else .error refusal
  | _ => .error refusal

/-- A text that passes a check. -/
def matched (refusal : String) (check : String → Bool) : Option Json → Except String String
  | some (.str text) => if check text then .ok text else .error refusal
  | _ => .error refusal

/-- An integer within bounds. -/
def bounded (refusal : String) (minimum maximum : ℤ) : Option Json → Except String ℤ
  | some (.int value) => if minimum ≤ value ∧ value ≤ maximum then .ok value else .error refusal
  | _ => .error refusal

def boolean (refusal : String) : Option Json → Except String Bool
  | some (.bool value) => .ok value
  | _ => .error refusal

theorem matched_eq_ok {refusal : String} {check : String → Bool} {value : Option Json} {text : String} :
    matched refusal check value = .ok text ↔ value = some (.str text) ∧ check text = true := by
  unfold matched
  split
  · split_ifs with hcheck
    · constructor
      · intro h
        cases h
        exact ⟨rfl, hcheck⟩
      · rintro ⟨h, -⟩
        cases h
        rfl
    · constructor
      · intro h
        cases h
      · rintro ⟨h, htext⟩
        cases h
        exact absurd htext hcheck
  · next hother =>
      constructor
      · intro h
        cases h
      · rintro ⟨rfl, -⟩
        exact (hother text rfl).elim

theorem bounded_eq_ok {refusal : String} {minimum maximum value : ℤ} {given : Option Json} :
    bounded refusal minimum maximum given = .ok value ↔
      given = some (.int value) ∧ minimum ≤ value ∧ value ≤ maximum := by
  unfold bounded
  split
  · split_ifs with hbounds
    · constructor
      · intro h
        cases h
        exact ⟨rfl, hbounds⟩
      · rintro ⟨h, -⟩
        cases h
        rfl
    · constructor
      · intro h
        cases h
      · rintro ⟨h, hvalue⟩
        cases h
        exact absurd hvalue hbounds
  · next hother =>
      constructor
      · intro h
        cases h
      · rintro ⟨rfl, -⟩
        exact (hother value rfl).elim

/-! ## The committed notice -/

/-- The text of a `CheckpointChangeError`. -/
def invalidCheckpoint : String := "invalid checkpoint input"

def factsFields : List String := ["recorded", "done_count", "next_count", "blocker_count", "first_for_task"]

def recordedFields : List String :=
  ["type", "workspace_uid", "task_id", "checkpoint_id", "date", "ordinal", "entry_digest", "origin"]

/-- What a committed notice takes from the recorded fact. -/
structure Recorded where
  workspaceUid : String
  taskId : String
  checkpointId : String
  date : String

/-- `_validated_recorded` -/
def validatedRecorded (value : Option Json) : Except String Recorded := do
  let recorded ← exactFields invalidCheckpoint recordedFields value
  let _ ← matched invalidCheckpoint (· == "worklog.recorded") (recorded.get "type")
  let _ ← matched invalidCheckpoint (· == attributedOrigin) (recorded.get "origin")
  let workspaceUid ← matched invalidCheckpoint Store.isCanonicalUuid (recorded.get "workspace_uid")
  let taskId ← matched invalidCheckpoint Store.isTaskId (recorded.get "task_id")
  let checkpointId ← matched invalidCheckpoint isCheckpointId (recorded.get "checkpoint_id")
  let _ ← matched invalidCheckpoint isEntryDigest (recorded.get "entry_digest")
  let date ← matched invalidCheckpoint isIsoDate (recorded.get "date")
  let _ ← bounded invalidCheckpoint 0 maxSafeInteger (recorded.get "ordinal")
  .ok { workspaceUid, taskId, checkpointId, date }

structure Counts where
  done : ℤ
  next : ℤ
  blockers : ℤ

/-- `_validated_counts` -/
def validatedCounts (refusal : String → String) (uncounted : String) (facts : Dict String Json) :
    Except String Counts := do
  let done ← bounded (refusal "done_count") 0 maxCategoryCount (facts.get "done_count")
  let next ← bounded (refusal "next_count") 0 maxCategoryCount (facts.get "next_count")
  let blockers ← bounded (refusal "blocker_count") 0 maxCategoryCount (facts.get "blocker_count")
  if done + next + blockers < 1 then .error uncounted else .ok { done, next, blockers }

/-- `build_committed_notice` -/
def buildCommittedNotice (facts : Json) (eventId : ℕ) : Except String Json := do
  let facts ← exactFields invalidCheckpoint factsFields (some facts)
  let recorded ← validatedRecorded (facts.get "recorded")
  let counts ← validatedCounts (fun _ ↦ invalidCheckpoint) invalidCheckpoint facts
  let firstForTask ← boolean invalidCheckpoint (facts.get "first_for_task")
  let eventId ← bounded invalidCheckpoint 1 maxSafeInteger (some (.int eventId))
  .ok (.obj [
    ("event_id", .int eventId),
    ("kind", .str "agent.checkpoint.committed"),
    ("workspace_uid", .str recorded.workspaceUid),
    ("task_id", .str recorded.taskId),
    ("date", .str recorded.date),
    ("checkpoint_id", .str recorded.checkpointId),
    ("done_count", .int counts.done),
    ("next_count", .int counts.next),
    ("blocker_count", .int counts.blockers),
    ("first_for_task", .bool firstForTask),
    ("origin", .str attributedOrigin),
    ("replayed", .bool false)])

/-! ## The transition notice -/

/-- The text of a `CheckpointTransitionError`. -/
def invalidTransition : String := "invalid checkpoint transition input"

def eventFields : List String :=
  ["type", "workspace_uid", "task_id", "checkpoint_id", "date", "ordinal", "entry_digest", "state",
    "revision", "reason", "origin"]

inductive CheckpointState where
  | active | superseded
  deriving DecidableEq

namespace CheckpointState

def text : CheckpointState → String
  | active => "active"
  | superseded => "superseded"

def eventType : CheckpointState → String
  | active => "worklog.restored"
  | superseded => "worklog.superseded"

def kind : CheckpointState → String
  | active => "agent.checkpoint.restored"
  | superseded => "agent.checkpoint.superseded"

def reasonCodes : CheckpointState → List String
  | active => ["restore"]
  | superseded => ["incorrect", "duplicate", "obsolete"]

/-- The state of a checkpoint after so many transitions. -/
def ofRevision (revision : ℤ) : CheckpointState := if revision % 2 = 0 then active else superseded

end CheckpointState

/-- `_state` -/
def checkpointState : Option Json → Except String CheckpointState
  | some (.str "active") => .ok .active
  | some (.str "superseded") => .ok .superseded
  | _ => .error invalidTransition

/-- `_reason` of a persisted event, with the codes its state allows. -/
def requireReason (I : Interpreter) (state : CheckpointState) (value : Option Json) : Except String Unit := do
  let reason ← exactFields invalidTransition ["code", "explanation"] value
  let _ ← matched invalidTransition (· ∈ state.reasonCodes) (reason.get "code")
  let _ ← matched invalidTransition (fun text ↦ text == I.strip text && (1 ≤ text.length &&
    text.length ≤ 240) && (Json.utf8 text.toList).length ≤ 1024) (reason.get "explanation")
  .ok ()

/-- What a transition notice takes from the event. -/
structure TransitionEvent where
  workspaceUid : String
  taskId : String
  checkpointId : String
  date : String
  ordinal : ℤ
  entryDigest : String
  state : CheckpointState
  revision : ℤ

/-- `_event`, of an event that has an origin. -/
def validatedEvent (I : Interpreter) (value : Json) : Except String TransitionEvent := do
  let event ← exactFields invalidTransition eventFields (some value)
  let state ← checkpointState (event.get "state")
  let _ ← matched invalidTransition (· == state.eventType) (event.get "type")
  let revision ← bounded invalidTransition 1 maxSafeInteger (event.get "revision")
  requireReason I state (event.get "reason")
  let workspaceUid ← matched invalidTransition Store.isCanonicalUuid (event.get "workspace_uid")
  let taskId ← matched invalidTransition Store.isTaskId (event.get "task_id")
  let checkpointId ← matched invalidTransition isCheckpointId (event.get "checkpoint_id")
  let date ← matched invalidTransition isIsoDate (event.get "date")
  let ordinal ← bounded invalidTransition 0 maxSafeInteger (event.get "ordinal")
  let entryDigest ← matched invalidTransition isEntryDigest (event.get "entry_digest")
  let _ ← matched invalidTransition (· == attributedOrigin) (event.get "origin")
  .ok { workspaceUid, taskId, checkpointId, date, ordinal, entryDigest, state, revision }

/-- `build_transition_notice` -/
def buildTransitionNotice (I : Interpreter) (event : Json) (eventId : ℕ) : Except String Json := do
  let event ← validatedEvent I event
  let eventId ← bounded invalidTransition 1 maxSafeInteger (some (.int eventId))
  if event.state ≠ .ofRevision event.revision then .error invalidTransition
  else .ok (.obj [
    ("event_id", .int eventId),
    ("kind", .str event.state.kind),
    ("workspace_uid", .str event.workspaceUid),
    ("task_id", .str event.taskId),
    ("date", .str event.date),
    ("checkpoint_id", .str event.checkpointId),
    ("ordinal", .int event.ordinal),
    ("entry_digest", .str event.entryDigest),
    ("state", .str event.state.text),
    ("transition_revision", .int event.revision),
    ("origin", .str attributedOrigin)])

/-! ## What is published -/

/-- The two notices the services publish. -/
inductive NoticeSource where
  | committed (facts : Json)
  | transition (event : Json)

/-- The `build` that is handed to `publish_change_notice`. -/
def NoticeSource.build (I : Interpreter) : NoticeSource → ℕ → Except String Json
  | committed facts, eventId => buildCommittedNotice facts eventId
  | transition event, eventId => buildTransitionNotice I event eventId

end WorkStack.Events
