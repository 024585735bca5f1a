import WorkStack.Events.Notices

/-!
# The event stream of a client

The encoder turns the batch a client asked for into one frame for each record. It trusts nothing of the
batch: the ids have to lie after the cursor and to ascend, a change notice has to be one of the two
that exist, and the whole batch is judged before the first byte is produced.
-/

open WorkStack.Python WorkStack.Effect.Outcome

namespace WorkStack.Events

/-! ## The batch -/

def maxRetainedEvents : ℕ := 128

def supportedStates : List String := ["external-change-detected", "in-sync", "invalid"]

def changeEventName : String := "workstack.change.v1"

/-- `_strict_non_negative_int` -/
def strictNonNegativeInt (value : Option Json) (label : String) : Except String ℤ :=
  match value with
  | some (.int value) =>
      if 0 ≤ value then .ok value else .error (label ++ " must be a non-negative integer")
  | _ => .error (label ++ " must be a non-negative integer")

/-- `_validated_snapshot` -/
def validatedSnapshot (payload : Json) : Except String (Dict String Json) := do
  let generation ← strictNonNegativeInt (payload.get? "generation") "generation"
  let state ← matched "state is not a supported sync state" (· ∈ supportedStates) (payload.get? "state")
  .ok [("generation", .int generation), ("state", .str state)]

/-- The id of one record, after the cursor and after the record before it. -/
def validatedEventId (after latest previous : ℤ) (event : Json) : Except String ℤ := do
  if event.isObject then .ok () else .error "event record is not an object"
  let identifier ← strictNonNegativeInt (event.get? "id") "event id"
  if identifier ≤ after then .error "event id is not after the requested cursor"
  else if identifier > latest then .error "event id is beyond the latest event id"
  else if identifier ≤ previous then .error "event ids are not strictly increasing"
  else .ok identifier

def validatedIds (after latest : ℤ) : ℤ → List Json → Except String (List ℤ)
  | _, [] => .ok []
  | previous, event :: events => do
      let identifier ← validatedEventId after latest previous event
      let identifiers ← validatedIds after latest identifier events
      .ok (identifier :: identifiers)

def eventsOf (payload : Json) : Except String (List Json) :=
  match payload.get? "events" with
  | some (.arr events) =>
      if events.length > maxRetainedEvents then .error "events exceed the retained event bound"
      else .ok events
  | _ => .error "events must be a sequence"

/-- `validated_event_ids` -/
def validatedEventIds (payload : Json) (after : ℤ) : Except String (List ℤ) := do
  if payload.isObject then .ok () else .error "sync event batch is not an object"
  let after ← strictNonNegativeInt (some (.int after)) "cursor"
  let latest ← strictNonNegativeInt (payload.get? "latest_event_id") "latest_event_id"
  let events ← eventsOf payload
  validatedIds after latest after events

/-! ## Notices -/

def noticeFields : List String :=
  ["event_id", "kind", "workspace_uid", "task_id", "date", "checkpoint_id", "done_count", "next_count",
    "blocker_count", "first_for_task", "origin", "replayed"]

def transitionFields : List String :=
  ["event_id", "kind", "workspace_uid", "task_id", "date", "checkpoint_id", "ordinal", "entry_digest",
    "state", "transition_revision", "origin"]

def requireFalse (value : Option Json) : Except String Unit :=
  match value with
  | some (.bool false) => .ok ()
  | _ => .error "a replayed change notice is never published"

/-- `_validated_notice` -/
def requireCommittedNotice (notice : Dict String Json) : Except String Unit := do
  let _ ← bounded "change notice event_id is out of range" 1 maxSafeInteger (notice.get "event_id")
  let _ ← matched "change notice kind is not the frozen kind" (· == "agent.checkpoint.committed")
    (notice.get "kind")
  let _ ← matched "change notice origin is not the frozen origin" (· == attributedOrigin)
    (notice.get "origin")
  requireFalse (notice.get "replayed")
  let _ ← boolean "first_for_task is not a boolean" (notice.get "first_for_task")
  let _ ← matched "workspace_uid is not a canonical non-nil RFC 4122 UUID" Store.isCanonicalUuid
    (notice.get "workspace_uid")
  let _ ← matched "task_id does not match its frozen shape" Store.isTaskId (notice.get "task_id")
  let _ ← matched "checkpoint_id does not match its frozen shape" isCheckpointId
    (notice.get "checkpoint_id")
  let _ ← matched "date is not a canonical calendar date" isIsoDate (notice.get "date")
  let _ ← validatedCounts (· ++ " is not a bounded count") "a change notice carries no counted item" notice
  .ok ()

/-- The state a transition notice names, with the kind and the parity that go with it. -/
def requireTransitionLiterals (notice : Dict String Json) (state : CheckpointState) (revision : ℤ) :
    Except String Unit := do
  let _ ← matched "transition kind does not match its state" (· == state.kind) (notice.get "kind")
  let _ ← matched "transition notice origin is not the frozen origin" (· == attributedOrigin)
    (notice.get "origin")
  if state ≠ .ofRevision revision then .error "transition state and revision parity disagree"
  else .ok ()

def namedState (value : Option Json) : Except String CheckpointState :=
  match value with
  | some (.str "active") => .ok .active
  | some (.str "superseded") => .ok .superseded
  | _ => .error "transition state is not a frozen state"

/-- `_validated_transition` -/
def requireTransitionNotice (notice : Dict String Json) : Except String Unit := do
  let _ ← bounded "transition notice event_id is out of range" 1 maxSafeInteger (notice.get "event_id")
  let revision ← bounded "transition_revision is out of range" 1 maxSafeInteger
    (notice.get "transition_revision")
  let _ ← bounded "ordinal is out of range" 0 maxSafeInteger (notice.get "ordinal")
  let state ← namedState (notice.get "state")
  requireTransitionLiterals notice state revision
  let _ ← matched "workspace_uid is not a canonical non-nil RFC 4122 UUID" Store.isCanonicalUuid
    (notice.get "workspace_uid")
  let _ ← matched "task_id does not match its frozen shape" Store.isTaskId (notice.get "task_id")
  let _ ← matched "checkpoint_id does not match its frozen shape" isCheckpointId
    (notice.get "checkpoint_id")
  let _ ← matched "entry_digest does not match its frozen shape" isEntryDigest (notice.get "entry_digest")
  let _ ← matched "date is not a canonical calendar date" isIsoDate (notice.get "date")
  .ok ()

/-- `{field: notice[field] for field in fields}` -/
def inOrder (fields : List String) (notice : Dict String Json) : Dict String Json :=
  fields.filterMap fun name ↦ (notice.get name).map fun value ↦ (name, value)

def sameKeys (notice : Dict String Json) (names : List String) : Bool :=
  (Dict.keys notice).all (· ∈ names) && names.all (· ∈ Dict.keys notice)

/-- `_validated_typed_notice` -/
def validatedTypedNotice : Option Json → Except String (Dict String Json)
  | some (.obj notice) =>
      if sameKeys notice noticeFields then do
        requireCommittedNotice notice
        .ok (inOrder noticeFields notice)
      else if sameKeys notice transitionFields then do
        requireTransitionNotice notice
        .ok (inOrder transitionFields notice)
      else .error "typed notice matches no frozen schema"
  | _ => .error "typed notice is not an object"

/-! ## Frames -/

structure Frame where
  id : ℤ
  name : String
  data : List Char

/-- `json.dumps` with compact separators, of an object that holds no other one. -/
def flatText (fields : Dict String Json) : List Char :=
  '{' :: Json.joined [','] (fields.map fun field ↦ Json.quoted field.1 ++ ':' :: Json.leaf field.2) ++ ['}']

def hasType (event : Json) (name : String) : Bool :=
  match event.get? "type" with
  | some (.str type) => type == name
  | _ => false

/-- The frame of one record. -/
def frameOf (snapshot : Dict String Json) (identifier : ℤ) (event : Json) : Except String Frame :=
  if hasType event changeEventName then do
    let notice ← validatedTypedNotice (event.get? "notice")
    if (notice.get "event_id").bind Json.int? ≠ some identifier then
      .error "typed notice event_id does not match its id"
    else .ok ⟨identifier, changeEventName, flatText notice⟩
  else .ok ⟨identifier, "sync", flatText snapshot⟩

def framesOf (snapshot : Dict String Json) : List (ℤ × Json) → Except String (List Frame)
  | [] => .ok []
  | (identifier, event) :: rest => do
      let frame ← frameOf snapshot identifier event
      let frames ← framesOf snapshot rest
      .ok (frame :: frames)

/-- `_validated_frames` -/
def validatedFrames (payload : Json) (after : ℤ) : Except String (List Frame) := do
  let identifiers ← validatedEventIds payload after
  let snapshot ← validatedSnapshot payload
  let events ← eventsOf payload
  framesOf snapshot (identifiers.zip events)

def Frame.text (frame : Frame) : List Char :=
  "retry: 3000\nid: ".toList ++ (toString frame.id).toList ++ "\nevent: ".toList ++ frame.name.toList ++
    "\ndata: ".toList ++ frame.data ++ "\n\n".toList

/-- The body of a batch; without a frame it is a comment that no client reacts to. -/
def streamBytes (frames : List Frame) : Bytes :=
  if frames = [] then Json.utf8 "retry: 3000\n: heartbeat\n\n".toList
  else Json.utf8 (frames.flatMap Frame.text)

/-- `encode_sync_stream` -/
def encodeSyncStream (payload : Json) (after : ℤ) : Except String Bytes := do
  let frames ← validatedFrames payload after
  .ok (streamBytes frames)

end WorkStack.Events
