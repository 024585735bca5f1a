import WorkStack.Events.Notices
import WorkStack.Store.Commit

/-!
# The event window of a store

The changes a store reports and the notices its services publish share one sequence of ids and one
bounded window. An id is taken only when a record is appended. A service that must know beforehand
whether its notice will fit asks for the highest id it could be published under.
-/

open WorkStack.Python WorkStack.Effect WorkStack.Store

namespace WorkStack.Events

/-- `CHANGE_NOTICE_TYPE` -/
def changeNoticeType : String := "workstack.change.v1"

/-- `MAX_COMMIT_EVENTS` -/
def maxCommitEvents : ℕ := 3

/-- `projected_change_event_id` -/
def projectedChangeEventId (memory : Process) (pendingCommitEvents : ℕ) : ℕ :=
  memory.eventSequence + pendingCommitEvents + 1

def recordNotice (notice : Json) (memory : Process) : Process :=
  { memory with
    eventSequence := memory.eventSequence + 1
    events := (memory.events ++ [EventRecord.notice (memory.eventSequence + 1) notice]).drop
      (memory.events.length + 1 - 128) }

/-- `publish_change_notice` -/
def publishChangeNotice (build : ℕ → Except String Json) : StoreCommand ℕ := do
  let memory ← Command.memory
  let notice ← Command.ofExcept ((build (memory.eventSequence + 1)).mapError .value)
  if ¬notice.isObject then Command.throw (.value "change notice must be a mapping")
  else
    Command.remember (recordNotice notice)
    pure (memory.eventSequence + 1)

/-! ## What a client is handed -/

/-- A record as the dictionary the window holds. -/
def recordJson : EventRecord → Json
  | .change event => .obj [
      ("id", .int event.id),
      ("type", .str event.type),
      ("workspace_id", .str event.workspaceId),
      ("generation", .int event.generation),
      ("changed_files", .arr (event.changedFiles.map fun name ↦ .str name.fileName))]
  | .notice id notice => .obj [("id", .int id), ("type", .str changeNoticeType), ("notice", notice)]

structure SyncEvents where
  latestEventId : ℕ
  generation : ℕ
  state : SyncState
  events : List EventRecord

/-- The state as a client is told of it. -/
def stateText (state : SyncState) : String :=
  if state = .externalChangeInvalid then "invalid" else state.text

def SyncEvents.toJson (payload : SyncEvents) : Json := .obj [
  ("delivery", .str "bounded-process-local"),
  ("latest_event_id", .int payload.latestEventId),
  ("generation", .int payload.generation),
  ("state", .str (stateText payload.state)),
  ("events", .arr (payload.events.map recordJson))]

/-- `sync_events` -/
def syncEvents (R : StoreRules) (after : ℤ) : StoreCommand SyncEvents :=
  if after < 0 then Command.throw (.value "event cursor must be a non-negative integer")
  else do
    let status ← inspectSync R
    let memory ← Command.memory
    pure {
      latestEventId := memory.eventSequence
      generation := status.generation
      state := status.status
      events := memory.events.filter fun record ↦ after < record.id }

/-! ## Commits of an open transaction -/

/-- `transaction` where one is open already. -/
def nestedTransaction {α : Type} (body : StoreCommand α) : StoreCommand α := do
  let pending : Bool ← step .journalExists
  if pending then
    Command.throw (.corrupt
      "a recovery journal is pending; leave the failed transaction before retrying")
  else body

/-- `save_many` where a transaction is open already. -/
def saveManyNested (R : StoreRules) (writes : WriteSet) (operationId : Option String)
    (context : SaveContext) : StoreCommand Unit :=
  if writes.entries = [] then pure ()
  else if ∃ write ∈ writes.entries, ¬write.2.isObject then
    Command.throw (.value "store value must be a JSON object")
  else
    nestedTransaction (commitPrepared R
      (preparedJournal R writes.entries (operationIdOf operationId context) context.now)
      writes.entries)

/-! ## Requests -/

/-- What the process does between two batches. -/
inductive WindowCall where
  | store (call : StoreCall)
  | adopt (expectedGeneration : ℕ) (expectedManifestDigest : Digest) (idempotencyKey : Option String)
  | status
  | events (after : ℤ)
  /-- A transaction that publishes a notice. -/
  | publish (source : NoticeSource)
  /-- A transaction that saves documents and then publishes a notice of it. -/
  | record (writes : WriteSet) (operationId : Option String) (context : SaveContext) (source : NoticeSource)

def discarding {α : Type} (c : StoreCommand α) : StoreCommand Unit := do
  let _ ← c
  pure ()

def WindowCall.command (R : StoreRules) (I : Interpreter) : WindowCall → StoreCommand Unit
  | store call => call.command R
  | adopt expectedGeneration expectedManifestDigest idempotencyKey =>
      discarding (adoptExternalChange R expectedGeneration expectedManifestDigest idempotencyKey)
  | status => discarding (syncStatus R)
  | events after => discarding (syncEvents R after)
  | publish source => discarding (transaction R (publishChangeNotice (source.build I)))
  | record writes operationId context source => discarding (transaction R (do
      saveManyNested R writes operationId context
      publishChangeNotice (source.build I)))

/-- Requests one after another; what one of them raises does not stop the next. -/
def serve (R : StoreRules) (I : Interpreter) (calls : List WindowCall) : StoreCommand Unit :=
  Command.fold (fun _ call ↦ (call.command R I).catching fun _ ↦ pure ()) calls ()

end WorkStack.Events
