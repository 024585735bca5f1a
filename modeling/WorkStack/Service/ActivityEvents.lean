import Mathlib
import WorkStack.Deletion.Plan
import WorkStack.Service.Idempotency
import WorkStack.Service.Notices
import WorkStack.Service.TaskSteps

/-!
# Ids of activity events

Three allocators number the events of the activity, each by its own reading of the ids that are there. Events are
appended one by one under a new id, and deleting a Task for good takes events out of the middle and from the end. The
allocators agree on every document, a new id is none of the ids there are, and ids that were distinct stay distinct.
-/

open WorkStack.Effect.Outcome WorkStack.Python

namespace WorkStack.Service

section Allocating

variable (I : Interpreter)

/-! ## Allocators -/

/-- The largest number of `_EVENT_NUMBER`, `^E-(\d+)$` with letters of either case, among the ids of events. -/
def largestEventNumber : ℕ → List Json → Checked ℕ
  | largest, [] => .ok largest
  | largest, event :: events => do
      let record ← asRecord event
      match I.idNumber ['E'] (idText I record) with
      | some n => largestEventNumber (max largest n) events
      | none => largestEventNumber largest events

/-- `"E-{:06d}".format(largest + 1)` -/
def eventIdBehind (events : List Json) : Checked String := do
  let largest ← largestEventNumber I 0 events
  pure (String.ofList ("E-".toList ++ zeroPadded 6 (largest + 1)))

/-- `next_activity_event_id` of the mutation receipts -/
def mutationEventId (events : List Json) : Checked String := eventIdBehind I events

/-- `next_activity_event_id` of the receipts of unlinked captures -/
def captureUnlinkEventId (events : List Json) : Checked String := eventIdBehind I events

inductive Allocator where
  | domain
  | mutationReceipt
  | captureUnlinkReceipt
  deriving DecidableEq, Repr

/-- The id that an allocator gives to a new event. -/
def Allocator.next : Allocator → List Json → Checked String
  | .domain, events => nextId I events ['E'] 6
  | .mutationReceipt, events => mutationEventId I events
  | .captureUnlinkReceipt, events => captureUnlinkEventId I events

/-! ## Writes -/

/-- An event that is appended to the activity, under a new id. -/
def appendEvent (allocator : Allocator) (activity fields : Record) : Checked Record := do
  let events ← listAt activity "activity"
  let id ← allocator.next I events
  pure (activity.set "activity" (.arr (events ++ [.obj (("id", .str id) :: fields)])))

/-- `_drop_records_by_id` -/
def dropRecordsById (records : List Json) (ids : List String) : List Json :=
  records.filter fun
    | .obj record => !ids.contains (I.str (valueAt record "id"))
    | _ => true

/-- The ids of the events that a plan removes. -/
def removedEventIds (operations : List Deletion.Operation) : List String :=
  operations.filterMap fun
    | .removeActivityEvent eventId => some eventId
    | _ => none

/-- `_apply_remove_activity_events` -/
def applyRemoveActivityEvents (operations : List Deletion.Operation) (activity : Record) : Checked Record :=
  let eventIds := removedEventIds operations
  if eventIds.isEmpty then .ok activity
  else do
    let events ← listAt activity "activity"
    pure (activity.set "activity" (.arr (dropRecordsById I events eventIds)))

/-- One step of a write: an event is appended, a planned deletion takes events out, or the rest of the document
changes. -/
inductive ActivityWrite : Record → Record → Prop
  | event {allocator : Allocator} {activity fields after : Record}
      (h : appendEvent I allocator activity fields = .ok after) : ActivityWrite activity after
  | deletion {documents : Documents} {storeMeta : Record} {taskId : String} {expected : ℤ} {plan : Deletion.Plan}
      {after : Record} (hplan : Deletion.planTaskDeletion I documents storeMeta taskId expected = .ok plan)
      (h : applyRemoveActivityEvents I plan.operations documents.activity = .ok after) :
      ActivityWrite documents.activity after
  | elsewhere {activity after : Record} (h : after.get "activity" = activity.get "activity") :
      ActivityWrite activity after

/-- The ids of events, as texts. -/
def eventIds (events : List Json) : List String :=
  events.filterMap fun
    | .obj record => some (idText I record)
    | _ => none

/-- No two events have the same id. -/
def DistinctEvents (activity : Record) : Prop :=
  ∀ events, listAt activity "activity" = .ok events → (eventIds I events).Nodup

end Allocating

variable {I : Interpreter}

/-! ## The allocators agree -/

theorem largestEventNumber_eq (largest : ℕ) (events : List Json) :
    largestEventNumber I largest events = largestNumber I ['E'] largest events := by
  induction events generalizing largest with
  | nil => rfl
  | cons event events ih =>
      rw [largestEventNumber, largestNumber]
      congr 1
      funext record
      dsimp only
      cases I.idNumber ['E'] (idText I record) with
      | none => exact ih largest
      | some n => exact ih (max largest n)

theorem eventIdBehind_eq (events : List Json) : eventIdBehind I events = nextId I events ['E'] 6 := by
  rw [eventIdBehind, nextId, largestEventNumber_eq]
  rfl

/-- The three allocators give the same id. -/
theorem Allocator.next_eq (allocator : Allocator) (events : List Json) :
    allocator.next I events = nextId I events ['E'] 6 := by
  cases allocator with
  | domain => rfl
  | mutationReceipt => exact eventIdBehind_eq events
  | captureUnlinkReceipt => exact eventIdBehind_eq events

theorem mem_eventIds {events : List Json} {id : String} :
    id ∈ eventIds I events ↔ ∃ record, .obj record ∈ events ∧ idText I record = id := by
  rw [eventIds, List.mem_filterMap]
  constructor
  · rintro ⟨event, hevent, hid⟩
    cases event with
    | obj record => exact ⟨record, hevent, Option.some.inj hid⟩
    | _ => cases hid
  · rintro ⟨record, hrecord, hid⟩
    exact ⟨.obj record, hrecord, congrArg some hid⟩

/-- A new id is none of the ids there are. -/
theorem Allocator.next_fresh {allocator : Allocator} {events : List Json} {id : String}
    (h : allocator.next I events = .ok id) : id ∉ eventIds I events := by
  rw [allocator.next_eq] at h
  intro hmem
  obtain ⟨record, hrecord, hid⟩ := mem_eventIds.mp hmem
  exact (nextId_fresh I h).2 record hrecord hid

/-! ## Writes keep ids distinct -/

theorem distinctEvents_appendEvent {allocator : Allocator} {activity fields after : Record}
    (h : appendEvent I allocator activity fields = .ok after) (hdistinct : DistinctEvents I activity) :
    DistinctEvents I after := by
  obtain ⟨events, hevents, h⟩ := bind_eq_ok.mp h
  obtain ⟨id, hid, h⟩ := bind_eq_ok.mp h
  cases h
  intro events' hevents'
  rw [listAt_set] at hevents'
  cases hevents'
  have hnew : eventIds I [.obj (("id", .str id) :: fields)] = [id] := rfl
  have happend : eventIds I (events ++ [.obj (("id", .str id) :: fields)]) = eventIds I events ++ [id] := by
    rw [← hnew]
    exact List.filterMap_append
  rw [happend, List.nodup_append]
  refine ⟨hdistinct events hevents, List.nodup_singleton id, ?_⟩
  intro other hother id' hid' heq
  rw [List.mem_singleton.mp hid'] at heq
  exact Allocator.next_fresh hid (heq ▸ hother)

theorem distinctEvents_applyRemoveActivityEvents {operations : List Deletion.Operation} {activity after : Record}
    (h : applyRemoveActivityEvents I operations activity = .ok after) (hdistinct : DistinctEvents I activity) :
    DistinctEvents I after := by
  unfold applyRemoveActivityEvents at h
  dsimp only at h
  split at h
  · cases h
    exact hdistinct
  · obtain ⟨events, hevents, h⟩ := bind_eq_ok.mp h
    cases h
    intro events' hevents'
    rw [listAt_set] at hevents'
    cases hevents'
    exact (List.filter_sublist.filterMap _).nodup (hdistinct events hevents)

/-- Every step of a write keeps ids distinct. -/
theorem ActivityWrite.distinctEvents {activity after : Record} (h : ActivityWrite I activity after)
    (hdistinct : DistinctEvents I activity) : DistinctEvents I after := by
  cases h with
  | event h => exact distinctEvents_appendEvent h hdistinct
  | deletion _ h => exact distinctEvents_applyRemoveActivityEvents h hdistinct
  | elsewhere h =>
      intro events hevents
      apply hdistinct
      rw [listAt, ← h]
      exact hevents

/-! ## Commands that append events -/

theorem appendEvent_of_next (allocator : Allocator) {activity fields : Record} {events : List Json} {id : String}
    (hevents : listAt activity "activity" = .ok events) (hid : nextId I events ['E'] 6 = .ok id) :
    appendEvent I allocator activity fields =
      .ok (activity.set "activity" (.arr (events ++ [.obj (("id", .str id) :: fields)]))) := by
  rw [appendEvent, hevents, ok_bind, allocator.next_eq, hid, ok_bind]
  rfl

/-- `_event` is a write, under an id of the domain. -/
theorem activityWrite_recordEvent {activity after details : Record} {eventType createdAt : String}
    {subject : EventSubject} (h : recordEvent I activity eventType subject details createdAt = .ok after) :
    ActivityWrite I activity after := by
  obtain ⟨events, hevents, h⟩ := bind_eq_ok.mp h
  obtain ⟨id, hid, h⟩ := bind_eq_ok.mp h
  rw [appendTo, hevents, ok_bind] at h
  cases h
  exact .event (appendEvent_of_next .domain hevents hid)

/-- Recording a status notice is a write, under an id of the mutation receipts. -/
theorem activityWrite_recordStatusNotice {P : Platform} {activity after task : Record} {workspaceUid createdAt : String}
    {change : StatusChange} (h : recordStatusNotice P activity task workspaceUid change createdAt = .ok after) :
    ActivityWrite P.toInterpreter activity after := by
  obtain ⟨entityUid, -, h⟩ := bind_eq_ok.mp h
  split at h
  · cases h
  split at h
  · cases h
  obtain ⟨found, -, h⟩ := bind_eq_ok.mp h
  cases found with
  | some existing =>
      dsimp only at h
      split at h
      · cases h
      · split at h
        · cases h
          exact .elsewhere rfl
        · cases h
  | none =>
      obtain ⟨events, hevents, h⟩ := bind_eq_ok.mp h
      obtain ⟨id, hid, h⟩ := bind_eq_ok.mp h
      obtain ⟨taskId, -, h⟩ := bind_eq_ok.mp h
      cases h
      exact .event (appendEvent_of_next .mutationReceipt hevents hid)

/-! ## Runs -/

/-- After any writes and deletions the allocators agree, the id they give is none of the ids there are, and events that
had distinct ids have distinct ids. -/
theorem event_ids_stay_unique (I : Interpreter) {activity after : Record}
    (hrun : Relation.ReflTransGen (ActivityWrite I) activity after) :
    (∀ events, listAt after "activity" = .ok events →
      (∀ allocator other : Allocator, allocator.next I events = other.next I events) ∧
        ∀ (allocator : Allocator) (id : String), allocator.next I events = .ok id →
          id ∉ eventIds I events ∧ ∀ record : Record, .obj record ∈ events → record.get "id" ≠ some (.str id)) ∧
      (DistinctEvents I activity → DistinctEvents I after) := by
  constructor
  · intro events _
    refine ⟨fun allocator other ↦ (allocator.next_eq events).trans (other.next_eq events).symm, ?_⟩
    intro allocator id hid
    have hfresh := Allocator.next_fresh hid
    refine ⟨hfresh, fun record hrecord hget ↦ hfresh (mem_eventIds.mpr ⟨record, hrecord, ?_⟩)⟩
    rw [idText, hget]
    rfl
  · intro hdistinct
    induction hrun with
    | refl => exact hdistinct
    | tail _ hwrite ih => exact hwrite.distinctEvents ih

/-! ## Two events of an empty activity -/

/-- An event of the domain, and behind it one of an unlinked capture. -/
def sampleEvents : List Json :=
  [.obj [("id", .str "E-000001"), ("type", .str "task.updated")],
    .obj [("id", .str "E-000002"), ("type", .str "capture.unlinked")]]

theorem sample_event_ids_unique : DistinctEvents asciiInterpreter ([("activity", .arr sampleEvents)] : Record) ∧
    ∀ (allocator : Allocator) (id : String), allocator.next asciiInterpreter sampleEvents = .ok id →
      id ∉ eventIds asciiInterpreter sampleEvents := by
  have hfirst : ActivityWrite asciiInterpreter ([("activity", .arr [])] : Record)
      [("activity", .arr (sampleEvents.take 1))] := by
    have happend : appendEvent asciiInterpreter .domain [("activity", .arr [])] [("type", .str "task.updated")] =
        .ok [("activity", .arr (sampleEvents.take 1))] := rfl
    exact .event happend
  have hsecond : ActivityWrite asciiInterpreter ([("activity", .arr (sampleEvents.take 1))] : Record)
      [("activity", .arr sampleEvents)] := by
    have happend : appendEvent asciiInterpreter .captureUnlinkReceipt [("activity", .arr (sampleEvents.take 1))]
        [("type", .str "capture.unlinked")] = .ok [("activity", .arr sampleEvents)] := rfl
    exact .event happend
  have hempty : DistinctEvents asciiInterpreter ([("activity", .arr [])] : Record) := by
    intro events hevents
    cases hevents
    exact List.nodup_nil
  obtain ⟨hfresh, hdistinct⟩ := event_ids_stay_unique asciiInterpreter
    ((Relation.ReflTransGen.single hfirst).tail hsecond)
  exact ⟨hdistinct hempty, fun allocator id hid ↦ ((hfresh sampleEvents rfl).2 allocator id hid).1⟩

end WorkStack.Service
