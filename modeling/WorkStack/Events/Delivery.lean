import WorkStack.Events.Emissions
import WorkStack.Events.SyncStream
import WorkStack.Store.CrashAtomicity

/-!
# Delivery of the event window

Whatever is in the window of a store can be delivered: the changes it reports are of its own types,
and a notice was checked, with the id it is published under, before it was appended. The ids in the
window run without a gap up to the latest one. Hence the encoder finds nothing to refuse in what a
client is handed, wherever its cursor stands.
-/

open WorkStack.Python WorkStack.Effect.Outcome WorkStack.Effect WorkStack.Store

namespace WorkStack.Events

/-! ## Published notices -/

theorem bounded_ok {refusal : String} {minimum maximum value : ℤ} (h : minimum ≤ value ∧ value ≤ maximum) :
    bounded refusal minimum maximum (some (.int value)) = .ok value := bounded_eq_ok.mpr ⟨rfl, h⟩

theorem matched_ok {refusal : String} {check : String → Bool} {text : String} (h : check text = true) :
    matched refusal check (some (.str text)) = .ok text := matched_eq_ok.mpr ⟨rfl, h⟩

structure Recorded.Canonical (recorded : Recorded) : Prop where
  workspaceUid : isCanonicalUuid recorded.workspaceUid = true
  taskId : isTaskId recorded.taskId = true
  checkpointId : isCheckpointId recorded.checkpointId = true
  date : isIsoDate recorded.date = true

theorem validatedRecorded_canonical {value : Option Json} {recorded : Recorded}
    (h : validatedRecorded value = .ok recorded) : recorded.Canonical := by
  obtain ⟨fields, -, h⟩ := bind_eq_ok.mp h
  obtain ⟨_, -, h⟩ := bind_eq_ok.mp h
  obtain ⟨_, -, h⟩ := bind_eq_ok.mp h
  obtain ⟨workspaceUid, hworkspace, h⟩ := bind_eq_ok.mp h
  obtain ⟨taskId, htask, h⟩ := bind_eq_ok.mp h
  obtain ⟨checkpointId, hcheckpoint, h⟩ := bind_eq_ok.mp h
  obtain ⟨_, -, h⟩ := bind_eq_ok.mp h
  obtain ⟨date, hdate, h⟩ := bind_eq_ok.mp h
  obtain ⟨_, -, h⟩ := bind_eq_ok.mp h
  cases h
  exact ⟨(matched_eq_ok.mp hworkspace).2, (matched_eq_ok.mp htask).2, (matched_eq_ok.mp hcheckpoint).2,
    (matched_eq_ok.mp hdate).2⟩

theorem validatedCounts_ok {refusal : String → String} {uncounted : String} {facts : Dict String Json}
    {counts : Counts} (h : validatedCounts refusal uncounted facts = .ok counts) :
    (0 ≤ counts.done ∧ counts.done ≤ maxCategoryCount) ∧ (0 ≤ counts.next ∧ counts.next ≤ maxCategoryCount) ∧
      (0 ≤ counts.blockers ∧ counts.blockers ≤ maxCategoryCount) ∧
      ¬counts.done + counts.next + counts.blockers < 1 := by
  obtain ⟨done, hdone, h⟩ := bind_eq_ok.mp h
  obtain ⟨next, hnext, h⟩ := bind_eq_ok.mp h
  obtain ⟨blockers, hblockers, h⟩ := bind_eq_ok.mp h
  split_ifs at h with hsum
  cases h
  exact ⟨(bounded_eq_ok.mp hdone).2, (bounded_eq_ok.mp hnext).2, (bounded_eq_ok.mp hblockers).2, hsum⟩

structure TransitionEvent.Canonical (event : TransitionEvent) : Prop where
  workspaceUid : isCanonicalUuid event.workspaceUid = true
  taskId : isTaskId event.taskId = true
  checkpointId : isCheckpointId event.checkpointId = true
  date : isIsoDate event.date = true
  entryDigest : isEntryDigest event.entryDigest = true
  ordinal : 0 ≤ event.ordinal ∧ event.ordinal ≤ maxSafeInteger
  revision : 1 ≤ event.revision ∧ event.revision ≤ maxSafeInteger

theorem validatedEvent_canonical {I : Interpreter} {value : Json} {event : TransitionEvent}
    (h : validatedEvent I value = .ok event) : event.Canonical := by
  obtain ⟨fields, -, h⟩ := bind_eq_ok.mp h
  obtain ⟨state, -, h⟩ := bind_eq_ok.mp h
  obtain ⟨_, -, h⟩ := bind_eq_ok.mp h
  obtain ⟨revision, hrevision, h⟩ := bind_eq_ok.mp h
  obtain ⟨_, -, h⟩ := bind_eq_ok.mp h
  obtain ⟨workspaceUid, hworkspace, h⟩ := bind_eq_ok.mp h
  obtain ⟨taskId, htask, h⟩ := bind_eq_ok.mp h
  obtain ⟨checkpointId, hcheckpoint, h⟩ := bind_eq_ok.mp h
  obtain ⟨date, hdate, h⟩ := bind_eq_ok.mp h
  obtain ⟨ordinal, hordinal, h⟩ := bind_eq_ok.mp h
  obtain ⟨entryDigest, hdigest, h⟩ := bind_eq_ok.mp h
  obtain ⟨_, -, h⟩ := bind_eq_ok.mp h
  cases h
  exact {
    workspaceUid := (matched_eq_ok.mp hworkspace).2
    taskId := (matched_eq_ok.mp htask).2
    checkpointId := (matched_eq_ok.mp hcheckpoint).2
    date := (matched_eq_ok.mp hdate).2
    entryDigest := (matched_eq_ok.mp hdigest).2
    ordinal := (bounded_eq_ok.mp hordinal).2
    revision := (bounded_eq_ok.mp hrevision).2 }

/-- A notice the encoder delivers as it is, under the id it was published with. -/
def Frozen (eventId : ℕ) (notice : Json) : Prop :=
  ∃ fields, notice = .obj fields ∧ validatedTypedNotice (some notice) = .ok fields ∧
    Dict.get fields "event_id" = some (.int eventId)

theorem sameKeys_of_keys {notice : Dict String Json} {keys : List String} (h : Dict.keys notice = keys)
    (names : List String) : sameKeys notice names = (keys.all (· ∈ names) && names.all (· ∈ keys)) := by
  rw [sameKeys, h]

theorem validatedTypedNotice_committed {notice : Dict String Json} (hkeys : Dict.keys notice = noticeFields)
    (h : requireCommittedNotice notice = .ok ()) :
    validatedTypedNotice (some (.obj notice)) = .ok (inOrder noticeFields notice) := by
  have hsame : sameKeys notice noticeFields = true := by
    rw [sameKeys_of_keys hkeys]
    decide
  simp [validatedTypedNotice, hsame, h]

theorem validatedTypedNotice_transition {notice : Dict String Json}
    (hkeys : Dict.keys notice = transitionFields) (h : requireTransitionNotice notice = .ok ()) :
    validatedTypedNotice (some (.obj notice)) = .ok (inOrder transitionFields notice) := by
  have hother : sameKeys notice noticeFields = false := by
    rw [sameKeys_of_keys hkeys]
    decide
  have hsame : sameKeys notice transitionFields = true := by
    rw [sameKeys_of_keys hkeys]
    decide
  simp [validatedTypedNotice, hother, hsame, h]

theorem frozen_committed {facts notice : Json} {eventId : ℕ}
    (h : buildCommittedNotice facts eventId = .ok notice) : Frozen eventId notice := by
  obtain ⟨fields, -, h⟩ := bind_eq_ok.mp h
  obtain ⟨recorded, hrecorded, h⟩ := bind_eq_ok.mp h
  obtain ⟨counts, hcounts, h⟩ := bind_eq_ok.mp h
  obtain ⟨first, -, h⟩ := bind_eq_ok.mp h
  obtain ⟨identifier, hid, h⟩ := bind_eq_ok.mp h
  cases h
  obtain ⟨hgiven, hrange⟩ := bounded_eq_ok.mp hid
  cases hgiven
  obtain ⟨hworkspace, htask, hcheckpoint, hdate⟩ := validatedRecorded_canonical hrecorded
  obtain ⟨hdone, hnext, hblockers, hsum⟩ := validatedCounts_ok hcounts
  refine ⟨_, rfl, validatedTypedNotice_committed rfl ?_, rfl⟩
  simp only [requireCommittedNotice, Dict.get_cons, String.reduceEq, if_true, if_false]
  rw [bounded_ok hrange, matched_ok (by decide), matched_ok (by decide), matched_ok hworkspace,
    matched_ok htask, matched_ok hcheckpoint, matched_ok hdate, validatedCounts]
  simp only [Dict.get_cons, String.reduceEq, if_true, if_false]
  rw [bounded_ok hdone, bounded_ok hnext, bounded_ok hblockers]
  simp only [ok_bind, if_neg hsum]
  rfl

theorem frozen_transition {I : Interpreter} {event notice : Json} {eventId : ℕ}
    (h : buildTransitionNotice I event eventId = .ok notice) : Frozen eventId notice := by
  obtain ⟨validated, hvalidated, h⟩ := bind_eq_ok.mp h
  obtain ⟨identifier, hid, h⟩ := bind_eq_ok.mp h
  split_ifs at h with hparity
  cases h
  obtain ⟨hgiven, hrange⟩ := bounded_eq_ok.mp hid
  cases hgiven
  have hevent := validatedEvent_canonical hvalidated
  have hstate : namedState (some (.str validated.state.text)) = .ok validated.state := by
    cases validated.state <;> rfl
  refine ⟨_, rfl, validatedTypedNotice_transition rfl ?_, rfl⟩
  simp only [requireTransitionNotice, requireTransitionLiterals, Dict.get_cons, String.reduceEq, if_true,
    if_false]
  rw [bounded_ok hrange, bounded_ok hevent.revision, bounded_ok hevent.ordinal, hstate]
  simp only [ok_bind]
  rw [matched_ok (by simp), matched_ok (by decide), if_neg hparity, matched_ok hevent.workspaceUid,
    matched_ok hevent.taskId, matched_ok hevent.checkpointId, matched_ok hevent.entryDigest,
    matched_ok hevent.date]
  rfl

theorem frozen_build {I : Interpreter} {source : NoticeSource} {eventId : ℕ} {notice : Json}
    (h : source.build I eventId = .ok notice) : Frozen eventId notice := by
  cases source with
  | committed facts => exact frozen_committed h
  | transition event => exact frozen_transition h

/-! ## Encoding -/

theorem strictNonNegativeInt_natCast (value : ℕ) (label : String) :
    strictNonNegativeInt (some (.int value)) label = .ok (value : ℤ) := by
  simp [strictNonNegativeInt]

/-- A record the encoder has a frame for. -/
def Deliverable : EventRecord → Prop
  | .change event => event.type ≠ changeNoticeType
  | .notice id notice => Frozen id notice

/-- The frame of a record: a change is told as the state of the store, a notice as it is. -/
structure DeliveredAs (snapshot : Dict String Json) (record : EventRecord) (frame : Frame) : Prop where
  id : frame.id = record.id
  content : match record with
    | .change _ => frame.name = "sync" ∧ frame.data = flatText snapshot
    | .notice _ notice => ∃ fields, notice = .obj fields ∧ frame.name = changeEventName ∧
        ∃ written, validatedTypedNotice (some notice) = .ok written ∧ frame.data = flatText written

theorem frameOf_deliverable {record : EventRecord} (h : Deliverable record) (snapshot : Dict String Json) :
    ∃ frame, frameOf snapshot record.id (recordJson record) = .ok frame ∧
      DeliveredAs snapshot record frame := by
  cases record with
  | change event =>
      have htype : hasType (recordJson (.change event)) changeEventName = false := by
        change (event.type == changeEventName) = false
        exact beq_false_of_ne h
      refine ⟨⟨event.id, "sync", flatText snapshot⟩, ?_, ⟨rfl, rfl, rfl⟩⟩
      rw [frameOf, htype]
      rfl
  | notice id notice =>
      obtain ⟨fields, rfl, hvalid, hid⟩ := h
      refine ⟨⟨id, changeEventName, flatText fields⟩, ?_, ⟨rfl, fields, rfl, rfl, fields, hvalid, rfl⟩⟩
      have htype : hasType (recordJson (.notice id (.obj fields))) changeEventName = true := rfl
      have hnotice : (recordJson (.notice id (.obj fields))).get? "notice" = some (.obj fields) := rfl
      rw [frameOf, htype, hnotice, hvalid]
      simp [hid, EventRecord.id, Json.int?]

theorem framesOf_deliverable {records : List EventRecord} (h : ∀ record ∈ records, Deliverable record)
    (snapshot : Dict String Json) :
    ∃ frames, framesOf snapshot ((records.map fun record ↦ (record.id : ℤ)).zip (records.map recordJson)) =
        .ok frames ∧ List.Forall₂ (DeliveredAs snapshot) records frames := by
  induction records with
  | nil => exact ⟨[], rfl, .nil⟩
  | cons record records ih =>
      obtain ⟨frame, hframe, hdelivered⟩ := frameOf_deliverable (h record (List.mem_cons_self ..)) snapshot
      obtain ⟨frames, hframes, hall⟩ := ih fun other hother ↦ h other (List.mem_cons_of_mem _ hother)
      refine ⟨frame :: frames, ?_, .cons hdelivered hall⟩
      simp only [List.map_cons, List.zip_cons_cons, framesOf, hframe, hframes, ok_bind]

theorem validatedIds_ascending {after latest : ℤ} {records : List EventRecord} {previous : ℤ}
    (hprevious : after ≤ previous)
    (hafter : ∀ record ∈ records, previous < record.id) (hlatest : ∀ record ∈ records, (record.id : ℤ) ≤ latest)
    (hascending : (records.map EventRecord.id).Pairwise (· < ·)) :
    validatedIds after latest previous (records.map recordJson) =
      .ok (records.map fun record ↦ (record.id : ℤ)) := by
  induction records generalizing previous with
  | nil => rfl
  | cons record records ih =>
      obtain ⟨hfirst, hrest⟩ := List.pairwise_cons.mp hascending
      have hhead := hafter record (List.mem_cons_self ..)
      have hbound := hlatest record (List.mem_cons_self ..)
      have hid : validatedEventId after latest previous (recordJson record) = .ok (record.id : ℤ) := by
        have hobject : (recordJson record).isObject = true := by cases record <;> rfl
        have hget : (recordJson record).get? "id" = some (.int record.id) := by cases record <;> rfl
        simp only [validatedEventId, hobject, hget, strictNonNegativeInt, if_true, ok_bind]
        rw [if_pos (by omega), ok_bind, if_neg (by omega), if_neg (by omega), if_neg (by omega)]
      have htail := @ih record.id (by omega) (fun other hother ↦ by
        exact_mod_cast hfirst other.id (List.mem_map_of_mem hother))
        (fun other hother ↦ hlatest other (List.mem_cons_of_mem _ hother)) hrest
      simp only [List.map_cons, validatedIds, hid, htail, ok_bind]

/-- What a frame of a change tells of the store. -/
def SyncEvents.snapshot (payload : SyncEvents) : Dict String Json :=
  [("generation", .int payload.generation), ("state", .str (stateText payload.state))]

/-- A batch of deliverable records after the cursor is encoded, one frame for each. -/
theorem encodeSyncStream_payload {payload : SyncEvents} {after : ℕ}
    (hlength : payload.events.length ≤ maxRetainedEvents)
    (hafter : ∀ record ∈ payload.events, after < record.id)
    (hlatest : ∀ record ∈ payload.events, record.id ≤ payload.latestEventId)
    (hascending : (payload.events.map EventRecord.id).Pairwise (· < ·))
    (hdeliverable : ∀ record ∈ payload.events, Deliverable record) :
    ∃ frames, encodeSyncStream payload.toJson after = .ok (streamBytes frames) ∧
      List.Forall₂ (DeliveredAs payload.snapshot) payload.events frames := by
  have hids : validatedIds after payload.latestEventId after (payload.events.map recordJson) =
      .ok (payload.events.map fun record ↦ (record.id : ℤ)) := validatedIds_ascending
    le_rfl (fun record hrecord ↦ by exact_mod_cast hafter record hrecord)
    (fun record hrecord ↦ by exact_mod_cast hlatest record hrecord) hascending
  have hstate : matched "state is not a supported sync state" (· ∈ supportedStates)
      (some (.str (stateText payload.state))) = .ok (stateText payload.state) := by
    cases payload.state <;> rfl
  obtain ⟨frames, hframes, hdelivered⟩ := framesOf_deliverable hdeliverable payload.snapshot
  have hevents : eventsOf payload.toJson = .ok (payload.events.map recordJson) := by
    have hget : payload.toJson.get? "events" = some (.arr (payload.events.map recordJson)) := rfl
    rw [eventsOf, hget]
    exact if_neg (by simpa using hlength)
  have hcursor : strictNonNegativeInt (some (.int (after : ℤ))) "cursor" = .ok (after : ℤ) :=
    strictNonNegativeInt_natCast ..
  have hbound : strictNonNegativeInt (payload.toJson.get? "latest_event_id") "latest_event_id" =
      .ok (payload.latestEventId : ℤ) := strictNonNegativeInt_natCast ..
  have hidentifiers : validatedEventIds payload.toJson after =
      .ok (payload.events.map fun record ↦ (record.id : ℤ)) := by
    rw [validatedEventIds, hcursor, hbound, hevents]
    exact hids
  have hsnapshot : validatedSnapshot payload.toJson = .ok payload.snapshot := by
    have hgeneration : strictNonNegativeInt (payload.toJson.get? "generation") "generation" =
        .ok (payload.generation : ℤ) := strictNonNegativeInt_natCast ..
    have hget : payload.toJson.get? "state" = some (.str (stateText payload.state)) := rfl
    rw [validatedSnapshot, hgeneration, hget, hstate]
    rfl
  refine ⟨frames, ?_, hdelivered⟩
  rw [encodeSyncStream, validatedFrames, hidentifiers, hsnapshot, hevents]
  simp only [ok_bind, hframes]

/-! ## The window of a process -/

/-- What is in the window can be delivered, and its ids have no gap. -/
structure Delivers (m : Process) : Prop where
  contiguous : (window m).Contiguous 128 EventRecord.id
  deliverable : ∀ record ∈ m.events, Deliverable record

theorem delivers_fresh : Delivers .fresh where
  contiguous := ⟨rfl, rfl⟩
  deliverable := fun _ h ↦ absurd h (List.not_mem_nil)

/-- None of these types is that of a notice. -/
def Plain (types : List String) : Prop := ∀ type ∈ types, type ≠ changeNoticeType

theorem Plain.append {types more : List String} (h : Plain types) (h' : Plain more) : Plain (types ++ more) := by
  intro type htype
  rcases List.mem_append.mp htype with hold | hnew
  · exact h type hold
  · exact h' type hnew

theorem Plain.singleton {type : String} (h : type ≠ changeNoticeType) : Plain [type] := by
  intro other hother
  rwa [List.mem_singleton.mp hother]

variable {types : List String}

theorem Observed.plain (h : Observed types) : Plain types := by
  rcases h with rfl | ⟨state, -, rfl⟩
  · exact fun _ hmem ↦ absurd hmem (List.not_mem_nil)
  · exact .singleton (by cases state <;> decide)

theorem Trailing.plain (h : Trailing types) : Plain types := by
  obtain ⟨after, hafter, rfl⟩ := h
  exact (Plain.singleton (by decide)).append hafter.plain

theorem Committing.plain (h : Committing types) : Plain types := by
  obtain ⟨before, after, hbefore, hafter, rfl⟩ := h
  exact hbefore.plain.append (Trailing.plain ⟨after, hafter, rfl⟩)

theorem Failing.plain (h : Failing types) : Plain types := by
  rcases h with ⟨before, after, hbefore, hafter, rfl⟩ | hcommitting
  · exact hbefore.plain.append hafter.plain
  · exact hcommitting.plain

theorem Recovering.plain (h : Recovering types) : Plain types := by
  rcases h with rfl | htrailing
  · exact Observed.nothing.plain
  · exact htrailing.plain

variable {m n : Process}

theorem Delivers.emits (h : Delivers m) (hemits : Emits types m n) (hplain : Plain types) : Delivers n := by
  obtain ⟨events, htypes, hids, hwindow⟩ := hemits
  constructor
  · rw [hwindow]
    apply h.contiguous.pushAll
    rw [List.map_map, List.length_map]
    exact hids
  · intro record hrecord
    rw [← window_retained, hwindow] at hrecord
    rcases Window.mem_pushAll hrecord with hold | hnew
    · exact h.deliverable record hold
    · obtain ⟨event, hevent, rfl⟩ := List.mem_map.mp hnew
      apply hplain
      rw [← htypes]
      exact List.mem_map_of_mem hevent

theorem Delivers.recordNotice {m : Process} {notice : Json} (h : Delivers m)
    (hnotice : Frozen (m.eventSequence + 1) notice) : Delivers (recordNotice notice m) := by
  have hwindow : window (WorkStack.Events.recordNotice notice m) =
      (window m).push 128 (.notice (m.eventSequence + 1) notice) := by
    simp only [window, WorkStack.Events.recordNotice, Window.push]
  constructor
  · rw [hwindow]
    exact h.contiguous.push rfl
  · intro record hrecord
    rw [← window_retained, hwindow] at hrecord
    rcases Window.mem_push hrecord with hold | rfl
    · exact h.deliverable record hold
    · exact hnotice

/-! ## Requests -/

section Requests

variable {R : StoreRules} {I : Interpreter} {α β : Type} {c : StoreCommand α} {f : α → StoreCommand β}

/-- The command leaves a deliverable window deliverable, however it ends. -/
def Keeping (R : StoreRules) (c : StoreCommand α) : Prop :=
  ∀ m w, Delivers m →
    Command.wp (besideEditor R) c (fun _ n _ ↦ Delivers n) (fun _ n _ ↦ Delivers n) m w

theorem Emitting.keeping {Q : α → List String → Prop} {E : List String → Prop} (h : Emitting R c Q E)
    (hQ : ∀ a types, Q a types → Plain types) (hE : ∀ types, E types → Plain types) : Keeping R c := by
  intro m w hm
  apply Command.wp_mono (h m w)
  · rintro a n u ⟨types, hemits, hreports⟩
    exact hm.emits hemits (hQ a types hreports)
  · rintro e n u ⟨types, hemits, hreports⟩
    exact hm.emits hemits (hE types hreports)

theorem Keeping.pure {a : α} : Keeping R (pure a) := fun _ _ h ↦ h

theorem Keeping.throw {error : StoreError} : Keeping R (Command.throw error : StoreCommand α) :=
  fun _ _ h ↦ h

theorem Keeping.bind (hc : Keeping R c) (hf : ∀ a, Keeping R (f a)) : Keeping R (c >>= f) :=
  fun m w hm ↦ Command.wp_seq (hc m w hm) (fun a n u hn ↦ hf a n u hn) fun _ _ _ h ↦ h

theorem Keeping.ite {p : Prop} [Decidable p] {d : StoreCommand α} (hc : Keeping R c) (hd : Keeping R d) :
    Keeping R (if p then c else d) := by
  by_cases hp : p
  · rwa [if_pos hp]
  · rwa [if_neg hp]

theorem Keeping.of_within {P : DiskOp → Prop} (h : Command.Within (.same P) c) : Keeping R c := by
  apply (Emitting.of_within h).keeping
  · rintro _ _ rfl
    exact Observed.nothing.plain
  · rintro _ rfl
    exact Observed.nothing.plain

theorem Keeping.fold {ι : Type} {body : β → ι → StoreCommand β} (hbody : ∀ acc item, Keeping R (body acc item))
    (items : List ι) (acc : β) : Keeping R (Command.fold body items acc) := by
  induction items generalizing acc with
  | nil => exact .pure
  | cons item items ih => exact .bind (hbody acc item) ih

theorem keeping_inspectSync : Keeping R (inspectSync R) :=
  emitting_inspectSync.keeping (fun _ _ h ↦ h.1.plain) fun _ h ↦ h.plain

theorem keeping_syncStatus : Keeping R (syncStatus R) :=
  emitting_syncStatus.keeping (fun _ _ h ↦ h.plain) fun _ h ↦ h.plain

theorem keeping_recoverLocked : Keeping R (recoverLocked R) :=
  emitting_recoverLocked.keeping (fun _ _ h ↦ h.plain) fun _ h ↦ h.plain

theorem keeping_commitPrepared (journal : Journal) (writes : Writes) :
    Keeping R (commitPrepared R journal writes) :=
  (emitting_commitPrepared journal writes).keeping (fun _ _ h ↦ h.plain) fun _ h ↦ h.plain

theorem keeping_transaction (hc : Keeping R c) : Keeping R (transaction R c) :=
  .bind keeping_recoverLocked fun _ ↦ hc

theorem keeping_saveMany (writes : WriteSet) (operationId : Option String) (context : SaveContext) :
    Keeping R (saveMany R writes operationId context) :=
  .ite .pure (.ite .throw (keeping_transaction (keeping_commitPrepared _ _)))

theorem keeping_saveManyNested (writes : WriteSet) (operationId : Option String) (context : SaveContext) :
    Keeping R (saveManyNested R writes operationId context) :=
  .ite .pure (.ite .throw (.bind (.of_within (P := fun _ ↦ True) (within_step trivial)) fun _ ↦
    .ite .throw (keeping_commitPrepared _ _)))

theorem keeping_adoptReviewed (status : SyncStatus) (key : Option String) (generation : ℕ) (digest : Digest) :
    Keeping R (adoptReviewed R status key generation digest) := by
  apply Keeping.bind keeping_inspectSync
  intro current
  apply Keeping.ite .throw
  apply Keeping.bind
  · apply (emitting_writeCommittedManifest status.changedFiles "store.external-change-adopted" none).keeping
    · rintro _ _ rfl
      exact .singleton (by decide)
    · exact fun _ h ↦ h.plain
  · intro _
    apply Keeping.bind (.of_within (Within.reads within_readManifest))
    intro manifest
    cases manifest with
    | none => exact .throw
    | some manifest =>
        exact .bind (.of_within (P := fun _ ↦ True) (within_step trivial)) fun _ ↦ keeping_syncStatus

theorem keeping_adoptExternalChange (generation : ℕ) (digest : Digest) (key : Option String) :
    Keeping R (adoptExternalChange R generation digest key) := by
  apply Keeping.ite .throw
  apply keeping_transaction
  apply Keeping.bind keeping_inspectSync
  intro status
  apply Keeping.bind (.of_within (Within.reads within_readAdoptionReceipt))
  intro receipt
  apply Keeping.bind (.of_within (P := fun _ ↦ True) (.ofExcept _))
  intro _
  apply Keeping.bind (.of_within (Within.reads (within_adoptionReplay _ _ _ _)))
  intro replayed
  exact .ite keeping_syncStatus (.ite .throw (keeping_adoptReviewed _ _ _ _))

/-- A published notice was judged under the id it is appended with. -/
theorem keeping_publishChangeNotice (source : NoticeSource) :
    Keeping R (publishChangeNotice (source.build I)) := by
  intro m w hm
  rw [publishChangeNotice, Command.wp_bind, Command.wp_memory, Command.wp_bind]
  apply Command.wp_ofExcept
  · intro notice hnotice
    have hbuilt : source.build I (m.eventSequence + 1) = .ok notice := by
      cases hbuild : source.build I (m.eventSequence + 1) with
      | error text => simp [hbuild, Except.mapError] at hnotice
      | ok built => simpa [hbuild, Except.mapError] using hnotice
    by_cases hobject : notice.isObject = true
    · rw [if_neg (not_not.mpr hobject)]
      exact hm.recordNotice (frozen_build hbuilt)
    · rw [if_pos hobject]
      exact hm
  · exact fun _ _ ↦ hm

theorem keeping_syncEvents (after : ℤ) : Keeping R (syncEvents R after) :=
  .ite .throw (.bind keeping_inspectSync fun _ ↦ .bind (fun _ _ h ↦ h) fun _ ↦ .pure)

theorem keeping_command (call : WindowCall) : Keeping R (call.command R I) := by
  cases call with
  | store call =>
      cases call with
      | saveMany writes operationId context => exact keeping_saveMany _ _ _
      | recover => exact keeping_recoverLocked
  | adopt generation digest key => exact .bind (keeping_adoptExternalChange _ _ _) fun _ ↦ .pure
  | status => exact .bind keeping_syncStatus fun _ ↦ .pure
  | events after => exact .bind (keeping_syncEvents after) fun _ ↦ .pure
  | publish source => exact .bind (keeping_transaction (keeping_publishChangeNotice source)) fun _ ↦ .pure
  | record writes operationId context source =>
      exact .bind (keeping_transaction (.bind (keeping_saveManyNested _ _ _) fun _ ↦
        keeping_publishChangeNotice source)) fun _ ↦ .pure

theorem keeping_serve (calls : List WindowCall) : Keeping R (serve R I calls) := by
  apply Keeping.fold
  intro _ call m w hm
  rw [Command.wp_catching]
  exact keeping_command call m w hm

/-- A client is handed what is in the window after its cursor. -/
theorem wp_syncEvents (after : ℕ) {m : Process} {w : Disk} (hm : Delivers m) :
    Command.wp (besideEditor R) (syncEvents R after)
      (fun payload n _ ↦ Delivers n ∧ payload.latestEventId = n.eventSequence ∧
        payload.events = n.events.filter (after < ·.id)) (fun _ _ _ ↦ True) m w := by
  rw [syncEvents, if_neg (not_lt.mpr (Int.natCast_nonneg after))]
  apply Command.wp_seq (keeping_inspectSync m w hm)
  · intro status n u hn
    refine ⟨hn, rfl, ?_⟩
    simp only [Int.ofNat_lt]
  · exact fun _ _ _ _ ↦ trivial

theorem Delivers.ids {m : Process} (h : Delivers m) :
    m.events.map EventRecord.id =
      List.range' (m.eventSequence + 1 - min m.eventSequence 128) (min m.eventSequence 128) := by
  have hlength : m.events.length = min m.eventSequence 128 := h.contiguous.length
  rw [← hlength]
  exact h.contiguous.numbers

/-- The batch after a cursor of a deliverable window is encoded. -/
theorem encodeSyncStream_window {payload : SyncEvents} {after : ℕ} {m : Process} (hm : Delivers m)
    (hlatest : payload.latestEventId = m.eventSequence)
    (hevents : payload.events = m.events.filter (after < ·.id)) :
    ∃ frames, encodeSyncStream payload.toJson after = .ok (streamBytes frames) ∧
      List.Forall₂ (DeliveredAs payload.snapshot) payload.events frames := by
  have hmem : ∀ record ∈ payload.events, record ∈ m.events ∧ after < record.id := by
    intro record hrecord
    rw [hevents, List.mem_filter] at hrecord
    exact ⟨hrecord.1, of_decide_eq_true hrecord.2⟩
  have hlength : m.events.length = min m.eventSequence 128 := hm.contiguous.length
  apply encodeSyncStream_payload
  · rw [hevents, maxRetainedEvents]
    exact (List.length_filter_le _ _).trans (by omega)
  · exact fun record hrecord ↦ (hmem record hrecord).2
  · intro record hrecord
    rw [hlatest]
    exact hm.contiguous.le_latest (hmem record hrecord).1
  · rw [hevents]
    exact hm.contiguous.pairwise.sublist (List.filter_sublist.map _)
  · exact fun record hrecord ↦ hm.deliverable record (hmem record hrecord).1

/-- In a data directory that its manifest describes, the batch is always handed out. -/
theorem observes_syncEvents (after : ℕ) {m : Process} {disk : Disk} (h : InSync R disk) :
    ∃ payload n, window n = window m ∧
      Command.Observes (machine R) disk (syncEvents R after) m (.ok payload) n := by
  obtain ⟨manifest, hmanifest, hvalid, hdescribes⟩ := h.manifest
  obtain ⟨status, -, -, hstatus⟩ :=
    observes_inspectSync (m := m) hmanifest hvalid hdescribes.complete hdescribes.files
  rw [syncEvents, if_neg (not_lt.mpr (Int.natCast_nonneg after))]
  exact ⟨_, rememberedInSync m manifest, rfl, .bind hstatus (.bind .memory (.pure _))⟩

/-! ## Ids of a commit -/

theorem Observed.length_le (h : Observed types) : types.length ≤ 1 := by
  rcases h with rfl | ⟨state, -, rfl⟩
  · exact Nat.zero_le 1
  · exact le_rfl

theorem Observed.not_committed (h : Observed types) :
    ∀ type ∈ types, type ≠ "store.committed" := by
  rcases h with rfl | ⟨state, -, rfl⟩
  · exact fun _ hmem ↦ absurd hmem (List.not_mem_nil)
  · intro type hmem
    rw [List.mem_singleton.mp hmem]
    cases state <;> decide

theorem Committing.length_le (h : Committing types) : types.length ≤ 3 := by
  obtain ⟨before, after, hbefore, hafter, rfl⟩ := h
  have hfirst := hbefore.length_le
  have hlast := hafter.length_le
  rw [List.length_append, List.length_cons]
  omega

theorem Failing.length_le (h : Failing types) : types.length ≤ 3 := by
  rcases h with ⟨before, after, hbefore, hafter, rfl⟩ | hcommitting
  · have hfirst := hbefore.length_le
    have hlast := hafter.length_le
    rw [List.length_append]
    omega
  · exact hcommitting.length_le

theorem Recovering.length_le (h : Recovering types) : types.length ≤ 2 := by
  rcases h with rfl | ⟨after, hafter, rfl⟩
  · exact Nat.zero_le 2
  · have hlast := hafter.length_le
    rw [List.length_cons]
    omega

/-- The last commit that was appended between two memories has an id within the projected one. -/
def Reported (m n : Process) : Prop :=
  ∃ (before : List ChangeEvent) (event : ChangeEvent) (after : List ChangeEvent),
    window n = (window m).pushAll 128 ((before ++ event :: after).map .change) ∧
    event.type = "store.committed" ∧ (∀ other ∈ after, other.type ≠ "store.committed") ∧
    event.id ≤ projectedChangeEventId m maxCommitEvents

theorem Emits.reported {before after : List String} (h : Emits (before ++ "store.committed" :: after) m n)
    (hbefore : before.length ≤ maxCommitEvents) (hafter : ∀ type ∈ after, type ≠ "store.committed") : Reported m n := by
  obtain ⟨events, htypes, hids, hwindow⟩ := h
  obtain ⟨first, rest, rfl, hfirst, hrest⟩ := List.map_eq_append_iff.mp htypes
  obtain ⟨event, later, rfl, htype, hlater⟩ := List.map_eq_cons_iff.mp hrest
  refine ⟨first, event, later, hwindow, htype, ?_, ?_⟩
  · intro other hother
    apply hafter
    rw [← hlater]
    exact List.mem_map_of_mem hother
  · have hid : event.id = m.eventSequence + 1 + first.length := by
      have hat := congrArg (fun ids ↦ ids[first.length]?) hids
      simpa [List.getElem?_range'] using hat
    have hlength : first.length = before.length := by rw [← hfirst, List.length_map]
    rw [projectedChangeEventId, hid]
    omega

variable {writes : WriteSet}

theorem emitting_saveManyNested (hwrites : writes.entries ≠ []) (operationId : Option String) (context : SaveContext) :
    Emitting R (saveManyNested R writes operationId context) (fun _ ↦ Committing) Failing := by
  rw [saveManyNested, if_neg hwrites]
  apply Emitting.ite (fun _ ↦ .throw Failing.nothing)
  intro _
  refine .silent_bind Failing.nothing (.step _) fun pending ↦ ?_
  apply Emitting.ite (fun _ ↦ .throw Failing.nothing)
  exact fun _ ↦ emitting_commitPrepared _ _

/-- A save of its own starts with a recovery. -/
theorem emitting_saveMany (hwrites : writes.entries ≠ []) (operationId : Option String) (context : SaveContext) :
    Emitting R (saveMany R writes operationId context)
      (fun _ types ↦ ∃ recovered committed, Recovering recovered ∧ Committing committed ∧
        types = recovered ++ committed) fun _ ↦ True := by
  rw [saveMany, if_neg hwrites]
  apply Emitting.ite (fun _ ↦ .throw trivial)
  intro _
  apply Emitting.bind emitting_recoverLocked
  · intro _ recovered hrecovered
    apply (emitting_commitPrepared _ _).mono
    · exact fun _ committed hcommitted ↦ ⟨recovered, committed, hrecovered, hcommitted, rfl⟩
    · exact fun _ _ ↦ trivial
  · exact fun _ _ ↦ trivial

/-- What a nested save appends leaves the id of the next notice within the projected one. -/
theorem saveManyNested_run {operationId : Option String} {context : SaveContext} {disk later : Disk}
    {trace : List (Event (machine R))} {outcome : Except StoreError Unit}
    (hrun : Run (machine R) Disk.ExternalEdit (saveManyNested R writes operationId context m) disk trace
      (.pure (outcome, n)) later) :
    (outcome = .ok () → writes.entries ≠ [] → Reported m n) ∧
      n.eventSequence + 1 ≤ projectedChangeEventId m maxCommitEvents := by
  by_cases hwrites : writes.entries = []
  · rw [saveManyNested, if_pos hwrites] at hrun
    cases (hrun.pure_cases (.pure (outcome, n))).1
    refine ⟨fun _ hsome ↦ absurd hwrites hsome, ?_⟩
    rw [projectedChangeEventId]
    omega
  · obtain ⟨types, hemits, hreports⟩ := (emitting_saveManyNested hwrites operationId context).run hrun
    have hsequence := hemits.eventSequence
    have hlength : types.length ≤ maxCommitEvents := by
      cases outcome with
      | ok _ => exact Committing.length_le hreports
      | error _ => exact Failing.length_le hreports
    refine ⟨?_, ?_⟩
    · rintro rfl -
      obtain ⟨before, after, hbefore, hafter, rfl⟩ := hreports
      have hfirst := hbefore.length_le
      exact hemits.reported (hfirst.trans (by decide)) hafter.not_committed
    · rw [projectedChangeEventId, hsequence]
      omega

theorem saveMany_run {operationId : Option String} {context : SaveContext} {disk later : Disk}
    {trace : List (Event (machine R))} (hwrites : writes.entries ≠ [])
    (hrun : Run (machine R) Disk.ExternalEdit (saveMany R writes operationId context m) disk trace
      (.pure (.ok (), n)) later) :
    Reported m n := by
  obtain ⟨types, hemits, recovered, committed, hrecovered, ⟨before, after, hbefore, hafter, rfl⟩, rfl⟩ :=
    (emitting_saveMany hwrites operationId context).run hrun
  rw [← List.append_assoc] at hemits
  have hfirst := hrecovered.length_le
  have hsecond := hbefore.length_le
  apply hemits.reported
  · rw [List.length_append]
    exact Nat.add_le_add hfirst hsecond
  · exact hafter.not_committed

/-- A notice takes the next id, and a rejected one takes none. -/
theorem publishChangeNotice_run {build : ℕ → Except String Json} {w u : Disk} {outcome : Except StoreError ℕ}
    (h : (publishChangeNotice build).run (machine R) m w = ((outcome, n), u)) :
    (∀ id, outcome = .ok id → id = m.eventSequence + 1) ∧ (∀ error, outcome = .error error → n = m) := by
  have hwp : Command.wp (besideEditor R) (publishChangeNotice build)
      (fun id _ _ ↦ id = m.eventSequence + 1) (fun _ n _ ↦ n = m) m w := by
    rw [publishChangeNotice, Command.wp_bind, Command.wp_memory, Command.wp_bind]
    apply Command.wp_ofExcept
    · intro notice _
      by_cases hobject : notice.isObject = true
      · rw [if_neg (not_not.mpr hobject)]
        exact rfl
      · rw [if_pos hobject]
        exact rfl
    · exact fun _ _ ↦ rfl
  obtain ⟨events, hrun⟩ := Run.of_run (M := machine R) (publishChangeNotice build m) w
  have hended : (publishChangeNotice build m).run (machine R) w = ((outcome, n), u) := h
  rw [hended] at hrun
  obtain ⟨-, v, -, hpost⟩ := wp_run hwp hrun (fun _ _ move ↦ move.elim) fun _ _ _ ↦ trivial
  constructor
  · rintro id rfl
    exact hpost
  · rintro error rfl
    exact hpost

end Requests

/-- Whatever a process committed and published and whatever an editor did meanwhile, the batch after a
cursor is encoded, with one frame for each retained record after the cursor, in ascending order. A
rejected notice takes no id. A commit is reported, and a notice of it published, within the id that was
projected before. -/
theorem event_stream_delivery (R : StoreRules) (I : Interpreter) :
    (∀ (calls : List WindowCall) (after : ℕ) (disk later : Disk) (trace : List (Event (machine R)))
        (payload : SyncEvents) (n : Process),
      Run (machine R) Disk.ExternalEdit ((do serve R I calls; syncEvents R after) Process.fresh) disk trace
        (.pure (.ok payload, n)) later →
      (∃ frames, encodeSyncStream payload.toJson after = .ok (streamBytes frames) ∧
        List.Forall₂ (DeliveredAs payload.snapshot) (n.events.filter (after < ·.id)) frames) ∧
      n.events.map EventRecord.id = List.range' (n.eventSequence + 1 - min n.eventSequence 128)
        (min n.eventSequence 128)) ∧
    (∀ (after : ℕ) (m : Process) (disk : Disk), InSync R disk →
      ∃ payload n, (syncEvents R after).run (machine R) m disk = ((.ok payload, n), disk)) ∧
    (∀ (build : ℕ → Except String Json) (m n : Process) (disk later : Disk) (error : StoreError),
      (publishChangeNotice build).run (machine R) m disk = ((.error error, n), later) → n = m) ∧
    (∀ (writes : WriteSet) (operationId : Option String) (context : SaveContext) (m n : Process)
        (disk later : Disk) (trace : List (Event (machine R))), writes.entries ≠ [] →
      Run (machine R) Disk.ExternalEdit (saveMany R writes operationId context m) disk trace
        (.pure (.ok (), n)) later → Reported m n) ∧
    ∀ (writes : WriteSet) (operationId : Option String) (context : SaveContext) (m n k : Process)
        (disk later : Disk) (trace : List (Event (machine R))) (outcome : Except StoreError Unit),
      Run (machine R) Disk.ExternalEdit (saveManyNested R writes operationId context m) disk trace
        (.pure (outcome, n)) later →
      (outcome = .ok () → writes.entries ≠ [] → Reported m n) ∧
      ∀ build id, (publishChangeNotice build).run (machine R) n later = ((.ok id, k), later) →
        id ≤ projectedChangeEventId m maxCommitEvents := by
  refine ⟨?_, ?_, ?_, ?_, ?_⟩
  · intro calls after disk later trace payload n hrun
    have hwp : Command.wp (besideEditor R) (do serve R I calls; syncEvents R after)
        (fun payload n _ ↦ Delivers n ∧ payload.latestEventId = n.eventSequence ∧
          payload.events = n.events.filter (after < ·.id)) (fun _ _ _ ↦ True) .fresh disk :=
      Command.wp_seq (keeping_serve calls .fresh disk delivers_fresh)
        (fun _ _ _ hm ↦ wp_syncEvents after hm) fun _ _ _ _ ↦ trivial
    obtain ⟨-, u, -, hdelivers, hlatest, hevents⟩ :=
      wp_run hwp hrun (fun _ _ move ↦ move) fun _ _ _ ↦ trivial
    exact ⟨hevents ▸ encodeSyncStream_window hdelivers hlatest hevents, hdelivers.ids⟩
  · intro after m disk hsync
    obtain ⟨payload, n, -, hobserves⟩ := observes_syncEvents after hsync
    exact ⟨payload, n, hobserves.run⟩
  · exact fun build m n disk later error h ↦ (publishChangeNotice_run h).2 error rfl
  · exact fun writes operationId context m n disk later trace hwrites hrun ↦ saveMany_run hwrites hrun
  · intro writes operationId context m n k disk later trace outcome hrun
    obtain ⟨hreported, hnext⟩ := saveManyNested_run hrun
    refine ⟨hreported, fun build id hpublish ↦ ?_⟩
    rw [(publishChangeNotice_run hpublish).1 id rfl]
    exact hnext

section Sample

def sampleFacts : Json := .obj [
  ("recorded", .obj [
    ("type", .str "worklog.recorded"),
    ("workspace_uid", .str sampleWorkspaceId),
    ("task_id", .str "T-0001"),
    ("checkpoint_id", .str "CP-aaaaaaaaaaaaaaaaaaaaaaaaaaaaaaaaaaaaaaaaaaaaaaaaaaaaaaaaaaaaaaaa"),
    ("date", .str "2026-01-05"),
    ("ordinal", .int 0),
    ("entry_digest", .str "sha256:aaaaaaaaaaaaaaaaaaaaaaaaaaaaaaaaaaaaaaaaaaaaaaaaaaaaaaaaaaaaaaaa"),
    ("origin", .str attributedOrigin)]),
  ("done_count", .int 1),
  ("next_count", .int 0),
  ("blocker_count", .int 0),
  ("first_for_task", .bool true)]

theorem observes_sample_publication {R : StoreRules} {I : Interpreter} {disk : Disk}
    (hjournal : disk.journal = none) :
    ∃ notice, Command.Observes (machine R) disk (serve R I [.publish (.committed sampleFacts)]) .fresh
      (.ok ()) (recordNotice notice .fresh) := by
  have hbuilds : (buildCommittedNotice sampleFacts 1).toOption.any Json.isObject = true := by decide
  cases hbuild : buildCommittedNotice sampleFacts 1 with
  | error text => simp [hbuild, Except.toOption] at hbuilds
  | ok notice =>
      have hobject : notice.isObject = true := by simpa [hbuild, Except.toOption] using hbuilds
      have hpublish : Command.Observes (machine R) disk
          (publishChangeNotice ((NoticeSource.committed sampleFacts).build I)) .fresh (.ok 1)
          (recordNotice notice .fresh) := by
        have hresult : ((NoticeSource.committed sampleFacts).build I (Process.fresh.eventSequence + 1)).mapError
            StoreError.value = .ok notice := congrArg (Except.mapError StoreError.value) hbuild
        apply Command.Observes.bind .memory
        rw [hresult]
        apply Command.Observes.bind (.ofExcept (.ok notice))
        rw [if_neg (not_not.mpr hobject)]
        exact .bind (.remember _) (.pure _)
      exact ⟨notice, .bind (.catching_ok (.bind (.bind (recoverLocked_of_no_journal hjournal) hpublish)
        (.pure ()))) (.pure ())⟩

/-- A published notice is delivered under the id one, and beside a save another one fits. -/
theorem event_stream_delivery_sample :
    (∃ (payload : SyncEvents) (frame : Frame), encodeSyncStream payload.toJson 0 = .ok (streamBytes [frame]) ∧
      frame.id = 1 ∧ frame.name = changeEventName) ∧
    ∃ (n : Process) (later : Disk), ∀ id k, (publishChangeNotice (buildCommittedNotice sampleFacts)).run
      (machine (sampleRules [])) n later = ((.ok id, k), later) → id ≤ 4 := by
  obtain ⟨hstream, -, -, -, hsave⟩ := event_stream_delivery (sampleRules []) asciiInterpreter
  have hsync := sampleDisk_inSync []
  obtain ⟨notice, hpublished⟩ := observes_sample_publication (R := sampleRules []) (I := asciiInterpreter)
    hsync.journal
  obtain ⟨payload, n, hwindow, hbatch⟩ :=
    observes_syncEvents (R := sampleRules []) 0 (m := recordNotice notice .fresh) hsync
  obtain ⟨trace, hrun⟩ := Prog.Observes.exists_run
    (Command.Observes.bind (f := fun _ ↦ syncEvents (sampleRules []) 0) hpublished hbatch)
  obtain ⟨⟨frames, hencoded, hframes⟩, -⟩ :=
    hstream _ 0 _ _ trace payload n (hrun.mono fun _ _ move ↦ move.elim)
  have hevents : n.events = [.notice 1 notice] := congrArg Window.retained hwindow
  rw [hevents] at hframes
  obtain ⟨frame, rest, hdelivered, hrest, rfl⟩ := List.forall₂_cons_left_iff.mp hframes
  cases hrest
  obtain ⟨fields, -, hname, -⟩ := hdelivered.content
  obtain ⟨outcome, k, later, events, hsaved⟩ := Command.exists_run (machine (sampleRules []))
    (saveManyNested (sampleRules []) sampleWrites none ⟨"2026-01-05T09:00:00Z", "1"⟩) .fresh (sampleDisk [])
  have hsaved' : Run (machine (sampleRules [])) Disk.ExternalEdit _ _ _ _ _ :=
    hsaved.mono fun _ _ move ↦ move.elim
  refine ⟨⟨payload, frame, hencoded, hdelivered.id, hname⟩, k, later, fun id next hpublish ↦ ?_⟩
  exact (hsave _ _ _ _ k next _ later events outcome hsaved').2 _ id hpublish

end Sample

end WorkStack.Events
