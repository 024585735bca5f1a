import WorkStack.Service.NoticeRuns

/-!
# A notice is undone once

An undo that is saved was built from the notice that is found under its id, for a Task that is still at the
revision of that notice. The write raises the revision, the notice stays what is found, and so no later undo
of it is ever built. What an undo leaves is a notice of its own, under another key, which may be undone in
its turn.
-/

namespace WorkStack.Service

open Effect.Outcome Python

variable {P : Platform} {documents after : Documents} {clock : Clock}

/-! ## The undo of a notice -/

/-- What an undo that was saved came from, step by step. -/
structure SavedUndo (P : Platform) (documents after : Documents) (clock : Clock) (noticeId : String) where
  notice : Record
  tasks : List Json
  index : ℕ
  task : Record
  current : ℤ
  compensation : Record
  id : String
  before : String
  next : ℤ
  activity : Record
  updated : Record
  logged : Record
  noticed : findNotice P documents.activity (.str noticeId) = .ok (some notice)
  listed : listAt documents.backlog "tasks" = .ok tasks
  found : taskForNotice (valueAt notice "entity_uid") 0 tasks = .ok (index, task)
  revision : Service.revision task = .ok current
  compensated : compensationFor P documents notice task current = .ok compensation
  id_eq : taskIdOf task = .ok id
  before_eq : projectedStatus P documents.backlog documents.activity id = .ok before
  changes : P.str (valueAt compensation "requested_status") ≠ before
  next_eq : nextNoticeRevision task = .ok next
  change_eq : changeStatus P documents documents.activity task "api.v1" ⟨before,
    P.str (valueAt compensation "requested_status"), current, next, P.str (valueAt compensation "idempotency_key"),
    "gui"⟩ (clock.now 0).utcNow (clock.now 1).utcNow = .ok (activity, updated)
  logged_eq : ∃ intent status createdAt response,
    recordIdempotency activity intent status createdAt response = .ok logged
  after_eq : after = withTask documents tasks index (touched updated (clock.today 0) next) logged

theorem listOrEmpty_listAt {backlog : Record} {tasks : List Json} {task : Json}
    (h : listOrEmpty (valueAt backlog "tasks") = .ok tasks) (hmem : task ∈ tasks) : listAt backlog "tasks" = .ok tasks := by
  unfold listOrEmpty at h
  split at h
  · rw [asList_eq_ok] at h
    unfold valueAt at h
    cases hget : backlog.get "tasks" with
    | none =>
        rw [hget] at h
        cases h
    | some value =>
        rw [hget] at h
        cases h
        exact listAt_of_get hget
  · cases h
    exact absurd hmem List.not_mem_nil

/-- The Task of a notice is the first one with its identity. -/
theorem taskForNotice_spec {entityUid : Json} {tasks : List Json} {start index : ℕ} {task : Record}
    (h : taskForNotice entityUid start tasks = .ok (index, task)) :
    start ≤ index ∧ tasks[index - start]? = some (.obj task) ∧ Json.same (valueAt task "uid") entityUid = true := by
  induction tasks generalizing start with
  | nil => cases h
  | cons item tasks ih =>
      have hlater (h : taskForNotice entityUid (start + 1) tasks = .ok (index, task)) :
          start ≤ index ∧ (item :: tasks)[index - start]? = some (.obj task) ∧
            Json.same (valueAt task "uid") entityUid = true := by
        obtain ⟨hle, hget, hsame⟩ := ih h
        refine ⟨by omega, ?_, hsame⟩
        rw [show index - start = index - (start + 1) + 1 by omega, List.getElem?_cons_succ]
        exact hget
      cases item with
      | obj candidate =>
          simp only [taskForNotice] at h
          split at h
          · next hsame =>
              cases h
              rw [Nat.sub_self]
              exact ⟨le_refl _, rfl, hsame⟩
          · exact hlater h
      | _ => exact hlater h

/-- An undo answers with what an earlier request left in the ledger, or it is saved. -/
theorem undoMutationNotice_eq_ok {noticeId key path : String} {body : Json} {requestDigest : Option Store.Digest}
    {response : Response} {saved : Option Documents}
    (h : undoMutationNotice P documents clock noticeId body key path requestDigest = .ok ⟨response, saved⟩) :
    (saved = none ∧ ∃ digest, idempotencyReplay P.toInterpreter documents.activity documents.replies
      ⟨key, "POST", path, digest⟩ = .ok (some response)) ∨
    ∃ after, saved = some after ∧ Nonempty (SavedUndo P documents after clock noticeId) := by
  obtain ⟨⟨⟩, -, h⟩ := bind_eq_ok.mp h
  obtain ⟨expected, -, h⟩ := bind_eq_ok.mp h
  obtain ⟨canonicalId, hcanonical, h⟩ := bind_eq_ok.mp h
  obtain ⟨digest, -, hkeyed⟩ := bind_eq_ok.mp h
  clear h
  have hid : canonicalId = noticeId := by
    unfold canonicalNoticeId at hcanonical
    split at hcanonical
    · exact (Except.ok.inj hcanonical).symm
    · cases hcanonical
  subst hid
  obtain ⟨replay, hreplay, h⟩ := bind_eq_ok.mp hkeyed
  clear hkeyed
  cases replay with
  | some earlier =>
      cases h
      exact .inl ⟨rfl, digest, hreplay⟩
  | none =>
      right
      dsimp only at h
      obtain ⟨notice, hnotice, h⟩ := bind_eq_ok.mp h
      obtain ⟨tasks, htasks, h⟩ := bind_eq_ok.mp h
      obtain ⟨⟨index, task⟩, hfound, h⟩ := bind_eq_ok.mp h
      obtain ⟨current, hcurrent, h⟩ := bind_eq_ok.mp h
      split at h
      · cases h
      obtain ⟨compensation, hcompensation, h⟩ := bind_eq_ok.mp h
      obtain ⟨⟨activity, updated, status⟩, happly, h⟩ := bind_eq_ok.mp h
      obtain ⟨projected, -, h⟩ := bind_eq_ok.mp h
      obtain ⟨logged, hlogged, h⟩ := bind_eq_ok.mp h
      cases h
      obtain ⟨id, hid, happly⟩ := bind_eq_ok.mp happly
      obtain ⟨before, hbefore, happly⟩ := bind_eq_ok.mp happly
      dsimp only at happly hcurrent hcompensation
      split at happly
      · cases happly
      next hchanges =>
      obtain ⟨next, hnext, happly⟩ := bind_eq_ok.mp happly
      obtain ⟨⟨changed, settled⟩, hchange, happly⟩ := bind_eq_ok.mp happly
      cases happly
      have hnoticed : findNotice P documents.activity (.str canonicalId) = .ok (some notice) := by
        obtain ⟨found, hfoundNotice, hnotice⟩ := bind_eq_ok.mp hnotice
        cases found with
        | none => cases hnotice
        | some found =>
            obtain ⟨uid, -, hnotice⟩ := bind_eq_ok.mp hnotice
            split at hnotice
            · cases hnotice
              exact hfoundNotice
            · cases hnotice
      have hlisted := listOrEmpty_listAt htasks (List.mem_of_getElem? (taskForNotice_spec hfound).2.1)
      exact ⟨_, rfl, ⟨⟨notice, tasks, index, task, current, compensation, id, before, next, changed, settled, logged,
        hnoticed, hlisted, hfound, hcurrent, hcompensation, hid, hbefore, hchanges, hnext, hchange,
        ⟨_, _, _, _, hlogged⟩, rfl⟩⟩⟩

/-! ## What a compensation is built from -/

/-- Validating a compensation keeps the status it asks for and its key. -/
theorem validateCompensation_eq_ok {fields compensation : Record} (h : validateCompensation P (.obj fields) = .ok compensation) :
    ∃ requested ∈ taskStatuses, valueAt fields "requested_status" = .str requested ∧
      valueAt compensation "requested_status" = .str requested ∧
      valueAt compensation "idempotency_key" = valueAt fields "idempotency_key" := by
  obtain ⟨mapping, hmapping, h⟩ := bind_eq_ok.mp h
  cases exactFields_eq_ok hmapping
  dsimp only at h
  split at h
  · cases h
  split at h
  · cases h
  obtain ⟨operation, -, h⟩ := bind_eq_ok.mp h
  obtain ⟨entityKind, -, h⟩ := bind_eq_ok.mp h
  obtain ⟨entityUid, -, h⟩ := bind_eq_ok.mp h
  obtain ⟨expectedRevision, -, h⟩ := bind_eq_ok.mp h
  obtain ⟨key, hkey, h⟩ := bind_eq_ok.mp h
  obtain ⟨noticeId, -, h⟩ := bind_eq_ok.mp h
  obtain ⟨requested, hrequested, h⟩ := bind_eq_ok.mp h
  obtain ⟨workspaceUid, -, h⟩ := bind_eq_ok.mp h
  cases h
  obtain ⟨hstatus, hknown⟩ := noticeEnum_eq_ok hrequested
  exact ⟨requested, hknown, hstatus, rfl, (boundedToken_eq_ok hkey).symm⟩

/-- A compensation is built for the revision that the notice left, asks for the status before it, and takes its
key from the notice. -/
theorem compensationFor_eq_ok {notice task compensation : Record} {current : ℤ}
    (h : compensationFor P documents notice task current = .ok compensation) :
    valueAt notice "after_revision" = .int current ∧ (∃ status ∈ taskStatuses,
      valueAt notice "status_before" = .str status ∧ valueAt compensation "requested_status" = .str status) ∧
        (∃ uid, task.get "uid" = some (.str uid)) ∧
        ∃ noticeId, valueAt compensation "idempotency_key" = .str (compensationKey P noticeId) := by
  obtain ⟨uid, -, h⟩ := bind_eq_ok.mp h
  obtain ⟨entityUid, hentityUid, h⟩ := bind_eq_ok.mp h
  split at h
  case h_2 => split at h <;> cases h
  next built hbuilt =>
  cases h
  obtain ⟨validated, hvalidated, hbuilt⟩ := bind_eq_ok.mp hbuilt
  obtain ⟨v, mapping, rfl, hmapping, hkept⟩ := validateNotice_eq_ok hvalidated
  cases hmapping
  dsimp only at hbuilt
  split at hbuilt
  · cases hbuilt
  split at hbuilt
  · cases hbuilt
  split at hbuilt
  · cases hbuilt
  obtain ⟨workspaceUid, -, hbuilt⟩ := bind_eq_ok.mp hbuilt
  obtain ⟨entity, hentity, hbuilt⟩ := bind_eq_ok.mp hbuilt
  obtain ⟨revision, hrevision, hbuilt⟩ := bind_eq_ok.mp hbuilt
  split at hbuilt
  · cases hbuilt
  split at hbuilt
  · cases hbuilt
  split at hbuilt
  · cases hbuilt
  next hsame =>
  obtain ⟨noticeId, -, hbuilt⟩ := bind_eq_ok.mp hbuilt
  obtain ⟨requested, hknown, hstatus, hrequested, hkey⟩ := validateCompensation_eq_ok hbuilt
  refine ⟨?_, ⟨requested, hknown, ?_, hrequested⟩, ⟨entity, ?_⟩, noticeId, hkey⟩
  · rw [hkept ("after_revision", optionRevision v.afterRevision) (by simp [NoticeValues.record])]
    have hcurrent : revision = current := (Json.int.inj (noticeRevision_eq_ok hrevision)).symm
    have hafter : valueAt v.record "after_revision" = optionRevision v.afterRevision := rfl
    rw [not_not, hcurrent, hafter] at hsame
    cases hvalue : v.afterRevision with
    | none => simp [hvalue, optionRevision, Json.same, Json.int?] at hsame
    | some value =>
        simp only [hvalue, optionRevision, Json.same, Json.int?, beq_iff_eq, Option.some.injEq] at hsame ⊢
        rw [hsame]
  · rw [hkept ("status_before", optionText v.statusBefore) (by simp [NoticeValues.record])]
    exact hstatus
  · rw [field_eq_ok.mp hentityUid, noticeUuid_eq_ok hentity]

theorem taskIdOf_eq_ok {task : Record} {id : String} (h : taskIdOf task = .ok id) :
    task.get "id" = some (.str id) := by
  obtain ⟨value, hvalue, h⟩ := bind_eq_ok.mp h
  cases value with
  | str text =>
      cases h
      exact field_eq_ok.mp hvalue
  | _ => cases h

namespace SavedUndo

variable {noticeId : String}

theorem replaces (s : SavedUndo P documents after clock noticeId) :
    Replaces documents after s.tasks s.index s.task (touched s.updated (clock.today 0) s.next) := by
  constructor
  · exact s.listed
  · exact (taskForNotice_spec s.found).2.1
  · exact congrArg Documents.backlog s.after_eq

theorem revises (s : SavedUndo P documents after clock noticeId) :
    Revises s.task (touched s.updated (clock.today 0) s.next) := by
  obtain ⟨current, hcurrent, hnext⟩ := nextNoticeRevision_eq_ok s.next_eq
  exact revises_changeStatus s.change_eq hcurrent hnext

theorem write (s : SavedUndo P documents after clock noticeId) : TaskWrite documents after :=
  .one s.replaces s.revises

theorem advances (s : SavedUndo P documents after clock noticeId) : Advances P documents after := by
  apply s.write.advances
  obtain ⟨intent, status, createdAt, response, hlogged⟩ := s.logged_eq
  rw [s.after_eq]
  exact (changeStatus_kept s.change_eq).trans (recordIdempotency_kept hlogged)

/-- The notice names the revision of its Task, and the Task is projected to the status before it. -/
theorem restores (s : SavedUndo P documents after clock noticeId) (hdistinct : DistinctIds documents) :
    valueAt s.notice "after_revision" = .int s.current ∧
      ∃ status, valueAt s.notice "status_before" = .str status ∧
        projectedStatus P after.backlog after.activity s.id = .ok status := by
  obtain ⟨hrevision, ⟨status, hknown, hbefore, hrequested⟩, ⟨uid, huid⟩, -⟩ := compensationFor_eq_ok s.compensated
  refine ⟨hrevision, status, hbefore, ?_⟩
  obtain ⟨current, hcurrent, hnext⟩ := nextNoticeRevision_eq_ok s.next_eq
  rw [s.revision] at hcurrent
  cases hcurrent
  have hstr : P.str (valueAt s.compensation "requested_status") = status := by rw [hrequested, Interpreter.str]
  have hchange := s.change_eq
  have hchanges := s.changes
  rw [hstr] at hchange hchanges
  obtain ⟨⟨appended, settled⟩, htransition, hchange⟩ := bind_eq_ok.mp hchange
  obtain ⟨workspace, -, hchange⟩ := bind_eq_ok.mp hchange
  obtain ⟨noticed, hnoticed, hchange⟩ := bind_eq_ok.mp hchange
  simp only [pure, Except.pure, Except.ok.injEq, Prod.mk.injEq] at hchange
  obtain ⟨hnoticedEq, hsettledEq⟩ := hchange
  obtain ⟨projection, hprojection, hprior⟩ := bind_eq_ok.mp s.before_eq
  have hprior' : projection.get s.id = some s.before := by
    cases hget : projection.get s.id with
    | none =>
        rw [hget] at hprior
        cases hprior
    | some other =>
        rw [hget] at hprior
        exact congrArg some (Except.ok.inj hprior)
  have transition : Transition s.task s.id uid s.before status s.current s.next :=
    ⟨taskIdOf_eq_ok s.id_eq, huid, s.revision, hnext, hknown, hchanges⟩
  have hsettles : Settles s.task settled (touched s.updated (clock.today 0) s.next) s.next := by
    have htask {name : String} (hname : name ≠ "status_fact_id") : s.updated.get name = s.task.get name :=
      changeStatus_task s.change_eq hname
    constructor
    · rw [get_touched _ _ _ (by decide) (by decide), htask (by decide)]
    · rw [get_touched _ _ _ (by decide) (by decide), htask (by decide)]
    · rw [get_touched _ _ _ (by decide) (by decide), htask (by decide)]
    · rw [get_touched _ _ _ (by decide) (by decide), hsettledEq]
    · exact revision_touched _ _ _
  obtain ⟨intent, code, createdAt, response, hlogged⟩ := s.logged_eq
  have hplanning : s.logged.get "planning_status" = appended.get "planning_status" := by
    rw [appendTo_get hlogged (by decide), ← hnoticedEq, recordStatusNotice_get P hnoticed (by decide)]
  obtain ⟨projection', hprojection', hnew⟩ := validateAndProject_transition transition hprojection hprior' s.listed
    (hdistinct s.tasks s.listed) (taskForNotice_spec s.found).2.1 (by decide) htransition hsettles hplanning
  have hbacklog := congrArg Documents.backlog s.after_eq
  have hactivity := congrArg Documents.activity s.after_eq
  rw [hbacklog, hactivity]
  refine bind_eq_ok.mpr ⟨projection', hprojection', ?_⟩
  rw [hnew, if_pos rfl]
  rfl

end SavedUndo

/-! ## Runs -/

/-- An undo that is saved, by what it was built from. -/
theorem undo_saved {noticeId key path : String} {body : Json} {requestDigest : Option Store.Digest}
    (h : served (undoMutationNotice P documents clock noticeId body key path requestDigest) = some after) :
    Nonempty (SavedUndo P documents after clock noticeId) := by
  obtain ⟨response, hserved⟩ := served_eq_some h
  rcases undoMutationNotice_eq_ok hserved with ⟨hnone, -⟩ | ⟨saved, hsaved, hundo⟩
  · cases hnone
  · cases hsaved
    exact hundo

theorem Writes.advances (h : Writes P documents after) : Advances P documents after := by
  cases h with
  | patch clock taskId patch origin saved =>
      obtain ⟨hwrite, hkept⟩ := patchTask_writes saved
      exact hwrite.advances hkept
  | status clock taskId status expected provenance saved =>
      obtain ⟨hwrite, hkept⟩ := setTaskStatus_writes saved
      exact hwrite.advances hkept
  | keyedStatus clock taskId body key path requestDigest saved =>
      obtain ⟨hwrite, hkept⟩ := setTaskStatusKeyed_writes saved
      exact hwrite.advances hkept
  | undo clock noticeId body key path requestDigest saved =>
      obtain ⟨s⟩ := undo_saved saved
      exact s.advances
  | elsewhere other =>
      obtain ⟨new, hevents, hnew⟩ := other.events
      exact ⟨other.tasks, fun _ ↦ other.distinct, noticesKept_of_others hevents hnew⟩

/-- What every write keeps, a run keeps. -/
theorem Run.advances (h : Run P documents after) : Advances P documents after := by
  induction h with
  | refl => exact advances_refl documents
  | tail _ hwrite ih => exact ih.trans hwrite.advances

/-- The Task of a notice in a state, with its place. -/
def HoldsTask (documents : Documents) (notice : Record) (index : ℕ) (task : Record) : Prop :=
  ∃ tasks, listAt documents.backlog "tasks" = .ok tasks ∧
    taskForNotice (valueAt notice "entity_uid") 0 tasks = .ok (index, task)

theorem HoldsTask.unique {notice : Record} {index index' : ℕ} {task task' : Record}
    (h : HoldsTask documents notice index task) (h' : HoldsTask documents notice index' task') : task' = task := by
  obtain ⟨tasks, htasks, hfound⟩ := h
  obtain ⟨tasks', htasks', hfound'⟩ := h'
  rw [htasks] at htasks'
  cases htasks'
  rw [hfound] at hfound'
  cases hfound'
  rfl

/-- The Task of a notice stays in its place, as it was or at a later revision. -/
theorem HoldsTask.advances {notice : Record} {index : ℕ} {task : Record} (h : HoldsTask documents notice index task)
    (hadvances : Advances P documents after) :
    ∃ task', HoldsTask after notice index task' ∧ (task' = task ∨ Revises task task') := by
  obtain ⟨tasks, htasks, hfound⟩ := h
  obtain ⟨tasks', htasks', hlist⟩ := hadvances.tasks tasks htasks
  obtain ⟨task', hfound', hsame⟩ := taskForNotice_advances hlist hfound
  exact ⟨task', ⟨tasks', htasks', hfound'⟩, hsame⟩

/-- The Task of a notice is at the revision of the notice, and is the record that any earlier state of a run
held at this revision. -/
structure Untouched (P : Platform) (documents : Documents) (notice task : Record) : Prop where
  held : ∃ index, HoldsTask documents notice index task
  revision : ∃ current, Service.revision task = .ok current ∧ valueAt notice "after_revision" = .int current
  since : ∀ earlier index held, Run P earlier documents → HoldsTask earlier notice index held →
    (∃ current, Service.revision held = .ok current ∧ valueAt notice "after_revision" = .int current) → held = task

namespace SavedUndo

variable {noticeId : String}

theorem holds (s : SavedUndo P documents after clock noticeId) : HoldsTask documents s.notice s.index s.task :=
  ⟨s.tasks, s.listed, s.found⟩

theorem untouched (s : SavedUndo P documents after clock noticeId) : Untouched P documents s.notice s.task := by
  have hrevision := (compensationFor_eq_ok s.compensated).1
  refine ⟨⟨s.index, s.holds⟩, ⟨s.current, s.revision, hrevision⟩, ?_⟩
  rintro earlier index held hrun hheld ⟨current, hcurrent, hsame⟩
  rw [hrevision] at hsame
  cases hsame
  obtain ⟨task, htask, hadvanced⟩ := hheld.advances hrun.advances
  rw [s.holds.unique htask] at hadvanced
  rcases hadvanced with hsame | hrevises
  · exact hsame.symm
  · obtain ⟨m, n, hm, hn, hlt⟩ := hrevises.raised
    rw [hcurrent] at hm
    rw [s.revision] at hn
    cases hm
    cases hn
    omega

/-- After an undo the Task of the notice is at a later revision. -/
theorem holds_after (s : SavedUndo P documents after clock noticeId) :
    ∃ task n, HoldsTask after s.notice s.index task ∧ Service.revision task = .ok n ∧ s.current < n := by
  obtain ⟨task, htask, -⟩ := s.holds.advances s.advances
  obtain ⟨tasks, htasks, hfound⟩ := htask
  have hget := (taskForNotice_spec hfound).2.1
  rw [s.replaces.tasks_after] at htasks
  cases htasks
  rw [Nat.sub_zero, List.getElem?_set_self (List.getElem?_eq_some_iff.mp s.replaces.found).1] at hget
  cases hget
  obtain ⟨m, n, hm, hn, hlt⟩ := s.revises.raised
  rw [s.revision] at hm
  cases hm
  exact ⟨_, n, ⟨_, s.replaces.tasks_after, hfound⟩, hn, hlt⟩

/-- No later undo of the notice is saved. -/
theorem not_again (s : SavedUndo P documents after clock noticeId) {later last : Documents} {clock' : Clock}
    (hrun : Run P after later) (again : SavedUndo P later last clock' noticeId) : False := by
  obtain ⟨found, hfound, hkept⟩ := (s.advances.trans hrun.advances).notices noticeId _ again.noticed
  have hnotice : again.notice = s.notice := by
    rw [s.noticed] at hfound
    cases hfound
    exact Option.some.inj (hkept s.notice rfl)
  obtain ⟨task, n, htask, hn, hlt⟩ := s.holds_after
  obtain ⟨task', htask', hadvanced⟩ := htask.advances hrun.advances
  have hheld := again.holds
  rw [hnotice] at hheld
  rw [hheld.unique htask'] at hadvanced
  have hrevision := (compensationFor_eq_ok again.compensated).1
  rw [hnotice, (compensationFor_eq_ok s.compensated).1] at hrevision
  have hcurrent := again.revision
  rw [← Json.int.inj hrevision] at hcurrent
  rcases hadvanced with hsame | hrevises
  · rw [hsame, hn] at hcurrent
    cases hcurrent
    omega
  · obtain ⟨m, k, hm, hk, hraised⟩ := hrevises.raised
    rw [hn] at hm
    rw [hcurrent] at hk
    cases hm
    cases hk
    omega

end SavedUndo

/-- In every run, an undo of a notice answers from the ledger and saves nothing, or else the Task of the notice
was not touched since, is projected to the status before the notice, and the notice is not undone again,
whatever else is written. -/
theorem undo_only_untouched_and_once {start : Documents} (hdistinct : DistinctIds start) (hrun : Run P start documents)
    {noticeId key path : String} {body : Json} {requestDigest : Option Store.Digest} {response : Response}
    {saved : Option Documents}
    (hundo : undoMutationNotice P documents clock noticeId body key path requestDigest = .ok ⟨response, saved⟩) :
    (saved = none ∧ ∃ digest, idempotencyReplay P.toInterpreter documents.activity documents.replies
      ⟨key, "POST", path, digest⟩ = .ok (some response)) ∨
    ∃ after notice task id status, saved = some after ∧
      findNotice P documents.activity (.str noticeId) = .ok (some notice) ∧ Untouched P documents notice task ∧
      taskIdOf task = .ok id ∧ valueAt notice "status_before" = .str status ∧
      projectedStatus P after.backlog after.activity id = .ok status ∧
      ∀ later, Run P after later → ∀ clock body key path requestDigest,
        served (undoMutationNotice P later clock noticeId body key path requestDigest) = none := by
  rcases undoMutationNotice_eq_ok hundo with hreplayed | ⟨after, rfl, ⟨s⟩⟩
  · exact .inl hreplayed
  right
  obtain ⟨-, status, hbefore, hprojected⟩ := s.restores (hrun.advances.distinct hdistinct)
  refine ⟨after, s.notice, s.task, s.id, status, rfl, s.noticed, s.untouched, s.id_eq, hbefore, hprojected, ?_⟩
  intro later hlater clock' body' key' path' requestDigest'
  by_contra hsaved
  obtain ⟨last, hlast⟩ := Option.ne_none_iff_exists'.mp hsaved
  obtain ⟨again⟩ := undo_saved hlast
  exact s.not_again hlater again

/-! ## One undo -/

/-- The notice of a Task that was started. -/
def startedNotice : NoticeValues where
  actor := "local.user"
  afterRevision := some 1
  beforeRevision := 0
  commitState := "committed"
  entityKind := "task"
  entityUid := "6f1c2b7e-9a54-4d3e-8f10-2b7c5a9d4e61"
  key := "ts:6f1c2b7e-9a54-4d3e-8f10-2b7c5a9d4e61:0"
  mutationUid := "b034ae1e-0106-5e97-bf44-54cfa2768776"
  noticeId := "c128aa9f-546a-55c6-bcc5-7f675a49b132"
  operation := "task.status"
  source := "cli"
  statusAfter := some "started"
  statusBefore := some "open"
  summary := "Task status open to started"
  undoable := true
  workspaceUid := "6f1c2b7e-9a54-4d3e-8f10-2b7c5a9d4e60"

/-- The text it is stored under. -/
def startedText : String := String.ofList (Json.compactText (.obj startedNotice.record))

/-- The name-based UUIDs of the sample and the text of its notice. -/
def undoPlatform : Platform :=
  asciiPlatform [
    (("6ba7b811-9dad-11d1-80b4-00c04fd430c8", noticeUrl), "abb7e092-26c0-5119-ab88-91f70565f2e4"),
    (("6ba7b811-9dad-11d1-80b4-00c04fd430c8", noticeUrl ++ "/mutation"), "04676b85-2871-5ae1-9a98-3649f6f1aa50"),
    (("abb7e092-26c0-5119-ab88-91f70565f2e4",
        "6f1c2b7e-9a54-4d3e-8f10-2b7c5a9d4e60:ts:6f1c2b7e-9a54-4d3e-8f10-2b7c5a9d4e61:0"),
      "c128aa9f-546a-55c6-bcc5-7f675a49b132"),
    (("04676b85-2871-5ae1-9a98-3649f6f1aa50",
        "6f1c2b7e-9a54-4d3e-8f10-2b7c5a9d4e60:ts:6f1c2b7e-9a54-4d3e-8f10-2b7c5a9d4e61:0"),
      "b034ae1e-0106-5e97-bf44-54cfa2768776"),
    (("abb7e092-26c0-5119-ab88-91f70565f2e4",
        "6f1c2b7e-9a54-4d3e-8f10-2b7c5a9d4e60:undo:bd0faabef90908479d60cfeb6e048ec1"),
      "21f1c99a-76dd-5f01-999b-148fb7a6699e"),
    (("04676b85-2871-5ae1-9a98-3649f6f1aa50",
        "6f1c2b7e-9a54-4d3e-8f10-2b7c5a9d4e60:undo:bd0faabef90908479d60cfeb6e048ec1"),
      "099b0e98-e7e5-5a08-a5f5-30eed773020b")]
    [(startedText, .obj startedNotice.record)]

theorem asciiPlatform_loads (names : List ((String × String) × String)) (text : String) (value : Json) :
    (asciiPlatform names [(text, value)]).loads text = some value := by
  change List.lookup text [(text, value)] = some value
  rw [List.lookup_cons, beq_self_eq_true]

/-- The Task after it was started. -/
def startedTask : Record := [("id", .str "T-0001"), ("uid", .str "6f1c2b7e-9a54-4d3e-8f10-2b7c5a9d4e61"),
  ("title", .str "Write"), ("status", .str "open"), ("revision", .int 1), ("status_fact_id", .str "PS-000002"),
  ("updated_at", .str "2026-09-01")]

def startedEvent : Record := [("id", .str "E-000001"), ("type", .str noticeEventType),
  ("created_at", .str "2026-09-01T10:00:00Z"), ("task_id", .str "T-0001"),
  ("details", .obj [("notice", .str startedText)])]

def startedFact : Record := [("id", .str "PS-000002"), ("type", .str factType), ("task_id", .str "T-0001"),
  ("task_uid", .str "6f1c2b7e-9a54-4d3e-8f10-2b7c5a9d4e61"), ("previous_fact_id", .str "PS-000001"),
  ("prior_revision", .int 0), ("new_revision", .int 1), ("prior_status", .str "open"), ("status", .str "started"),
  ("created_at", .str "2026-09-01T10:00:00Z"), ("actor", .str "local.user"), ("provenance", .str "cli")]

/-- The sample after its Task was started. -/
def startedDocuments : Documents := { sampleDocuments with
  backlog := [("version", .int 3), ("tasks", .arr [.obj startedTask])]
  activity := [("version", .int 2), ("activity", .arr [.obj startedEvent]), ("idempotency", .arr []),
    ("planning_status", .arr [.obj sampleFact, .obj startedFact])] }

theorem startedDocuments_distinct : DistinctIds startedDocuments := by
  intro tasks htasks
  cases htasks
  decide

theorem parseNotice_started : parseNotice undoPlatform startedText = .ok startedNotice.record := by
  have hvalid : (validateNotice undoPlatform (.obj startedNotice.record)).toOption.isSome = true := by decide +kernel
  cases hnotice : validateNotice undoPlatform (.obj startedNotice.record) with
  | error code => simp [hnotice, Except.toOption] at hvalid
  | ok notice =>
      apply parseNotice_serialized
      · refine bind_eq_ok.mpr ⟨notice, hnotice, ?_⟩
        rw [validateNotice_record hnotice, startedText]
        rfl
      · rw [undoPlatform, asciiPlatform_loads]

/-- The notice of the sample is found under its id alone. -/
theorem findNotice_started {activity : Record} (h : eventsOf activity = [.obj startedEvent]) (id : String) :
    findNotice undoPlatform activity (.str id) =
      .ok (if id = startedNotice.noticeId then some startedNotice.record else none) := by
  have hlength : 1 ≤ startedText.length ∧ startedText.length ≤ 8192 := by
    rw [startedText, String.length_ofList]
    decide +kernel
  have hevent : noticeFromEvent undoPlatform (.obj startedEvent) = .ok (some startedNotice.record) :=
    noticeFromEvent_of_parse rfl rfl hlength parseNotice_started
  have hnotices : noticesOf undoPlatform [.obj startedEvent] = .ok [startedNotice.record] := by
    rw [noticesOf, hevent, ok_bind]
    rfl
  have hsame : Json.same (.str id) (valueAt startedNotice.record "notice_id") = (id == startedNotice.noticeId) :=
    Json.same_str _ _
  refine findNotice_eq_ok.mpr ⟨[startedNotice.record], by rw [h]; exact hnotices, ?_⟩
  rw [List.find?_cons, hsame]
  by_cases hid : id = startedNotice.noticeId
  · rw [if_pos hid, beq_iff_eq.mpr hid]
  · rw [if_neg hid, beq_false_of_ne hid]
    rfl

theorem exists_of_isSome {ε α : Type} {result : Except ε α} (h : result.toOption.isSome = true) :
    ∃ value, result = .ok value := by
  cases result with
  | error refusal => cases h
  | ok value => exact ⟨value, rfl⟩

/-- The Task after its start was undone, before it is touched. -/
def undoneTask : Record := startedTask.set "status_fact_id" (.str "PS-000003")

/-- The notice of the undo, under the key of its compensation. -/
def builtUndoNotice : Noticed Record :=
  buildStatusNotice undoPlatform (.str startedNotice.workspaceUid) (.str startedNotice.entityUid) 1 2 "gui"
    "undo:bd0faabef90908479d60cfeb6e048ec1" "started" "open"

/-- The notice of the undo is written beside the first one. -/
theorem startedDocuments_changed : ∃ activity, changeStatus undoPlatform startedDocuments startedDocuments.activity
    startedTask "api.v1" ⟨"started", "open", 1, 2, "undo:bd0faabef90908479d60cfeb6e048ec1", "gui"⟩
      ((sampleClock (sampleMoment 1)).now 0).utcNow ((sampleClock (sampleMoment 1)).now 1).utcNow =
        .ok (activity, undoneTask) ∧ activity.get "idempotency" = some (.arr []) := by
  obtain ⟨activity, htransition⟩ : ∃ activity, appendTransition startedDocuments.activity startedTask "started" "open"
      1 2 ((sampleClock (sampleMoment 1)).now 0).utcNow "local.user" "api.v1" = .ok (activity, undoneTask) := ⟨_, rfl⟩
  have hactivity : activity.get "activity" = some (.arr [.obj startedEvent]) := by
    rw [appendTransition_activity htransition (by decide)]
    rfl
  have hevents : eventsOf activity = [.obj startedEvent] := by rw [eventsOf, hactivity]
  have hbuilt : builtUndoNotice.toOption.isSome = true := by decide +kernel
  obtain ⟨notice, hnotice⟩ := exists_of_isSome hbuilt
  have hstored : (builtUndoNotice.toOption.any fun notice ↦
      (serializeNotice undoPlatform (.obj notice)).toOption.isSome &&
        Json.same (.str "21f1c99a-76dd-5f01-999b-148fb7a6699e") (valueAt notice "notice_id")) = true := by
    decide +kernel
  rw [hnotice] at hstored
  obtain ⟨hserialized, hid⟩ := Bool.and_eq_true_iff.mp hstored
  obtain ⟨blob, hblob⟩ := exists_of_isSome hserialized
  have hfree : findNotice undoPlatform activity (valueAt notice "notice_id") = .ok none := by
    rw [Json.same_str_left.mp hid, findNotice_started hevents]
    rfl
  have hnumbered : (nextId undoPlatform.toInterpreter [.obj startedEvent] ['E'] 6).toOption.isSome = true := by
    decide
  obtain ⟨eventId, heventId⟩ := exists_of_isSome hnumbered
  obtain ⟨noticed, hrecorded⟩ : ∃ noticed, recordStatusNotice undoPlatform activity undoneTask
      startedNotice.workspaceUid ⟨"started", "open", 1, 2, "undo:bd0faabef90908479d60cfeb6e048ec1", "gui"⟩
      ((sampleClock (sampleMoment 1)).now 1).utcNow = .ok noticed := by
    refine ⟨activity.set "activity" (.arr ([.obj startedEvent] ++ [.obj (noticeEvent eventId
      ((sampleClock (sampleMoment 1)).now 1).utcNow (.str "T-0001") blob)])), ?_⟩
    apply recordStatusNotice_of_free
    · rfl
    · exact hnotice
    · exact hblob
    · exact hfree
    · exact listAt_of_get hactivity
    · exact heventId
    · rfl
  have hworkspace : workspaceUid startedDocuments = .ok startedNotice.workspaceUid := rfl
  refine ⟨noticed, ?_, ?_⟩
  · unfold changeStatus
    rw [htransition, ok_bind]
    dsimp only
    rw [hworkspace, ok_bind, hrecorded, ok_bind]
    rfl
  · rw [recordStatusNotice_get _ hrecorded (by decide), appendTransition_activity htransition (by decide)]
    rfl

theorem startedDocuments_required :
    requiredNotice undoPlatform startedDocuments startedNotice.noticeId = .ok startedNotice.record := by
  have hfound : findNotice undoPlatform startedDocuments.activity (.str startedNotice.noticeId) =
      .ok (some startedNotice.record) := by
    rw [findNotice_started rfl, if_pos rfl]
  have huid : workspaceUid startedDocuments = .ok startedNotice.workspaceUid := rfl
  have hsame : Json.same (.str startedNotice.workspaceUid) (valueAt startedNotice.record "workspace_uid") = true :=
    Json.same_str_left.mpr rfl
  rw [requiredNotice, hfound, ok_bind]
  dsimp only
  rw [huid, ok_bind, if_pos hsame]
  rfl

theorem startedDocuments_task :
    taskForNotice (valueAt startedNotice.record "entity_uid") 0 [.obj startedTask] = .ok (0, startedTask) := by
  have hsame : Json.same (valueAt startedTask "uid") (valueAt startedNotice.record "entity_uid") = true :=
    Json.same_str_left.mpr rfl
  rw [taskForNotice, if_pos hsame]

theorem startedDocuments_compensation : ∃ compensation,
    compensationFor undoPlatform startedDocuments startedNotice.record startedTask 1 = .ok compensation ∧
      undoPlatform.str (valueAt compensation "requested_status") = "open" ∧
      undoPlatform.str (valueAt compensation "idempotency_key") = "undo:bd0faabef90908479d60cfeb6e048ec1" := by
  have hbuilt : ((compensationFor undoPlatform startedDocuments startedNotice.record startedTask 1).toOption.any
      fun compensation ↦ undoPlatform.str (valueAt compensation "requested_status") == "open" &&
        undoPlatform.str (valueAt compensation "idempotency_key") == "undo:bd0faabef90908479d60cfeb6e048ec1") =
          true := by
    decide +kernel
  cases hcompensation : compensationFor undoPlatform startedDocuments startedNotice.record startedTask 1 with
  | error refusal =>
      rw [hcompensation] at hbuilt
      cases hbuilt
  | ok compensation =>
      rw [hcompensation] at hbuilt
      obtain ⟨hstatus, hkey⟩ := Bool.and_eq_true_iff.mp hbuilt
      exact ⟨compensation, rfl, beq_iff_eq.mp hstatus, beq_iff_eq.mp hkey⟩

theorem startedDocuments_status :
    projectedStatus undoPlatform startedDocuments.backlog startedDocuments.activity "T-0001" = .ok "started" := by
  have hprojected : (projectedStatus undoPlatform startedDocuments.backlog startedDocuments.activity
      "T-0001").toOption = some "started" := by
    decide +kernel
  cases hstatus : projectedStatus undoPlatform startedDocuments.backlog startedDocuments.activity "T-0001" with
  | error refusal =>
      rw [hstatus] at hprojected
      cases hprojected
  | ok status =>
      rw [hstatus] at hprojected
      exact congrArg Except.ok (Option.some.inj hprojected)

/-- The start of the Task can be undone. -/
theorem startedDocuments_undone : ∃ response after, undoMutationNotice undoPlatform startedDocuments
    (sampleClock (sampleMoment 1)) startedNotice.noticeId (.obj [("revision", .int 1)]) "undo-intent-1" "/api/v1/undo"
      none = .ok ⟨response, some after⟩ := by
  have hkey : validateIdempotencyKey "undo-intent-1" = .ok () := rfl
  have hrevision : undoRevision (.obj [("revision", .int 1)]) = .ok 1 := rfl
  have hcanonical : canonicalNoticeId undoPlatform startedNotice.noticeId = .ok startedNotice.noticeId :=
    if_pos (by decide)
  obtain ⟨digest, hdigest⟩ : ∃ digest, rawRequestDigest undoPlatform (.obj [("revision", .int 1)]) none = .ok digest :=
    ⟨_, rfl⟩
  have hledgered : listAt startedDocuments.activity "idempotency" = .ok [] := rfl
  have hreplay : idempotencyReplay undoPlatform.toInterpreter startedDocuments.activity startedDocuments.replies
      ⟨"undo-intent-1", "POST", "/api/v1/undo", digest⟩ = .ok none := by
    rw [idempotencyReplay, hkey, ok_bind, hledgered, ok_bind, replayFrom]
  have htasks : listOrEmpty (valueAt startedDocuments.backlog "tasks") = .ok [.obj startedTask] := rfl
  have hheld : revision startedTask = .ok 1 := rfl
  have hid : taskIdOf startedTask = .ok "T-0001" := rfl
  have hnext : nextNoticeRevision startedTask = .ok 2 := rfl
  obtain ⟨compensation, hcompensation, hstatus, hundoKey⟩ := startedDocuments_compensation
  obtain ⟨activity, hchange, hledger⟩ := startedDocuments_changed
  have happlied : applyCompensation undoPlatform startedDocuments (sampleClock (sampleMoment 1)) startedTask
      compensation 1 = .ok (activity, touched undoneTask "2026-09-01" 2, "open") := by
    unfold applyCompensation
    rw [hid, ok_bind, startedDocuments_status, ok_bind, hstatus, if_neg (by decide), hnext, ok_bind, hundoKey, hchange,
      ok_bind]
    rfl
  have hprojected : (projectTask undoPlatform (touched undoneTask "2026-09-01" 2) "open").toOption.isSome = true := by
    decide
  obtain ⟨projected, hprojected⟩ := exists_of_isSome hprojected
  have hlogged (intent : Intent) (createdAt : String) (response : StoredResponse) :
      ∃ logged, recordIdempotency activity intent 200 createdAt response = .ok logged := by
    unfold recordIdempotency appendTo
    rw [listAt_of_get hledger, ok_bind]
    exact ⟨_, rfl⟩
  unfold undoMutationNotice keyed
  rw [hkey, ok_bind, hrevision, ok_bind, hcanonical, ok_bind, hdigest, ok_bind]
  dsimp only
  rw [hreplay, ok_bind]
  dsimp only
  rw [startedDocuments_required, ok_bind, htasks, ok_bind, startedDocuments_task, ok_bind]
  dsimp only
  rw [hheld, ok_bind, if_neg (by decide), hcompensation, ok_bind, happlied, ok_bind]
  dsimp only
  rw [hprojected, ok_bind]
  obtain ⟨logged, hlogged⟩ := hlogged ⟨"undo-intent-1", "POST", "/api/v1/undo", digest⟩
    ((sampleClock (sampleMoment 1)).now 2).utcNow (.frozen [("data", .obj projected),
      ("meta", .obj [("replayed", .bool false), ("undone_notice_id", .str startedNotice.noticeId)])])
  rw [hlogged, ok_bind]
  exact ⟨_, _, rfl⟩

theorem startedDocuments_undo_only_untouched_and_once : ∃ response after notice task,
    undoMutationNotice undoPlatform startedDocuments (sampleClock (sampleMoment 1)) startedNotice.noticeId
      (.obj [("revision", .int 1)]) "undo-intent-1" "/api/v1/undo" none = .ok ⟨response, some after⟩ ∧
    Untouched undoPlatform startedDocuments notice task ∧
    ∀ later, Run undoPlatform after later → ∀ clock body key path requestDigest,
      served (undoMutationNotice undoPlatform later clock startedNotice.noticeId body key path requestDigest) =
        none := by
  obtain ⟨response, after, hundone⟩ := startedDocuments_undone
  rcases undo_only_untouched_and_once startedDocuments_distinct Relation.ReflTransGen.refl hundone with
    ⟨hnone, -⟩ | ⟨saved, notice, task, id, status, hsaved, -, huntouched, -, -, -, honce⟩
  · cases hnone
  · cases hsaved
    exact ⟨response, after, notice, task, hundone, huntouched, honce⟩

end WorkStack.Service
