import WorkStack.Effect.Refusing
import WorkStack.Effect.Requests
import WorkStack.Service.UndoRuns

/-!
# The status of a Task over runs

Four commands change the status of a Task: the patch, the two status commands and the undo of a notice. From
a workspace whose log projects, the log projects after every run of them, and it projects each Task to the
status that was last asked for it and carried out, or to the one it had at the start. No command writes to
the field that stores the first status, and none lowers a revision.
-/

namespace WorkStack.Service

open Effect Effect.Outcome Python

/-! ## Requests -/

/-- A request to one of the commands that change a status. -/
inductive StatusRequest where
  | patch (taskId : String) (patch : Json) (origin : Option String)
  | status (taskId status : String) (expected : Json) (provenance : String)
  | keyedStatus (taskId : String) (body : Json) (key path : String) (requestDigest : Option Store.Digest)
  | undo (noticeId : String) (body : Json) (key path : String) (requestDigest : Option Store.Digest)

section Serving

variable (P : Platform)

/-- The documents a request saves. -/
def serveStatus (documents : Documents) : Clock × StatusRequest → Option Documents
  | (clock, .patch taskId patch origin) => performed (patchTask P documents clock taskId patch origin)
  | (clock, .status taskId status expected provenance) =>
      performed (setTaskStatus P documents clock taskId status expected provenance)
  | (clock, .keyedStatus taskId body key path requestDigest) =>
      served (setTaskStatusKeyed P documents clock taskId body key path requestDigest)
  | (clock, .undo noticeId body key path requestDigest) =>
      served (undoMutationNotice P documents clock noticeId body key path requestDigest)

/-- Whether a request is carried out: it is not refused, and not answered from the ledger. -/
def carriesOut (documents : Documents) : Clock × StatusRequest → Bool
  | (clock, .patch taskId patch origin) => (patchTask P documents clock taskId patch origin).isOk
  | (clock, .status taskId status expected provenance) =>
      (setTaskStatus P documents clock taskId status expected provenance).isOk
  | (clock, .keyedStatus taskId body key path requestDigest) =>
      (served (setTaskStatusKeyed P documents clock taskId body key path requestDigest)).isSome
  | (clock, .undo noticeId body key path requestDigest) =>
      (served (undoMutationNotice P documents clock noticeId body key path requestDigest)).isSome

/-- A status that a record gives as a text. -/
def statusText (record : Record) (name : String) : Option String :=
  match record.get name with
  | some (.str status) => some status
  | _ => none

/-- The id of the Task that a text names. -/
def namedTask (documents : Documents) (taskId : String) : Checked String := do
  let tasks ← listAt documents.backlog "tasks"
  let (_, task) ← find P.toInterpreter tasks taskId "task"
  taskIdOf task

/-- The id of the Task of a notice. -/
def noticedTask (documents : Documents) (notice : Record) : Checked String := do
  let tasks ← listAt documents.backlog "tasks"
  let (_, task) ← taskForNotice (valueAt notice "entity_uid") 0 tasks
  taskIdOf task

/-- The Task that a request is about, and the status that it asks for. -/
def StatusRequest.asks (documents : Documents) : StatusRequest → Option (String × String)
  | .patch taskId (.obj fields) _ => do
      let id ← (namedTask P documents taskId).toOption
      let wanted ← statusText fields "status"
      pure (id, wanted)
  | .patch _ _ _ => none
  | .status taskId wanted _ _ => do
      let id ← (namedTask P documents taskId).toOption
      pure (id, wanted)
  | .keyedStatus taskId (.obj fields) _ _ _ => do
      let id ← (namedTask P documents taskId).toOption
      let wanted ← statusText fields "status"
      pure (id, wanted)
  | .keyedStatus _ _ _ _ _ => none
  | .undo noticeId _ _ _ _ => do
      let found ← (findNotice P documents.activity (.str noticeId)).toOption
      let notice ← found
      let id ← (noticedTask documents notice).toOption
      let wanted ← statusText notice "status_before"
      pure (id, wanted)

/-- The Task and the status of a request that is carried out. -/
def accepted (documents : Documents) (step : Clock × StatusRequest) : Option (String × String) :=
  if carriesOut P documents step then StatusRequest.asks P documents step.2 else none

/-- The status of a Task after a request that is carried out. -/
def statusAfter (id : String) (change : Option (String × String)) (status : Option String) : Option String :=
  match change with
  | some (asked, wanted) => if id = asked then some wanted else status
  | none => status

/-- The status that was last asked for a Task in a run and carried out, or else the one before the run. -/
def lastAccepted (id : String) : Documents → List (Clock × StatusRequest) → Option String → Option String
  | _, [], status => status
  | documents, step :: rest, status =>
      lastAccepted id ((serveStatus P documents step).getD documents) rest
        (statusAfter id (accepted P documents step) status)

end Serving

variable {P : Platform} {documents after : Documents} {clock : Clock} {projection : Dict String String}

/-! ## One change of a status -/

/-- A workspace whose log projects. -/
structure Projects (P : Platform) (documents : Documents) (projection : Dict String String) : Prop where
  projects : validateAndProject P.toInterpreter documents.backlog documents.activity = .ok projection
  distinct : DistinctIds documents

theorem Projects.get_eq (h : Projects P documents projection) {id status : String}
    (hstatus : projectedStatus P documents.backlog documents.activity id = .ok status) :
    projection.get id = some status := by
  obtain ⟨other, hother, hstatus⟩ := bind_eq_ok.mp hstatus
  rw [h.projects] at hother
  cases hother
  cases hget : projection.get id with
  | none =>
      rw [hget] at hstatus
      cases hstatus
  | some held =>
      rw [hget] at hstatus
      exact congrArg some (Except.ok.inj hstatus)

theorem field_congr {base task : Record} {name : String} (h : base.get name = task.get name) :
    field base name = field task name := by
  rw [field, field, h]

/-- A transition reads three fields of its Task. -/
theorem appendTransition_congr {activity base task activity' updated : Record}
    {prior status createdAt actor provenance : String} {current next : ℤ} (hid : base.get "id" = task.get "id")
    (huid : base.get "uid" = task.get "uid") (hhead : base.get "status_fact_id" = task.get "status_fact_id")
    (h : appendTransition activity base prior status current next createdAt actor provenance =
      .ok (activity', updated)) :
    ∃ updated', appendTransition activity task prior status current next createdAt actor provenance =
      .ok (activity', updated') ∧ updated'.get "status_fact_id" = updated.get "status_fact_id" := by
  obtain ⟨facts, hfacts, h⟩ := bind_eq_ok.mp h
  obtain ⟨head, hheadId, h⟩ := bind_eq_ok.mp h
  obtain ⟨fact, hfact, h⟩ := bind_eq_ok.mp h
  obtain ⟨factId, hfactId, h⟩ := bind_eq_ok.mp h
  cases h
  refine ⟨task.set "status_fact_id" factId, ?_, by rw [Dict.get_set_self, Dict.get_set_self]⟩
  rw [field_congr hhead] at hheadId
  rw [planningFact, field_congr hid, field_congr huid] at hfact
  exact bind_eq_ok.mpr ⟨facts, hfacts, bind_eq_ok.mpr ⟨head, hheadId, bind_eq_ok.mpr ⟨fact, hfact,
    bind_eq_ok.mpr ⟨factId, hfactId, rfl⟩⟩⟩⟩

/-- The fields of a Task that its projection is read by. -/
def projectedFields : List String := ["id", "uid", "status", "status_fact_id"]

/-- A Task as it was, but for a revision that may be higher and fields that no projection reads. -/
structure TaskKept (task after : Record) : Prop where
  id : after.get "id" = task.get "id"
  status : after.get "status" = task.get "status"
  revision : ∀ m, revision task = .ok m → ∃ n, Service.revision after = .ok n ∧ m ≤ n

/-- Every Task stays in its place, under its first status, and its revision does not decrease. -/
def TasksKept (documents after : Documents) : Prop :=
  ∀ tasks, listAt documents.backlog "tasks" = .ok tasks →
    ∃ tasks', listAt after.backlog "tasks" = .ok tasks' ∧
      ∀ (index : ℕ) task, tasks[index]? = some (.obj task) →
        ∃ task', tasks'[index]? = some (.obj task') ∧ TaskKept task task'

theorem taskKept_refl (task : Record) : TaskKept task task := ⟨rfl, rfl, fun m h ↦ ⟨m, h, le_refl m⟩⟩

theorem TaskKept.trans {a b c : Record} (hab : TaskKept a b) (hbc : TaskKept b c) : TaskKept a c := by
  constructor
  · exact hbc.id.trans hab.id
  · exact hbc.status.trans hab.status
  · intro l hl
    obtain ⟨m, hm, hlm⟩ := hab.revision l hl
    obtain ⟨n, hn, hmn⟩ := hbc.revision m hm
    exact ⟨n, hn, hlm.trans hmn⟩

theorem tasksKept_of_backlog (h : after.backlog = documents.backlog) : TasksKept documents after := by
  intro tasks htasks
  exact ⟨tasks, by rw [h]; exact htasks, fun _ task htask ↦ ⟨task, htask, taskKept_refl task⟩⟩

theorem TasksKept.trans {a b c : Documents} (hab : TasksKept a b) (hbc : TasksKept b c) : TasksKept a c := by
  intro tasks htasks
  obtain ⟨middle, hmiddle, hfirst⟩ := hab tasks htasks
  obtain ⟨last, hlast, hsecond⟩ := hbc middle hmiddle
  refine ⟨last, hlast, ?_⟩
  intro index task htask
  obtain ⟨task', htask', hkept⟩ := hfirst index task htask
  obtain ⟨task'', htask'', hkept'⟩ := hsecond index task' htask'
  exact ⟨task'', htask'', hkept.trans hkept'⟩

/-- A Task that was written to in its place. -/
structure RewritesTask (documents after : Documents) (tasks : List Json) (index : ℕ) (task updated : Record)
    (current next : ℤ) : Prop where
  replaces : Replaces documents after tasks index task updated
  same : ∀ name ∈ projectedFields, name ≠ "status_fact_id" → updated.get name = task.get name
  held : revision task = .ok current
  advances : next = current + 1 ∧ next ≤ maxRevision
  revision : updated.get "revision" = some (.int next)

namespace RewritesTask

variable {tasks : List Json} {index : ℕ} {task updated : Record} {current next : ℤ}

theorem id (h : RewritesTask documents after tasks index task updated current next) :
    updated.get "id" = task.get "id" :=
  h.same "id" (by decide) (by decide)

theorem uid (h : RewritesTask documents after tasks index task updated current next) :
    updated.get "uid" = task.get "uid" :=
  h.same "uid" (by decide) (by decide)

theorem status (h : RewritesTask documents after tasks index task updated current next) :
    updated.get "status" = task.get "status" :=
  h.same "status" (by decide) (by decide)

theorem revises (h : RewritesTask documents after tasks index task updated current next) : Revises task updated :=
  revises_of_next h.held h.advances h.revision h.id h.uid

theorem distinct (h : RewritesTask documents after tasks index task updated current next)
    (hdistinct : DistinctIds documents) : DistinctIds after :=
  (TaskWrite.one h.replaces h.revises).distinctIds hdistinct

theorem tasksKept (h : RewritesTask documents after tasks index task updated current next) :
    TasksKept documents after := by
  intro other hother
  rw [h.replaces.listed] at hother
  cases hother
  refine ⟨_, h.replaces.tasks_after, ?_⟩
  intro place record hrecord
  by_cases hplace : index = place
  · subst hplace
    rw [h.replaces.found] at hrecord
    cases hrecord
    refine ⟨updated, ?_, h.id, h.status, ?_⟩
    · rw [List.getElem?_set_self (List.getElem?_eq_some_iff.mp h.replaces.found).1]
    · intro m hm
      obtain ⟨held, raised, hheld, hraised, hlt⟩ := h.revises.raised
      rw [hm] at hheld
      cases hheld
      exact ⟨raised, hraised, hlt.le⟩
  · exact ⟨record, by rw [List.getElem?_set_ne hplace]; exact hrecord, taskKept_refl record⟩

end RewritesTask

/-- What a change of a status that a command saves came from. -/
structure SavedStatus (P : Platform) (documents after : Documents) (id status : String) where
  tasks : List Json
  index : ℕ
  task : Record
  base : Record
  updated : Record
  day : String
  current : ℤ
  next : ℤ
  before : String
  provenance : String
  key : String
  source : String
  factAt : Moment
  noticeAt : String
  activity : Record
  listed : listAt documents.backlog "tasks" = .ok tasks
  found : tasks[index]? = some (.obj task)
  id_eq : taskIdOf task = .ok id
  same : ∀ name ∈ projectedFields, base.get name = task.get name
  before_eq : projectedStatus P documents.backlog documents.activity id = .ok before
  known : status ∈ taskStatuses
  changes : status ≠ before
  allowed : provenance ∈ ["cli", "api.v1", "api.legacy"]
  held : revision task = .ok current
  next_eq : next = current + 1 ∧ next ≤ maxRevision
  change_eq : changeStatus P documents documents.activity base provenance
    ⟨before, status, current, next, key, source⟩ factAt.utcNow noticeAt = .ok (activity, updated)
  backlog : after.backlog = documents.backlog.set "tasks" (.arr (tasks.set index (.obj (touched updated day next))))
  planning : after.activity.get "planning_status" = activity.get "planning_status"

namespace SavedStatus

variable {id status : String}

theorem get_updated (s : SavedStatus P documents after id status) {name : String} (hname : name ∈ projectedFields)
    (hfact : name ≠ "status_fact_id") : (touched s.updated s.day s.next).get name = s.task.get name := by
  have hday : name ≠ "updated_at" := by
    rintro rfl
    exact absurd hname (by decide)
  have hrevision : name ≠ "revision" := by
    rintro rfl
    exact absurd hname (by decide)
  rw [get_touched _ _ _ hday hrevision, changeStatus_task s.change_eq hfact, s.same name hname]

theorem rewrites (s : SavedStatus P documents after id status) :
    RewritesTask documents after s.tasks s.index s.task (touched s.updated s.day s.next) s.current s.next :=
  ⟨⟨s.listed, s.found, s.backlog⟩, fun _ hname hfact ↦ s.get_updated hname hfact, s.held, s.next_eq,
    revision_touched _ _ _⟩

/-- The log projects again, with the new status. -/
theorem projects (s : SavedStatus P documents after id status) (h : Projects P documents projection) :
    ∃ projection', Projects P after projection' ∧
      ∀ name, projection'.get name = if name = id then some status else projection.get name := by
  obtain ⟨⟨appended, settled⟩, htransition, hchange⟩ := bind_eq_ok.mp s.change_eq
  obtain ⟨workspace, -, hchange⟩ := bind_eq_ok.mp hchange
  obtain ⟨noticed, hnoticed, hchange⟩ := bind_eq_ok.mp hchange
  simp only [pure, Except.pure, Except.ok.injEq, Prod.mk.injEq] at hchange
  obtain ⟨hnoticedEq, hsettledEq⟩ := hchange
  obtain ⟨settled', htransition', hhead⟩ := appendTransition_congr (s.same "id" (by decide)) (s.same "uid" (by decide))
    (s.same "status_fact_id" (by decide)) htransition
  obtain ⟨values, -, huid, -⟩ := recordStatusNotice_eq_ok hnoticed
  rw [appendTransition_task htransition (by decide), s.same "uid" (by decide)] at huid
  have transition : Transition s.task id values.entityUid s.before status s.current s.next :=
    ⟨taskIdOf_eq_ok s.id_eq, huid, s.held, s.next_eq, s.known, s.changes⟩
  have hsettles : Settles s.task settled' (touched s.updated s.day s.next) s.next := by
    refine ⟨s.rewrites.id, s.rewrites.uid, s.rewrites.status, ?_, s.rewrites.revision⟩
    rw [get_touched _ _ _ (by decide) (by decide), hhead, hsettledEq]
  have hplanning : after.activity.get "planning_status" = appended.get "planning_status" := by
    rw [s.planning, ← hnoticedEq, recordStatusNotice_get P hnoticed (by decide)]
  obtain ⟨projection', hprojection', hget⟩ := validateAndProject_transition transition h.projects (h.get_eq s.before_eq)
    s.listed (h.distinct s.tasks s.listed) s.found s.allowed htransition' hsettles hplanning
  rw [← s.backlog] at hprojection'
  exact ⟨projection', ⟨hprojection', s.rewrites.distinct h.distinct⟩, hget⟩

end SavedStatus

/-- A write to a Task that changes no status keeps the projection. -/
theorem Projects.kept (h : Projects P documents projection) {tasks : List Json} {index : ℕ} {task updated : Record}
    {id : String} {current next : ℤ} (hrewrites : RewritesTask documents after tasks index task updated current next)
    (hid : taskIdOf task = .ok id) (hhead : updated.get "status_fact_id" = task.get "status_fact_id")
    (hplanning : after.activity.get "planning_status" = documents.activity.get "planning_status") :
    Projects P after projection := by
  have hjudged : Judged task updated := by
    constructor
    · rw [valueAt, valueAt, hrewrites.uid]
    · rw [valueAt, valueAt, hrewrites.status]
    · intro n hn
      rw [(revision_bounds hrewrites.held).1] at hn
      cases hn
      refine ⟨next, by rw [hrewrites.revision]; rfl, ?_⟩
      have hnext := hrewrites.advances.1
      omega
  constructor
  · rw [hrewrites.replaces.backlog]
    apply validateAndProject_judged h.projects hrewrites.replaces.listed
      (h.distinct tasks hrewrites.replaces.listed) hrewrites.replaces.found (taskIdOf_eq_ok hid) hrewrites.id hjudged
    · rw [valueAt, valueAt, hhead]
    · exact hplanning
  · exact hrewrites.distinct h.distinct

/-- A write that leaves the Tasks and the log alone keeps the projection. -/
theorem Projects.of_same (h : Projects P documents projection) (hbacklog : after.backlog = documents.backlog)
    (hplanning : after.activity.get "planning_status" = documents.activity.get "planning_status") :
    Projects P after projection := by
  obtain ⟨facts, records, heads, hfacts, hrecords, hreplay, hheads⟩ := validateAndProject_eq_ok h.projects
  constructor
  · rw [hbacklog]
    exact validateAndProject_of (hplanning.trans hfacts) hrecords hreplay hheads
  · intro tasks htasks
    rw [hbacklog] at htasks
    exact h.distinct tasks htasks

/-! ## What each command saves -/

theorem find_listed {tasks : List Json} {taskId : String} {index : ℕ} {task : Record} {id : String}
    (hlisted : listAt documents.backlog "tasks" = .ok tasks)
    (hfound : find P.toInterpreter tasks taskId "task" = .ok (index, task)) (hid : taskIdOf task = .ok id) :
    namedTask P documents taskId = .ok id := by
  refine bind_eq_ok.mpr ⟨tasks, hlisted, bind_eq_ok.mpr ⟨(index, task), hfound, hid⟩⟩

/-- A Task whose status changes without a patch is written to as it was found. -/
theorem same_self (task : Record) : ∀ name ∈ projectedFields, task.get name = task.get name :=
  fun _ _ ↦ rfl

/-- A status command that is not refused names a Task: it has the status, or it is given it. -/
theorem setTaskStatus_eq_ok {taskId status provenance : String} {expected result : Json} {saved : Option Documents}
    (h : setTaskStatus P documents clock taskId status expected provenance = .ok ⟨result, saved⟩) :
    ∃ id, namedTask P documents taskId = .ok id ∧
      (saved = none ∧ projectedStatus P documents.backlog documents.activity id = .ok status ∨
        ∃ after, saved = some after ∧ Nonempty (SavedStatus P documents after id status)) := by
  unfold setTaskStatus at h
  split at h
  · cases h
  next hknown =>
  split at h
  · cases h
  next hallowed =>
  obtain ⟨tasks, htasks, h⟩ := bind_eq_ok.mp h
  obtain ⟨⟨index, task⟩, hfind, h⟩ := bind_eq_ok.mp h
  obtain ⟨current, hcurrent, h⟩ := bind_eq_ok.mp h
  obtain ⟨wanted, -, h⟩ := bind_eq_ok.mp h
  split at h
  · cases h
  obtain ⟨id, hid, h⟩ := bind_eq_ok.mp h
  obtain ⟨before, hbefore, h⟩ := bind_eq_ok.mp h
  refine ⟨id, find_listed (tasksOf_eq_ok htasks) hfind hid, ?_⟩
  split at h
  · next hsame =>
      obtain ⟨projected, -, h⟩ := bind_eq_ok.mp h
      cases h
      rw [← hsame] at hbefore
      exact .inl ⟨rfl, hbefore⟩
  next hchanges =>
  obtain ⟨next, hnext, h⟩ := bind_eq_ok.mp h
  obtain ⟨key, -, h⟩ := bind_eq_ok.mp h
  obtain ⟨⟨activity, updated⟩, hchange, h⟩ := bind_eq_ok.mp h
  obtain ⟨projected, -, h⟩ := bind_eq_ok.mp h
  cases h
  obtain ⟨held, hheld, hadvances⟩ := nextRevision_eq_ok hnext
  have hcurrent' : held = current := Except.ok.inj (hheld.symm.trans hcurrent)
  rw [hcurrent'] at hadvances
  have hprovenance : provenance ∈ ["cli", "api.v1", "api.legacy"] := by
    have hlisted := not_not.mp hallowed
    simp only [List.mem_cons, List.not_mem_nil, or_false] at hlisted ⊢
    exact hlisted.imp_right .inr
  exact .inr ⟨_, rfl, ⟨⟨tasks, index, task, task, updated, clock.today 0, current, next, before, provenance, key, _,
    clock.now 0, _, activity, tasksOf_eq_ok htasks, (find_spec P.toInterpreter hfind).1, hid, same_self task, hbefore,
    not_not.mp hknown, hchanges, hprovenance, hcurrent, hadvances, hchange, rfl, rfl⟩⟩⟩

theorem statusText_of_valueAt {record : Record} {name status : String} (h : valueAt record name = .str status) :
    statusText record name = some status := by
  unfold valueAt at h
  unfold statusText
  cases hget : record.get name with
  | none =>
      rw [hget] at h
      cases h
  | some value =>
      rw [hget] at h
      cases h
      rfl

/-- A keyed request asks for a status that is known. -/
theorem keyedIntentRequest_eq_ok {key status : String} {body : Json} {expected : ℤ}
    (h : keyedIntentRequest key body = .ok (status, expected)) :
    ∃ fields, body = .obj fields ∧ statusText fields "status" = some status ∧ status ∈ taskStatuses := by
  obtain ⟨⟨⟩, -, h⟩ := bind_eq_ok.mp h
  cases body with
  | obj fields =>
      dsimp only at h
      split at h
      · split at h
        · next text htext =>
            split at h
            · next hknown =>
                split at h
                · split at h
                  · cases h
                    exact ⟨fields, rfl, statusText_of_valueAt htext, hknown⟩
                  · cases h
                · cases h
            · cases h
        · cases h
      · cases h
  | _ => cases h

/-- A keyed status command that is carried out names a Task: it has the status, or it is given it. -/
theorem setTaskStatusKeyed_saved {taskId key path : String} {body : Json} {requestDigest : Option Store.Digest}
    (h : served (setTaskStatusKeyed P documents clock taskId body key path requestDigest) = some after) :
    ∃ fields id status, body = .obj fields ∧ statusText fields "status" = some status ∧
      namedTask P documents taskId = .ok id ∧
      (after.backlog = documents.backlog ∧
          after.activity.get "planning_status" = documents.activity.get "planning_status" ∧
          projectedStatus P documents.backlog documents.activity id = .ok status ∨
        Nonempty (SavedStatus P documents after id status)) := by
  obtain ⟨response, h⟩ := served_eq_some h
  obtain ⟨⟨status, expected⟩, hrequest, h⟩ := bind_eq_ok.mp h
  obtain ⟨digest, -, h⟩ := bind_eq_ok.mp h
  have hwork := keyed_saved h
  clear h
  obtain ⟨fields, hfields, hstatus, hknown⟩ := keyedIntentRequest_eq_ok hrequest
  obtain ⟨tasks, htasks, hwork⟩ := bind_eq_ok.mp hwork
  obtain ⟨⟨index, task⟩, hfind, hwork⟩ := bind_eq_ok.mp hwork
  obtain ⟨current, hcurrent, hwork⟩ := bind_eq_ok.mp hwork
  dsimp only at hwork hcurrent
  split at hwork
  · cases hwork
  obtain ⟨id, hid, hwork⟩ := bind_eq_ok.mp hwork
  obtain ⟨before, hbefore, hwork⟩ := bind_eq_ok.mp hwork
  refine ⟨fields, id, status, hfields, hstatus, find_listed (tasksOf_eq_ok htasks) hfind hid, ?_⟩
  split at hwork
  · next hsame =>
      obtain ⟨projected, -, hwork⟩ := bind_eq_ok.mp hwork
      obtain ⟨logged, hlogged, hwork⟩ := bind_eq_ok.mp hwork
      cases hwork
      rw [← hsame] at hbefore
      exact .inl ⟨rfl, appendTo_get hlogged (by decide), hbefore⟩
  next hchanges =>
  obtain ⟨next, hnext, hwork⟩ := bind_eq_ok.mp hwork
  obtain ⟨⟨activity, updated⟩, hchange, hwork⟩ := bind_eq_ok.mp hwork
  obtain ⟨projected, -, hwork⟩ := bind_eq_ok.mp hwork
  obtain ⟨logged, hlogged, hwork⟩ := bind_eq_ok.mp hwork
  cases hwork
  obtain ⟨held, hheld, hadvances⟩ := nextRevision_eq_ok hnext
  have hcurrent' : held = current := Except.ok.inj (hheld.symm.trans hcurrent)
  rw [hcurrent'] at hadvances
  exact .inr ⟨⟨tasks, index, task, task, updated, clock.today 0, current, next, before, "cli", key, _,
    clock.now 0, _, activity, tasksOf_eq_ok htasks, (find_spec P.toInterpreter hfind).1, hid, same_self task, hbefore,
    hknown, hchanges, by decide, hcurrent, hadvances, hchange, rfl, appendTo_get hlogged (by decide)⟩⟩

/-- An undo that is saved gives the Task of its notice the status before the notice. -/
theorem undoMutationNotice_saved {noticeId key path : String} {body : Json} {requestDigest : Option Store.Digest}
    (h : served (undoMutationNotice P documents clock noticeId body key path requestDigest) = some after) :
    ∃ notice id status, findNotice P documents.activity (.str noticeId) = .ok (some notice) ∧
      noticedTask documents notice = .ok id ∧ statusText notice "status_before" = some status ∧
      Nonempty (SavedStatus P documents after id status) := by
  obtain ⟨s⟩ := undo_saved h
  obtain ⟨-, ⟨status, hknown, hbefore, hrequested⟩, -, -⟩ := compensationFor_eq_ok s.compensated
  have hstr : P.str (valueAt s.compensation "requested_status") = status := by rw [hrequested, Interpreter.str]
  have hchanges := s.changes
  have hchange := s.change_eq
  rw [hstr] at hchanges hchange
  obtain ⟨current, hcurrent, hadvances⟩ := nextNoticeRevision_eq_ok s.next_eq
  have hcurrent' : current = s.current := Except.ok.inj (hcurrent.symm.trans s.revision)
  rw [hcurrent'] at hadvances
  obtain ⟨intent, code, createdAt, response, hlogged⟩ := s.logged_eq
  have hplanning : after.activity.get "planning_status" = s.activity.get "planning_status" :=
    (congrArg (fun documents ↦ documents.activity.get "planning_status") s.after_eq).trans
      (appendTo_get hlogged (by decide))
  refine ⟨s.notice, s.id, status, s.noticed, ?_, statusText_of_valueAt hbefore, ?_⟩
  · exact bind_eq_ok.mpr ⟨s.tasks, s.listed, bind_eq_ok.mpr ⟨(s.index, s.task), s.found, s.id_eq⟩⟩
  · exact ⟨⟨s.tasks, s.index, s.task, s.task, s.updated, clock.today 0, s.current, s.next, s.before, "api.v1", _, _,
      clock.now 0, _, s.activity, s.listed, (taskForNotice_spec s.found).2.1, s.id_eq, same_self s.task, s.before_eq,
      hknown, hchanges, by decide, s.revision, hadvances, hchange, congrArg Documents.backlog s.after_eq, hplanning⟩⟩

theorem requestedChange_eq_none {fields : Record} {current wanted : String}
    (h : requestedChange (fields.get "status") current = none) (hwanted : statusText fields "status" = some wanted) :
    wanted = current := by
  unfold statusText at hwanted
  unfold requestedChange at h
  split at hwanted
  · next status hstatus =>
      cases hwanted
      rw [hstatus] at h
      dsimp only at h
      split at h
      · assumption
      · cases h
  · cases hwanted

theorem requestedChange_eq_some {fields : Record} {current wanted : String}
    (h : requestedChange (fields.get "status") current = some wanted) :
    statusText fields "status" = some wanted ∧ wanted ≠ current := by
  unfold requestedChange at h
  split at h
  · next status hstatus =>
      have htext : statusText fields "status" = some status := by simp only [statusText, hstatus]
      split at h
      · cases h
      · next hne =>
          cases h
          exact ⟨htext, hne⟩
  · cases h

/-- A patch that is not refused and changes nothing asks for no other status. -/
theorem patchTask_unsaved {taskId : String} {patch result : Json} {origin : Option String}
    (h : patchTask P documents clock taskId patch origin = .ok ⟨result, none⟩) :
    ∃ fields id status, patch = .obj fields ∧ namedTask P documents taskId = .ok id ∧
      projectedStatus P documents.backlog documents.activity id = .ok status ∧
      ∀ wanted, statusText fields "status" = some wanted → wanted = status := by
  cases patch with
  | obj fields =>
      simp only [patchTask] at h
      split at h
      · cases h
      obtain ⟨expected, -, h⟩ := bind_eq_ok.mp h
      obtain ⟨tasks, htasks, h⟩ := bind_eq_ok.mp h
      obtain ⟨⟨index, task⟩, hfind, h⟩ := bind_eq_ok.mp h
      obtain ⟨current, -, h⟩ := bind_eq_ok.mp h
      dsimp only at h
      split at h
      · cases h
      obtain ⟨indexed, -, h⟩ := bind_eq_ok.mp h
      obtain ⟨objectiveRecords, -, h⟩ := bind_eq_ok.mp h
      obtain ⟨objectives, -, h⟩ := bind_eq_ok.mp h
      obtain ⟨id, hid, h⟩ := bind_eq_ok.mp h
      obtain ⟨⟨changes, requested⟩, hchanges, h⟩ := bind_eq_ok.mp h
      obtain ⟨aligned, -, h⟩ := bind_eq_ok.mp h
      obtain ⟨status, hstatus, h⟩ := bind_eq_ok.mp h
      dsimp only at h
      refine ⟨fields, id, status, rfl, find_listed htasks hfind hid, hstatus, ?_⟩
      obtain ⟨final, hfinal, -, hrequested, -⟩ := patchChangeSet_get hchanges
      rw [hfinal "status" (by decide)] at hrequested
      split at h
      · next hunchanged =>
          intro wanted hwanted
          unfold statusText at hwanted
          split at hwanted
          · next asked hasked =>
              cases hwanted
              have hsame := (List.append_eq_nil_iff.mp hunchanged).2
              rw [hrequested, hasked] at hsame
              dsimp only at hsame
              split at hsame
              · next hequal => exact (Json.str.inj (Json.same_str_left.mp hequal))
              · cases hsame
          · cases hwanted
      · obtain ⟨next, -, h⟩ := bind_eq_ok.mp h
        obtain ⟨⟨activity, updated⟩, -, h⟩ := bind_eq_ok.mp h
        obtain ⟨logged, -, h⟩ := bind_eq_ok.mp h
        obtain ⟨projected, -, h⟩ := bind_eq_ok.mp h
        cases h
  | _ => cases h

theorem recordEvent_get {I : Interpreter} {activity activity' details : Record} {eventType createdAt : String}
    {subject : EventSubject} (h : recordEvent I activity eventType subject details createdAt = .ok activity')
    {name : String} (hname : name ≠ "activity") : activity'.get name = activity.get name := by
  obtain ⟨events, -, h⟩ := bind_eq_ok.mp h
  obtain ⟨id, -, h⟩ := bind_eq_ok.mp h
  exact appendTo_get h hname

namespace SavedPatch

variable {taskId : String} {patch : Record} {origin : Option String}

theorem requested_eq (s : SavedPatch P documents after clock taskId patch origin) :
    s.requested = patch.get "status" := by
  obtain ⟨final, hfinal, -, hrequested, -⟩ := patchChangeSet_get s.changes_eq
  rw [hrequested, hfinal "status" (by decide)]

theorem get_base (s : SavedPatch P documents after clock taskId patch origin) :
    ∀ name ∈ projectedFields, Dict.get (Dict.update s.aligned s.task) name = s.task.get name := by
  intro name hname
  have hnone : s.aligned.get name = none := by
    by_cases hstatus : name = "status"
    · rw [hstatus, s.get_status]
    · apply s.get_unknown
      simp only [projectedFields, List.mem_cons, List.not_mem_nil, or_false] at hname
      rcases hname with rfl | rfl | rfl | rfl
      · decide
      · decide
      · exact absurd rfl hstatus
      · decide
  rw [Dict.get_update, hnone, Option.none_or]

theorem planning_eq (s : SavedPatch P documents after clock taskId patch origin) :
    after.activity.get "planning_status" = s.activity.get "planning_status" := by
  have hafter := congrArg Documents.activity s.after_eq
  exact (congrArg (fun activity ↦ Dict.get activity "planning_status") hafter).trans
    (recordEvent_get s.logged_eq (by decide))

theorem advances (s : SavedPatch P documents after clock taskId patch origin) :
    s.next = s.current + 1 ∧ s.next ≤ maxRevision := by
  obtain ⟨current, hcurrent, hadvances⟩ := nextRevision_eq_ok s.next_eq
  rw [← Except.ok.inj (hcurrent.symm.trans s.revision)]
  exact hadvances

/-- A patch that asks for no other status writes to its Task and leaves the log alone. -/
theorem rewrites (s : SavedPatch P documents after clock taskId patch origin)
    (hnone : requestedChange s.requested s.status = none) :
    RewritesTask documents after s.tasks s.index s.task (touched s.updated (clock.today 0) s.next) s.current s.next ∧
      s.updated = Dict.update s.aligned s.task ∧ s.activity = documents.activity := by
  have hupdated := s.updated_eq
  rw [hnone] at hupdated
  have hsame := Except.ok.inj hupdated
  have hrecord : s.updated = Dict.update s.aligned s.task := (congrArg Prod.snd hsame).symm
  refine ⟨⟨s.replaces, ?_, s.revision, s.advances, revision_touched _ _ _⟩, hrecord, (congrArg Prod.fst hsame).symm⟩
  intro name hname _
  have hday : name ≠ "updated_at" := by
    rintro rfl
    exact absurd hname (by decide)
  have hrevision : name ≠ "revision" := by
    rintro rfl
    exact absurd hname (by decide)
  rw [get_touched _ _ _ hday hrevision, hrecord, s.get_base name hname]

/-- A patch that asks for another status changes it. -/
theorem savedStatus (s : SavedPatch P documents after clock taskId patch origin) {status : String}
    (hsome : requestedChange s.requested s.status = some status) :
    Nonempty (SavedStatus P documents after s.id status) := by
  have hupdated := s.updated_eq
  rw [hsome] at hupdated
  obtain ⟨key, -, hchange⟩ := bind_eq_ok.mp hupdated
  have hknown : status ∈ taskStatuses := by
    obtain ⟨final, hfinal, -, hrequested, hstatus⟩ := patchChangeSet_get s.changes_eq
    rw [s.requested_eq] at hsome
    obtain ⟨htext, -⟩ := requestedChange_eq_some hsome
    unfold statusText at htext
    split at htext
    · next text hget =>
        cases htext
        obtain ⟨known, hmem, hequal⟩ := hstatus _ hget
        cases hequal
        exact hmem
    · cases htext
  have hchanges : status ≠ s.status := by
    rw [s.requested_eq] at hsome
    exact (requestedChange_eq_some hsome).2
  exact ⟨⟨s.tasks, s.index, s.task, Dict.update s.aligned s.task, s.updated, clock.today 0, s.current, s.next, s.status,
    "api.v1", key, _, clock.now 0, _, s.activity, s.listed, (find_spec P.toInterpreter s.found).1, s.id_eq, s.get_base,
    s.status_eq, hknown, hchanges, by decide, s.revision, s.advances, hchange, congrArg Documents.backlog s.after_eq,
    s.planning_eq⟩⟩

end SavedPatch

/-! ## Steps and runs -/

/-- What a request does to a workspace whose log projects: it projects again, with the status that was asked
for, if it was carried out, and the Tasks are kept. -/
structure Takes (P : Platform) (documents after : Documents) (projection : Dict String String)
    (change : Option (String × String)) : Prop where
  projects : ∃ projection', Projects P after projection' ∧
    ∀ name, projection'.get name = statusAfter name change (projection.get name)
  kept : TasksKept documents after

theorem takes_none (h : Projects P after projection) (hkept : TasksKept documents after) :
    Takes P documents after projection none :=
  ⟨⟨projection, h, fun _ ↦ rfl⟩, hkept⟩

/-- A status that the Task has is carried out by doing nothing. -/
theorem takes_held (h : Projects P after projection) (hkept : TasksKept documents after) {id status : String}
    (hheld : projection.get id = some status) : Takes P documents after projection (some (id, status)) := by
  refine ⟨⟨projection, h, ?_⟩, hkept⟩
  intro name
  rw [statusAfter]
  split
  · next hname => rw [hname, hheld]
  · rfl

theorem SavedStatus.takes {id status : String} (s : SavedStatus P documents after id status)
    (h : Projects P documents projection) : Takes P documents after projection (some (id, status)) :=
  ⟨s.projects h, s.rewrites.tasksKept⟩

theorem takes_refused (h : Projects P documents projection) : Takes P documents documents projection none :=
  takes_none h (tasksKept_of_backlog rfl)

/-- A patch of a workspace whose log projects. -/
theorem patchTask_takes (h : Projects P documents projection) (taskId : String) (patch : Json)
    (origin : Option String) :
    Takes P documents ((serveStatus P documents (clock, .patch taskId patch origin)).getD documents) projection
      (accepted P documents (clock, .patch taskId patch origin)) := by
  rw [accepted, carriesOut, serveStatus]
  cases hdone : patchTask P documents clock taskId patch origin with
  | error refusal => exact takes_refused h
  | ok done =>
      obtain ⟨result, saved⟩ := done
      change Takes P documents (saved.getD documents) projection
        (StatusRequest.asks P documents (.patch taskId patch origin))
      cases saved with
      | none =>
          obtain ⟨fields, id, status, rfl, hnamed, hstatus, hsame⟩ := patchTask_unsaved hdone
          change Takes P documents documents projection _
          rw [StatusRequest.asks, hnamed]
          cases hwanted : statusText fields "status" with
          | none => exact takes_refused h
          | some wanted =>
              rw [← hsame wanted hwanted] at hstatus
              exact takes_held h (tasksKept_of_backlog rfl) (h.get_eq hstatus)
      | some after =>
          obtain ⟨fields, rfl, ⟨s⟩⟩ := patchTask_saved hdone
          change Takes P documents after projection _
          have hnamed : namedTask P documents taskId = .ok s.id := find_listed s.listed s.found s.id_eq
          rw [StatusRequest.asks, hnamed]
          cases hrequested : requestedChange s.requested s.status with
          | none =>
              obtain ⟨hrewrites, hupdated, hactivity⟩ := s.rewrites hrequested
              have hplanning : after.activity.get "planning_status" = documents.activity.get "planning_status" := by
                rw [s.planning_eq, hactivity]
              have hhead : (touched s.updated (clock.today 0) s.next).get "status_fact_id" =
                  s.task.get "status_fact_id" := by
                rw [get_touched _ _ _ (by decide) (by decide), hupdated, s.get_base _ (by decide)]
              have hafter := h.kept hrewrites s.id_eq hhead hplanning
              cases hwanted : statusText fields "status" with
              | none => exact takes_none hafter hrewrites.tasksKept
              | some wanted =>
                  rw [s.requested_eq] at hrequested
                  have hstatus := s.status_eq
                  rw [← requestedChange_eq_none hrequested hwanted] at hstatus
                  exact takes_held hafter hrewrites.tasksKept (h.get_eq hstatus)
          | some status =>
              obtain ⟨change⟩ := s.savedStatus hrequested
              rw [s.requested_eq] at hrequested
              rw [(requestedChange_eq_some hrequested).1]
              exact change.takes h

/-- A status command on a workspace whose log projects. -/
theorem setTaskStatus_takes (h : Projects P documents projection) (taskId status : String) (expected : Json)
    (provenance : String) :
    Takes P documents ((serveStatus P documents (clock, .status taskId status expected provenance)).getD documents)
      projection (accepted P documents (clock, .status taskId status expected provenance)) := by
  rw [accepted, carriesOut, serveStatus]
  cases hdone : setTaskStatus P documents clock taskId status expected provenance with
  | error refusal => exact takes_refused h
  | ok done =>
      obtain ⟨result, saved⟩ := done
      obtain ⟨id, hnamed, hcases⟩ := setTaskStatus_eq_ok hdone
      change Takes P documents (saved.getD documents) projection
        (StatusRequest.asks P documents (.status taskId status expected provenance))
      rw [StatusRequest.asks, hnamed]
      rcases hcases with ⟨rfl, hstatus⟩ | ⟨after, rfl, ⟨s⟩⟩
      · exact takes_held h (tasksKept_of_backlog rfl) (h.get_eq hstatus)
      · exact s.takes h

/-- A keyed status command on a workspace whose log projects. -/
theorem setTaskStatusKeyed_takes (h : Projects P documents projection) (taskId : String) (body : Json)
    (key path : String) (requestDigest : Option Store.Digest) :
    Takes P documents
      ((serveStatus P documents (clock, .keyedStatus taskId body key path requestDigest)).getD documents) projection
      (accepted P documents (clock, .keyedStatus taskId body key path requestDigest)) := by
  rw [accepted, carriesOut, serveStatus]
  cases hsaved : served (setTaskStatusKeyed P documents clock taskId body key path requestDigest) with
  | none => exact takes_refused h
  | some after =>
      obtain ⟨fields, id, status, rfl, hstatus, hnamed, hcases⟩ := setTaskStatusKeyed_saved hsaved
      rw [Option.isSome_some, if_pos rfl, StatusRequest.asks, hnamed, hstatus]
      rcases hcases with ⟨hbacklog, hplanning, hheld⟩ | ⟨⟨s⟩⟩
      · exact takes_held (h.of_same hbacklog hplanning) (tasksKept_of_backlog hbacklog) (h.get_eq hheld)
      · exact s.takes h

/-- An undo on a workspace whose log projects. -/
theorem undoMutationNotice_takes (h : Projects P documents projection) (noticeId : String) (body : Json)
    (key path : String) (requestDigest : Option Store.Digest) :
    Takes P documents ((serveStatus P documents (clock, .undo noticeId body key path requestDigest)).getD documents)
      projection (accepted P documents (clock, .undo noticeId body key path requestDigest)) := by
  rw [accepted, carriesOut, serveStatus]
  cases hsaved : served (undoMutationNotice P documents clock noticeId body key path requestDigest) with
  | none => exact takes_refused h
  | some after =>
      obtain ⟨notice, id, status, hnotice, hnamed, hstatus, ⟨s⟩⟩ := undoMutationNotice_saved hsaved
      rw [Option.isSome_some, if_pos rfl, StatusRequest.asks, hnotice]
      change Takes P documents after projection (Option.bind (noticedTask documents notice).toOption _)
      rw [hnamed]
      change Takes P documents after projection (Option.bind (statusText notice "status_before") _)
      rw [hstatus]
      exact s.takes h

theorem serveStatus_takes (h : Projects P documents projection) (step : Clock × StatusRequest) :
    Takes P documents ((serveStatus P documents step).getD documents) projection (accepted P documents step) := by
  obtain ⟨clock, request⟩ := step
  cases request with
  | patch taskId patch origin => exact patchTask_takes h taskId patch origin
  | status taskId status expected provenance => exact setTaskStatus_takes h taskId status expected provenance
  | keyedStatus taskId body key path requestDigest =>
      exact setTaskStatusKeyed_takes h taskId body key path requestDigest
  | undo noticeId body key path requestDigest => exact undoMutationNotice_takes h noticeId body key path requestDigest

/-- After a run the log projects each Task to the status that was last asked for it and carried out. -/
theorem run_projects (h : Projects P documents projection) (run : List (Clock × StatusRequest)) :
    (∃ projection', Projects P (Requests.after (serveStatus P) documents run) projection' ∧
      ∀ id, projection'.get id = lastAccepted P id documents run (projection.get id)) ∧
      TasksKept documents (Requests.after (serveStatus P) documents run) := by
  induction run generalizing documents projection with
  | nil => exact ⟨⟨projection, h, fun _ ↦ rfl⟩, tasksKept_of_backlog rfl⟩
  | cons step run ih =>
      obtain ⟨⟨projection', hprojects, hget⟩, hkept⟩ := serveStatus_takes h step
      obtain ⟨⟨last, hlast, hlastGet⟩, hkept'⟩ := ih hprojects
      refine ⟨⟨last, hlast, ?_⟩, hkept.trans hkept'⟩
      intro id
      rw [hlastGet, hget]
      rfl

/-- From a workspace whose log projects, as every bootstrap that is valid does, the log projects after every run of
the commands that change a status: each Task has the status that was last asked for it and carried out, or the one
it had at the start. Between any two states of a run no revision decreases and no stored status changes. -/
theorem status_is_last_accepted {start : Documents} (h : Projects P start projection)
    (run later : List (Clock × StatusRequest)) :
    (∃ projection', validateAndProject P.toInterpreter (Requests.after (serveStatus P) start run).backlog
        (Requests.after (serveStatus P) start run).activity = .ok projection' ∧
      ∀ id, projection'.get id = lastAccepted P id start run (projection.get id)) ∧
      TasksKept (Requests.after (serveStatus P) start run) (Requests.after (serveStatus P) start (run ++ later)) := by
  obtain ⟨⟨projection', hprojects, hget⟩, -⟩ := run_projects h run
  refine ⟨⟨projection', hprojects.projects, hget⟩, ?_⟩
  rw [Requests.after_append]
  exact (run_projects hprojects later).2

theorem sampleDocuments_projects (names : List ((String × String) × String)) (texts : List (String × Json)) :
    Projects (asciiPlatform names texts) sampleDocuments [("T-0001", "open")] := by
  constructor
  · have hprojects : validateAndProject asciiInterpreter sampleDocuments.backlog sampleDocuments.activity =
        .ok [("T-0001", "open")] := Effect.Refusing.toOption_eq_some.mp (by decide +kernel)
    exact hprojects
  · intro tasks htasks
    cases htasks
    decide

/-- The Task of the sample is started. -/
theorem sampleDocuments_status_is_last_accepted :
    (∃ projection', validateAndProject asciiInterpreter
        (Requests.after (serveStatus undoPlatform) sampleDocuments
          [(sampleClock (sampleMoment 20), .status "T-0001" "started" .null "cli")]).backlog
        (Requests.after (serveStatus undoPlatform) sampleDocuments
          [(sampleClock (sampleMoment 20), .status "T-0001" "started" .null "cli")]).activity = .ok projection' ∧
      ∀ id, projection'.get id = lastAccepted undoPlatform id sampleDocuments
        [(sampleClock (sampleMoment 20), .status "T-0001" "started" .null "cli")]
        (Dict.get [("T-0001", "open")] id)) ∧
      TasksKept
        (Requests.after (serveStatus undoPlatform) sampleDocuments
          [(sampleClock (sampleMoment 20), .status "T-0001" "started" .null "cli")])
        (Requests.after (serveStatus undoPlatform) sampleDocuments
          ([(sampleClock (sampleMoment 20), .status "T-0001" "started" .null "cli")] ++
            [(sampleClock (sampleMoment 25), .status "T-0001" "done" .null "cli")])) :=
  status_is_last_accepted (sampleDocuments_projects _ _) _ _

example : lastAccepted undoPlatform "T-0001" sampleDocuments
    [(sampleClock (sampleMoment 20), .status "T-0001" "started" .null "cli")] (some "open") = some "started" := by
  decide +kernel

end WorkStack.Service
