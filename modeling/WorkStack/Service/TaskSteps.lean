import WorkStack.Service.Objectives

/-!
# What the commands on Tasks do to a backlog

Each command that changes a Task puts one record in place of the one it found. What that record has in
common with the old one, and where it differs, is read off the commands here, once for all the
invariants that are proved of them.
-/

namespace WorkStack.Service

open Effect.Outcome Python

/-- The documents a command saved. -/
def performed : Checked Performed → Option Documents
  | .ok done => done.saved
  | .error _ => none

/-- The documents a keyed command saved. -/
def served : Checked Served → Option Documents
  | .ok done => done.saved
  | .error _ => none

theorem performed_eq_some {command : Checked Performed} {after : Documents} (h : performed command = some after) :
    ∃ result, command = .ok ⟨result, some after⟩ := by
  cases command with
  | error refusal => cases h
  | ok done =>
      obtain ⟨result, saved⟩ := done
      exact ⟨result, by rw [show saved = some after from h]⟩

theorem served_eq_some {command : Checked Served} {after : Documents} (h : served command = some after) :
    ∃ response, command = .ok ⟨response, some after⟩ := by
  cases command with
  | error refusal => cases h
  | ok done =>
      obtain ⟨response, saved⟩ := done
      exact ⟨response, by rw [show saved = some after from h]⟩

/-- A step that puts a record in the place of a Task. -/
structure Replaces (documents after : Documents) (tasks : List Json) (index : ℕ) (task updated : Record) :
    Prop where
  listed : listAt documents.backlog "tasks" = .ok tasks
  found : tasks[index]? = some (.obj task)
  backlog : after.backlog = documents.backlog.set "tasks" (.arr (tasks.set index (.obj updated)))

theorem listAt_set (record : Record) (name : String) (items : List Json) :
    listAt (record.set name (.arr items)) name = .ok items := by
  simp [listAt, asList]

theorem listAt_of_get {record : Record} {name : String} {items : List Json}
    (h : record.get name = some (.arr items)) : listAt record name = .ok items := by
  simp [listAt, h, asList]

theorem Replaces.tasks_after {documents after : Documents} {tasks : List Json} {index : ℕ}
    {task updated : Record} (h : Replaces documents after tasks index task updated) :
    listAt after.backlog "tasks" = .ok (tasks.set index (.obj updated)) := by
  rw [h.backlog, listAt_set]

theorem tasksOf_eq_ok {backlog : Record} {tasks : List Json} (h : tasksOf backlog = .ok tasks) :
    listAt backlog "tasks" = .ok tasks := by
  obtain ⟨value, hvalue, h⟩ := bind_eq_ok.mp h
  apply listAt_of_get
  rw [field_eq_ok.mp hvalue, asList_eq_ok.mp h]

/-- A Task is touched by its revision and its day, and nowhere else. -/
theorem get_touched (task : Record) (day : String) (revision : ℤ) {name : String}
    (hday : name ≠ "updated_at") (hrevision : name ≠ "revision") :
    (touched task day revision).get name = task.get name := by
  unfold touched
  rw [Dict.get_set_of_ne _ (Ne.symm hrevision), Dict.get_set_of_ne _ (Ne.symm hday)]

theorem valueAt_touched (task : Record) (day : String) (revision : ℤ) {name : String}
    (hday : name ≠ "updated_at") (hrevision : name ≠ "revision") :
    valueAt (touched task day revision) name = valueAt task name := by
  rw [valueAt, valueAt, get_touched task day revision hday hrevision]

theorem revision_touched (task : Record) (day : String) (revision : ℤ) :
    (touched task day revision).get "revision" = some (.int revision) := by
  simp [touched]

theorem appendTransition_task {activity task after updated : Record} {before status : String}
    {revision next : ℤ} {createdAt actor provenance : String}
    (h : appendTransition activity task before status revision next createdAt actor provenance =
      .ok (after, updated)) {name : String} (hname : name ≠ "status_fact_id") :
    updated.get name = task.get name := by
  obtain ⟨facts, -, h⟩ := bind_eq_ok.mp h
  obtain ⟨head, -, h⟩ := bind_eq_ok.mp h
  obtain ⟨fact, -, h⟩ := bind_eq_ok.mp h
  obtain ⟨id, -, h⟩ := bind_eq_ok.mp h
  cases h
  exact Dict.get_set_of_ne _ (Ne.symm hname) _

section Steps

variable {P : Platform} {documents after : Documents} {clock : Clock}

theorem changeStatus_task {activity task activity' updated : Record} {provenance : String}
    {change : StatusChange} {factAt noticeAt : String}
    (h : changeStatus P documents activity task provenance change factAt noticeAt = .ok (activity', updated))
    {name : String} (hname : name ≠ "status_fact_id") : updated.get name = task.get name := by
  obtain ⟨⟨activity₁, task₁⟩, htransition, h⟩ := bind_eq_ok.mp h
  obtain ⟨uid, -, h⟩ := bind_eq_ok.mp h
  obtain ⟨activity₂, -, h⟩ := bind_eq_ok.mp h
  cases h
  exact appendTransition_task htransition hname

theorem patchStatus_task {task activity' updated : Record} {requested : Option String} {current : String}
    {revision next : ℤ} {origin : Option String}
    (h : patchStatus P documents clock task requested current revision next origin = .ok (activity', updated))
    {name : String} (hname : name ≠ "status_fact_id") : updated.get name = task.get name := by
  cases requested with
  | none =>
      cases h
      rfl
  | some status =>
      obtain ⟨key, -, h⟩ := bind_eq_ok.mp h
      exact changeStatus_task h hname

/-- What a patch that was saved came from, step by step. -/
structure SavedPatch (P : Platform) (documents after : Documents) (clock : Clock) (taskId : String)
    (patch : Record) (origin : Option String) where
  tasks : List Json
  index : ℕ
  task : Record
  current : ℤ
  indexed : Dict String Record
  objectiveRecords : List Json
  objectives : List (Json × Record)
  id : String
  changes : Record
  requested : Option Json
  aligned : Record
  status : String
  next : ℤ
  activity : Record
  updated : Record
  logged : Record
  known : unknownFields patch taskPatchFields = []
  expected : valueAt patch "revision" = .int current
  listed : listAt documents.backlog "tasks" = .ok tasks
  found : find P.toInterpreter tasks taskId "task" = .ok (index, task)
  revision : Service.revision task = .ok current
  index_eq : recordsById [] tasks = .ok indexed
  objectives_eq : listAt documents.okr "objectives" = .ok objectiveRecords
  grouped : objectiveRecordsById objectiveRecords = .ok objectives
  id_eq : taskIdOf task = .ok id
  changes_eq : patchChangeSet P.toInterpreter patch id indexed objectives = .ok (changes, requested)
  aligned_eq : applyTaskOutcomeWriteInvariant P.toInterpreter objectives changes task = .ok aligned
  status_eq : projectedStatus P documents.backlog documents.activity id = .ok status
  changed : patchChangedFields aligned requested status ≠ []
  next_eq : nextRevision task = .ok next
  updated_eq : patchStatus P documents clock (Dict.update aligned task) (requestedChange requested status)
    status current next origin = .ok (activity, updated)
  logged_eq : recordEvent P.toInterpreter activity "task.updated"
    { taskId := subjectId (valueAt (touched updated (clock.today 0) next) "id") }
    [("fields", textsJson (patchChangedFields aligned requested status))] (clock.now 2).utcNow = .ok logged
  after_eq : after = withTask documents tasks index (touched updated (clock.today 0) next) logged

/-- A patch is saved through all of its checks. -/
theorem patchTask_saved {taskId : String} {patch : Json} {origin : Option String} {result : Json}
    (h : patchTask P documents clock taskId patch origin = .ok ⟨result, some after⟩) :
    ∃ fields, patch = .obj fields ∧ Nonempty (SavedPatch P documents after clock taskId fields origin) := by
  cases patch with
  | obj fields =>
      simp only [patchTask] at h
      split at h
      · cases h
      · rename_i hknown
        obtain ⟨expected, hexpected, h⟩ := bind_eq_ok.mp h
        obtain ⟨tasks, htasks, h⟩ := bind_eq_ok.mp h
        obtain ⟨⟨index, task⟩, hfind, h⟩ := bind_eq_ok.mp h
        obtain ⟨current, hcurrent, h⟩ := bind_eq_ok.mp h
        dsimp only at h hcurrent
        split at h
        · cases h
        · rename_i hrevision
          obtain ⟨indexed, hindexed, h⟩ := bind_eq_ok.mp h
          obtain ⟨objectiveRecords, hobjectives, h⟩ := bind_eq_ok.mp h
          obtain ⟨objectives, hgrouped, h⟩ := bind_eq_ok.mp h
          obtain ⟨id, hid, h⟩ := bind_eq_ok.mp h
          obtain ⟨⟨changes, requested⟩, hchanges, h⟩ := bind_eq_ok.mp h
          obtain ⟨aligned, haligned, h⟩ := bind_eq_ok.mp h
          obtain ⟨status, hstatus, h⟩ := bind_eq_ok.mp h
          dsimp only at h haligned
          split at h
          · obtain ⟨projected, -, h⟩ := bind_eq_ok.mp h
            cases h
          · rename_i hchanged
            obtain ⟨next, hnext, h⟩ := bind_eq_ok.mp h
            obtain ⟨⟨activity, updated⟩, hupdated, h⟩ := bind_eq_ok.mp h
            obtain ⟨logged, hlogged, h⟩ := bind_eq_ok.mp h
            obtain ⟨projected, -, h⟩ := bind_eq_ok.mp h
            cases h
            have hvalue : valueAt fields "revision" = .int current := by
              simp only [patchTask.patchRevision] at hexpected
              split at hexpected
              · split at hexpected
                · rename_i value hvalue hle
                  cases hexpected
                  rw [hvalue, not_not.mp hrevision]
                · cases hexpected
              · cases hexpected
            exact ⟨fields, rfl, ⟨⟨tasks, index, task, current, indexed, objectiveRecords, objectives, id, changes,
              requested, aligned, status, next, activity, updated, logged, not_not.mp hknown, hvalue, htasks,
              hfind, hcurrent, hindexed, hobjectives, hgrouped, hid, hchanges, haligned, hstatus, hchanged, hnext,
              hupdated, hlogged, rfl⟩⟩⟩
  | _ => cases h

namespace SavedPatch

variable {taskId : String} {patch : Record} {origin : Option String}

theorem replaces (s : SavedPatch P documents after clock taskId patch origin) :
    Replaces documents after s.tasks s.index s.task (touched s.updated (clock.today 0) s.next) := by
  constructor
  · exact s.listed
  · exact (find_spec P.toInterpreter s.found).1
  · exact congrArg Documents.backlog s.after_eq

/-- A field of the Task after a patch is the one of the changes, or else the old one. -/
theorem get_after (s : SavedPatch P documents after clock taskId patch origin) {name : String}
    (hname : name ∉ ["status_fact_id", "updated_at", "revision"]) :
    (touched s.updated (clock.today 0) s.next).get name = (s.aligned.get name).or (s.task.get name) := by
  simp only [List.mem_cons, List.not_mem_nil, or_false, not_or] at hname
  rw [get_touched _ _ _ hname.2.1 hname.2.2, patchStatus_task s.updated_eq hname.1, Dict.get_update]

end SavedPatch

/-- A link adds an Objective to a Task. -/
theorem linkTask_saved {I : Interpreter} {objectiveId taskId : String} {result : Json}
    (h : linkTask I documents clock objectiveId taskId = .ok ⟨result, some after⟩) :
    ∃ tasks index task next linked links,
      Replaces documents after tasks index task
        (touched (task.set "objective_ids" (textsJson (sortedSet (links ++ [I.upper (I.strip objectiveId)]))))
          (clock.today 0) next) ∧
      nextRevision task = .ok next ∧ listAt task "objective_ids" = .ok linked ∧
      textsOf (.fault "TypeError") linked = .ok links ∧ after.okr = documents.okr ∧
      after.activity = documents.activity ∧ after.workspace = documents.workspace := by
  obtain ⟨objectives, -, h⟩ := bind_eq_ok.mp h
  obtain ⟨found, -, h⟩ := bind_eq_ok.mp h
  obtain ⟨tasks, htasks, h⟩ := bind_eq_ok.mp h
  obtain ⟨⟨index, task⟩, hfind, h⟩ := bind_eq_ok.mp h
  obtain ⟨next, hnext, h⟩ := bind_eq_ok.mp h
  obtain ⟨linked, hlinked, h⟩ := bind_eq_ok.mp h
  obtain ⟨links, hlinks, h⟩ := bind_eq_ok.mp h
  cases h
  have hreplaces : Replaces documents (withTask documents tasks index (touched
      (task.set "objective_ids" (textsJson (sortedSet (links ++ [I.upper (I.strip objectiveId)]))))
      (clock.today 0) next) documents.activity) tasks index task _ :=
    ⟨tasksOf_eq_ok htasks, (find_spec I hfind).1, rfl⟩
  exact ⟨tasks, index, task, next, linked, links, hreplaces, hnext, hlinked, hlinks, rfl, rfl, rfl⟩

end Steps

end WorkStack.Service
