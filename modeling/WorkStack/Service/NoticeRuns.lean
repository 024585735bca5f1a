import Mathlib
import WorkStack.Service.PlanningSteps
import WorkStack.Service.StoredNotices

/-!
# Undoing changes of a status over runs

Four commands change the status of a Task and leave a notice of it: the patch, the two status commands and
the undo of an earlier notice. Every one of them raises the revision of the Task it changes, and every other
write to a Task does so too. A notice names the revision it left the Task at, so it can be undone while the
Task is still there, and never again after anything was done to the Task, its own undo included.
-/

namespace WorkStack.Service

open Effect.Outcome Python

variable {P : Platform} {documents after : Documents} {clock : Clock}

/-! ## What a command writes to a Task -/

/-- A Task that was touched at its next revision was written to. -/
theorem revises_touched {task updated : Record} {day : String} {current next : ℤ} (hcurrent : revision task = .ok current)
    (hnext : next = current + 1 ∧ next ≤ maxRevision) (hid : updated.get "id" = task.get "id")
    (huid : updated.get "uid" = task.get "uid") : Revises task (touched updated day next) := by
  apply revises_of_next hcurrent hnext (revision_touched updated day next)
  · rw [get_touched _ _ _ (by decide) (by decide), hid]
  · rw [get_touched _ _ _ (by decide) (by decide), huid]

variable {activity task activity' updated : Record}

theorem revises_changeStatus {provenance day : String} {change : StatusChange} {factAt noticeAt : String}
    {current next : ℤ}
    (h : changeStatus P documents activity task provenance change factAt noticeAt = .ok (activity', updated))
    (hcurrent : revision task = .ok current) (hnext : next = current + 1 ∧ next ≤ maxRevision) :
    Revises task (touched updated day next) := by
  apply revises_touched hcurrent hnext
  · exact changeStatus_task h (by decide)
  · exact changeStatus_task h (by decide)

variable {objectives : List (Json × Record)} {name : String}

/-- Aligning a Task with its references changes its Objectives alone. -/
theorem get_alignParents {I : Interpreter} {changes aligned task : Record}
    (h : alignParents I objectives changes task = .ok aligned) (hname : name ≠ "objective_ids") :
    aligned.get name = changes.get name := by
  unfold alignParents at h
  split at h
  · obtain ⟨⟨⟩, -, h⟩ := bind_eq_ok.mp h
    obtain ⟨current, -, h⟩ := bind_eq_ok.mp h
    obtain ⟨base, -, h⟩ := bind_eq_ok.mp h
    obtain ⟨ensured, -, h⟩ := bind_eq_ok.mp h
    split at h
    · cases h
      exact Dict.get_set_of_ne _ (Ne.symm hname) _
    · cases h
      rfl
  · cases h
    rfl

/-- The fields of a patch that are normalized, and its revision. -/
def normalizedFields : List String :=
  ["revision", "title", "detail", "tags", "objective_ids", "dependencies", "key_result_refs", "parent_id"]

variable {indexed : Dict String Record}

/-- The other fields of a patch come through as they are, and a status is one that is known. -/
theorem patchChangeSet_get {I : Interpreter} {patch changes : Record} {requested : Option Json} {taskId : String}
    (h : patchChangeSet I patch taskId indexed objectives = .ok (changes, requested)) :
    ∃ final : Record, (∀ name ∉ normalizedFields, final.get name = patch.get name) ∧ changes = final.erase "status" ∧
      requested = final.get "status" ∧
      ∀ value, patch.get "status" = some value → ∃ status ∈ taskStatuses, value = .str status := by
  obtain ⟨scalar, collected, final, hscalar, hcollected, -, hfinal, hchanges, hrequested⟩ := patchChangeSet_ok _ h
  obtain ⟨tagged, grouped, related, htagged, hgrouped, hrelated, hcollected⟩ :=
    normalizePatchCollectionFields_ok _ hcollected
  obtain ⟨titled, htitled, hscalar⟩ := bind_eq_ok.mp hscalar
  obtain ⟨detailed, hdetailed, hscalar⟩ := bind_eq_ok.mp hscalar
  obtain ⟨⟨⟩, henums, hscalar⟩ := bind_eq_ok.mp hscalar
  obtain ⟨⟨⟩, -, hscalar⟩ := bind_eq_ok.mp hscalar
  obtain ⟨⟨⟩, -, hscalar⟩ := bind_eq_ok.mp hscalar
  obtain ⟨⟨⟩, -, hscalar⟩ := bind_eq_ok.mp hscalar
  cases hscalar
  have hscalarGet {name : String} (hrevision : "revision" ≠ name) (htitle : "title" ≠ name)
      (hdetail : "detail" ≠ name) : scalar.get name = patch.get name := by
    rw [get_normalizeField hdetailed hdetail, get_normalizeField htitled htitle, Dict.get_erase, if_neg hrevision]
  refine ⟨final, ?_, hchanges, hrequested, ?_⟩
  · intro name hname
    simp only [normalizedFields, List.mem_cons, List.not_mem_nil, or_false, not_or] at hname
    obtain ⟨hrevision, htitle, hdetail, htags, hobjectives, hdependencies, hrefs, hparent⟩ := hname
    rw [get_normalizeField hfinal (Ne.symm hparent), get_normalizeField hcollected (Ne.symm hrefs),
      get_normalizeField hrelated (Ne.symm hdependencies), get_normalizeField hgrouped (Ne.symm hobjectives),
      get_normalizeField htagged (Ne.symm htags)]
    exact hscalarGet (Ne.symm hrevision) (Ne.symm htitle) (Ne.symm hdetail)
  · intro value hvalue
    obtain ⟨⟨⟩, hstatus, -⟩ := bind_eq_ok.mp henums
    rw [checkField, hscalarGet (by decide) (by decide) (by decide), hvalue] at hstatus
    dsimp only at hstatus
    split at hstatus
    · next hknown =>
        obtain ⟨status, hmem, hsame⟩ := List.any_eq_true.mp hknown
        exact ⟨status, hmem, Json.same_str_left.mp hsame⟩
    · cases hstatus

/-- What a patch changes is what it asks for: no change of its status, nor of a field that it does not name. -/
theorem get_aligned {I : Interpreter} {patch changes aligned task : Record} {requested : Option Json} {taskId : String}
    (hchanges : patchChangeSet I patch taskId indexed objectives = .ok (changes, requested))
    (haligned : applyTaskOutcomeWriteInvariant I objectives changes task = .ok aligned)
    (hname : name ∉ normalizedFields) : aligned.get name = if "status" = name then none else patch.get name := by
  obtain ⟨final, hfinal, hchanges, -⟩ := patchChangeSet_get hchanges
  obtain ⟨parents, hparents, haligned⟩ := bind_eq_ok.mp haligned
  obtain ⟨⟨⟩, -, haligned⟩ := bind_eq_ok.mp haligned
  have hobjectives : name ≠ "objective_ids" := by
    rintro rfl
    exact hname (by decide)
  rw [← Except.ok.inj haligned, get_alignParents hparents hobjectives, hchanges, Dict.get_erase, hfinal name hname]

/-- A patch names no field that it may not name. -/
theorem get_of_unknownFields {patch : Record} (hknown : unknownFields patch taskPatchFields = [])
    (hname : name ∉ taskPatchFields) : patch.get name = none := by
  apply get_eq_none
  intro hmem
  have hunknown : name ∈ unknownFields patch taskPatchFields := by
    unfold unknownFields
    rw [mem_sortedSet, List.mem_filter]
    exact ⟨hmem, by simpa using hname⟩
  rw [hknown] at hunknown
  exact absurd hunknown List.not_mem_nil

/-- A patch has no change of a field that it may not name. -/
theorem get_unknownField {I : Interpreter} {patch changes aligned task : Record} {requested : Option Json}
    {taskId : String} (hknown : unknownFields patch taskPatchFields = [])
    (hchanges : patchChangeSet I patch taskId indexed objectives = .ok (changes, requested))
    (haligned : applyTaskOutcomeWriteInvariant I objectives changes task = .ok aligned)
    (hname : name ∉ taskPatchFields) : aligned.get name = none := by
  have hnormal : name ∉ normalizedFields := by
    intro hmem
    have hsub : normalizedFields ⊆ taskPatchFields := by decide
    exact hname (hsub hmem)
  rw [get_aligned hchanges haligned hnormal, get_of_unknownFields hknown hname]
  exact ite_self none

namespace SavedPatch

variable {taskId : String} {patch : Record} {origin : Option String}

theorem get_status (s : SavedPatch P documents after clock taskId patch origin) : s.aligned.get "status" = none := by
  rw [get_aligned s.changes_eq s.aligned_eq (by decide), if_pos rfl]

theorem get_unknown (s : SavedPatch P documents after clock taskId patch origin) (hname : name ∉ taskPatchFields) :
    s.aligned.get name = none :=
  get_unknownField s.known s.changes_eq s.aligned_eq hname

theorem revises (s : SavedPatch P documents after clock taskId patch origin) :
    Revises s.task (touched s.updated (clock.today 0) s.next) := by
  obtain ⟨current, hcurrent, hnext⟩ := nextRevision_eq_ok s.next_eq
  apply revises_of_next hcurrent hnext (revision_touched _ _ _)
  · rw [s.get_after (by decide), s.get_unknown (by decide), Option.none_or]
  · rw [s.get_after (by decide), s.get_unknown (by decide), Option.none_or]

end SavedPatch

/-! ## What a command writes to the log of events -/

theorem appendTransition_activity {prior status createdAt actor provenance : String} {current next : ℤ}
    (h : appendTransition activity task prior status current next createdAt actor provenance = .ok (activity', updated))
    (hname : name ≠ "planning_status") : activity'.get name = activity.get name := by
  obtain ⟨facts, -, h⟩ := bind_eq_ok.mp h
  obtain ⟨head, -, h⟩ := bind_eq_ok.mp h
  obtain ⟨fact, -, h⟩ := bind_eq_ok.mp h
  obtain ⟨id, -, h⟩ := bind_eq_ok.mp h
  cases h
  exact Dict.get_set_of_ne _ (Ne.symm hname) _

theorem changeStatus_kept {provenance : String} {change : StatusChange} {factAt noticeAt : String}
    (h : changeStatus P documents activity task provenance change factAt noticeAt = .ok (activity', updated)) :
    NoticesKept P activity activity' := by
  obtain ⟨⟨appended, settled⟩, htransition, h⟩ := bind_eq_ok.mp h
  obtain ⟨uid, -, h⟩ := bind_eq_ok.mp h
  obtain ⟨noticed, hnoticed, h⟩ := bind_eq_ok.mp h
  cases h
  have hfirst : NoticesKept P activity appended := noticesKept_of_get (appendTransition_activity htransition (by decide))
  exact hfirst.trans (recordStatusNotice_kept hnoticed)

theorem appendTo_get {activity activity' record : Record} {name other : String}
    (h : appendTo activity name record = .ok activity') (hother : other ≠ name) :
    activity'.get other = activity.get other := by
  obtain ⟨records, -, h⟩ := bind_eq_ok.mp h
  cases h
  exact Dict.get_set_of_ne _ (Ne.symm hother) _

/-- An event of another type keeps the notices. -/
theorem recordEvent_kept {activity activity' details : Record} {eventType createdAt : String} {subject : EventSubject}
    (h : recordEvent P.toInterpreter activity eventType subject details createdAt = .ok activity')
    (htype : eventType ≠ noticeEventType) : NoticesKept P activity activity' := by
  obtain ⟨events, hevents, h⟩ := bind_eq_ok.mp h
  obtain ⟨id, -, h⟩ := bind_eq_ok.mp h
  obtain ⟨listed, hlisted, h⟩ := bind_eq_ok.mp h
  cases h
  refine noticesKept_of_others (by rw [eventsOf_set, eventsOf_of_listAt hlisted]) ?_
  intro event hevent
  rw [List.mem_singleton] at hevent
  subst hevent
  exact noticeFromEvent_other rfl htype

/-! ## Steps -/

/-- The ids of the Tasks are distinct, as the store demands of a backlog. -/
def DistinctIds (documents : Documents) : Prop :=
  ∀ tasks, listAt documents.backlog "tasks" = .ok tasks → (taskIds tasks).Nodup

/-- The Tasks advance in their places. -/
def TasksAdvance (documents after : Documents) : Prop :=
  ∀ tasks, listAt documents.backlog "tasks" = .ok tasks →
    ∃ tasks', listAt after.backlog "tasks" = .ok tasks' ∧ ListAdvances tasks tasks'

/-- A write of any other command: it may write to Tasks, add Tasks under ids of their own, and append events
that are no notices. -/
structure Elsewhere (P : Platform) (documents after : Documents) : Prop where
  tasks : TasksAdvance documents after
  distinct : DistinctIds after
  events : ∃ new, eventsOf after.activity = eventsOf documents.activity ++ new ∧
    ∀ event ∈ new, noticeFromEvent P event = .ok none

/-- A write of a service: a command that leaves a notice, with what it saved, or another one. -/
inductive Writes (P : Platform) (documents after : Documents) : Prop where
  | patch (clock : Clock) (taskId : String) (patch : Json) (origin : Option String)
      (saved : performed (patchTask P documents clock taskId patch origin) = some after)
  | status (clock : Clock) (taskId status : String) (expected : Json) (provenance : String)
      (saved : performed (setTaskStatus P documents clock taskId status expected provenance) = some after)
  | keyedStatus (clock : Clock) (taskId : String) (body : Json) (key path : String)
      (requestDigest : Option Store.Digest)
      (saved : served (setTaskStatusKeyed P documents clock taskId body key path requestDigest) = some after)
  | undo (clock : Clock) (noticeId : String) (body : Json) (key path : String) (requestDigest : Option Store.Digest)
      (saved : served (undoMutationNotice P documents clock noticeId body key path requestDigest) = some after)
  | elsewhere (other : Elsewhere P documents after)

/-- A run of writes. -/
abbrev Run (P : Platform) : Documents → Documents → Prop := Relation.ReflTransGen (Writes P)

/-- What every write keeps. -/
structure Advances (P : Platform) (documents after : Documents) : Prop where
  tasks : TasksAdvance documents after
  distinct : DistinctIds documents → DistinctIds after
  notices : NoticesKept P documents.activity after.activity

theorem Advances.trans {a b c : Documents} (hab : Advances P a b) (hbc : Advances P b c) : Advances P a c := by
  constructor
  · intro tasks htasks
    obtain ⟨middle, hmiddle, hfirst⟩ := hab.tasks tasks htasks
    obtain ⟨last, hlast, hsecond⟩ := hbc.tasks middle hmiddle
    exact ⟨last, hlast, hfirst.trans hsecond⟩
  · intro h
    exact hbc.distinct (hab.distinct h)
  · exact hab.notices.trans hbc.notices

theorem advances_refl (documents : Documents) : Advances P documents documents := by
  constructor
  · exact fun tasks htasks ↦ ⟨tasks, htasks, ListAdvances.refl tasks⟩
  · exact id
  · exact noticesKept_refl _

variable {tasks : List Json}

theorem taskIds_set {index : ℕ} {task updated : Record} (h : tasks[index]? = some (.obj task))
    (hid : updated.get "id" = task.get "id") : taskIds (tasks.set index (.obj updated)) = taskIds tasks := by
  obtain ⟨before, rest, hsplit, hset⟩ := split_of_getElem? h
  rw [hset, hsplit]
  simp only [taskIds, List.filterMap_append, List.filterMap_cons, hid]

/-- A write to one Task at most, which keeps its identity and raises its revision. -/
inductive TaskWrite (documents after : Documents) : Prop where
  | none (backlog : after.backlog = documents.backlog)
  | one {tasks : List Json} {index : ℕ} {task updated : Record}
      (replaces : Replaces documents after tasks index task updated) (revises : Revises task updated)

theorem TaskWrite.tasksAdvance (h : TaskWrite documents after) : TasksAdvance documents after := by
  intro other hother
  cases h with
  | none backlog => exact ⟨other, by rw [backlog]; exact hother, ListAdvances.refl other⟩
  | one replaces revises =>
      rw [replaces.listed] at hother
      cases hother
      exact ⟨_, replaces.tasks_after, listAdvances_set replaces.found revises⟩

theorem TaskWrite.distinctIds (h : TaskWrite documents after) (hdistinct : DistinctIds documents) :
    DistinctIds after := by
  intro other hother
  cases h with
  | none backlog =>
      rw [backlog] at hother
      exact hdistinct other hother
  | one replaces revises =>
      rw [replaces.tasks_after] at hother
      cases hother
      rw [taskIds_set replaces.found revises.id]
      exact hdistinct _ replaces.listed

/-- A command that writes to one Task and keeps the notices advances. -/
theorem TaskWrite.advances (h : TaskWrite documents after)
    (hnotices : NoticesKept P documents.activity after.activity) : Advances P documents after :=
  ⟨h.tasksAdvance, h.distinctIds, hnotices⟩

theorem patchTask_writes {taskId : String} {patch : Json} {origin : Option String}
    (h : performed (patchTask P documents clock taskId patch origin) = some after) :
    TaskWrite documents after ∧ NoticesKept P documents.activity after.activity := by
  obtain ⟨result, h⟩ := performed_eq_some h
  obtain ⟨fields, rfl, ⟨s⟩⟩ := patchTask_saved h
  refine ⟨.one s.replaces s.revises, ?_⟩
  have hlogged := recordEvent_kept s.logged_eq (by decide)
  rw [s.after_eq]
  refine NoticesKept.trans ?_ hlogged
  have hupdated := s.updated_eq
  cases hrequested : requestedChange s.requested s.status with
  | none =>
      rw [hrequested] at hupdated
      have hsame : documents.activity = s.activity := by
        simp only [patchStatus, Except.ok.injEq, Prod.mk.injEq] at hupdated
        exact hupdated.1
      rw [← hsame]
      exact noticesKept_refl _
  | some status =>
      rw [hrequested] at hupdated
      obtain ⟨key, -, hupdated⟩ := bind_eq_ok.mp hupdated
      exact changeStatus_kept hupdated

/-- What a change of a status that a status command saves came from. -/
structure ChangedStatus (P : Platform) (documents after : Documents) where
  tasks : List Json
  index : ℕ
  task : Record
  updated : Record
  activity : Record
  day : String
  current : ℤ
  next : ℤ
  provenance : String
  change : StatusChange
  factAt : String
  noticeAt : String
  replaces : Replaces documents after tasks index task (touched updated day next)
  held : revision task = .ok current
  next_eq : next = current + 1 ∧ next ≤ maxRevision
  change_eq : changeStatus P documents documents.activity task provenance change factAt noticeAt = .ok (activity, updated)
  events : after.activity.get "activity" = activity.get "activity"

theorem ChangedStatus.revises (s : ChangedStatus P documents after) : Revises s.task (touched s.updated s.day s.next) :=
  revises_changeStatus s.change_eq s.held s.next_eq

theorem ChangedStatus.writes (s : ChangedStatus P documents after) :
    TaskWrite documents after ∧ NoticesKept P documents.activity after.activity :=
  ⟨.one s.replaces s.revises, (changeStatus_kept s.change_eq).trans (noticesKept_of_get s.events)⟩

theorem setTaskStatus_changes {taskId status provenance : String} {expected : Json}
    (h : performed (setTaskStatus P documents clock taskId status expected provenance) = some after) :
    ∃ s : ChangedStatus P documents after, statusNoticeKey P s.task s.current = .ok s.change.key := by
  obtain ⟨result, h⟩ := performed_eq_some h
  unfold setTaskStatus at h
  split at h
  · cases h
  split at h
  · cases h
  obtain ⟨tasks, htasks, h⟩ := bind_eq_ok.mp h
  obtain ⟨⟨index, task⟩, hfind, h⟩ := bind_eq_ok.mp h
  obtain ⟨current, hcurrent, h⟩ := bind_eq_ok.mp h
  obtain ⟨wanted, -, h⟩ := bind_eq_ok.mp h
  split at h
  · cases h
  obtain ⟨id, -, h⟩ := bind_eq_ok.mp h
  obtain ⟨before, -, h⟩ := bind_eq_ok.mp h
  split at h
  · obtain ⟨projected, -, h⟩ := bind_eq_ok.mp h
    cases h
  obtain ⟨next, hnext, h⟩ := bind_eq_ok.mp h
  obtain ⟨key, hkey, h⟩ := bind_eq_ok.mp h
  obtain ⟨⟨activity, updated⟩, hchange, h⟩ := bind_eq_ok.mp h
  obtain ⟨projected, -, h⟩ := bind_eq_ok.mp h
  cases h
  obtain ⟨held, hheld, hadvances⟩ := nextRevision_eq_ok hnext
  cases hheld.symm.trans hcurrent
  have hreplaces : Replaces documents (withTask documents tasks index (touched updated (clock.today 0) next) activity)
      tasks index task (touched updated (clock.today 0) next) :=
    ⟨tasksOf_eq_ok htasks, (find_spec P.toInterpreter hfind).1, rfl⟩
  exact ⟨⟨tasks, index, task, updated, activity, _, current, next, _, _, _, _, hreplaces, hcurrent, hadvances, hchange, rfl⟩,
    hkey⟩

theorem setTaskStatus_writes {taskId status provenance : String} {expected : Json}
    (h : performed (setTaskStatus P documents clock taskId status expected provenance) = some after) :
    TaskWrite documents after ∧ NoticesKept P documents.activity after.activity := by
  obtain ⟨s, -⟩ := setTaskStatus_changes h
  exact s.writes

/-- The ledger of keyed requests is apart from the events. -/
theorem recordIdempotency_kept {activity activity' : Record} {intent : Intent} {status : ℤ} {createdAt : String}
    {response : StoredResponse} (h : recordIdempotency activity intent status createdAt response = .ok activity') :
    NoticesKept P activity activity' :=
  noticesKept_of_get (appendTo_get h (by decide))

theorem setTaskStatusKeyed_changes {taskId key path : String} {body : Json} {requestDigest : Option Store.Digest}
    (h : served (setTaskStatusKeyed P documents clock taskId body key path requestDigest) = some after) :
    after.backlog = documents.backlog ∧ after.activity.get "activity" = documents.activity.get "activity" ∨
      ∃ s : ChangedStatus P documents after, s.change.key = key := by
  obtain ⟨response, h⟩ := served_eq_some h
  obtain ⟨⟨status, expected⟩, -, h⟩ := bind_eq_ok.mp h
  obtain ⟨digest, -, h⟩ := bind_eq_ok.mp h
  have hwork := keyed_saved h
  clear h
  obtain ⟨tasks, htasks, hwork⟩ := bind_eq_ok.mp hwork
  obtain ⟨⟨index, task⟩, hfind, hwork⟩ := bind_eq_ok.mp hwork
  obtain ⟨current, hcurrent, hwork⟩ := bind_eq_ok.mp hwork
  split at hwork
  · cases hwork
  obtain ⟨id, -, hwork⟩ := bind_eq_ok.mp hwork
  obtain ⟨before, -, hwork⟩ := bind_eq_ok.mp hwork
  split at hwork
  · obtain ⟨projected, -, hwork⟩ := bind_eq_ok.mp hwork
    obtain ⟨activity, hactivity, hwork⟩ := bind_eq_ok.mp hwork
    cases hwork
    exact .inl ⟨rfl, appendTo_get hactivity (by decide)⟩
  obtain ⟨next, hnext, hwork⟩ := bind_eq_ok.mp hwork
  obtain ⟨⟨activity, updated⟩, hchange, hwork⟩ := bind_eq_ok.mp hwork
  obtain ⟨projected, -, hwork⟩ := bind_eq_ok.mp hwork
  obtain ⟨logged, hlogged, hwork⟩ := bind_eq_ok.mp hwork
  cases hwork
  obtain ⟨held, hheld, hadvances⟩ := nextRevision_eq_ok hnext
  have hreplaces : Replaces documents (withTask documents tasks index (touched updated (clock.today 0) next) logged)
      tasks index task (touched updated (clock.today 0) next) :=
    ⟨tasksOf_eq_ok htasks, (find_spec P.toInterpreter hfind).1, rfl⟩
  exact .inr ⟨⟨tasks, index, task, updated, activity, _, held, next, _, _, _, _, hreplaces, hheld, hadvances, hchange,
    appendTo_get hlogged (by decide)⟩, rfl⟩

theorem setTaskStatusKeyed_writes {taskId key path : String} {body : Json} {requestDigest : Option Store.Digest}
    (h : served (setTaskStatusKeyed P documents clock taskId body key path requestDigest) = some after) :
    TaskWrite documents after ∧ NoticesKept P documents.activity after.activity := by
  rcases setTaskStatusKeyed_changes h with ⟨hbacklog, hevents⟩ | ⟨s, -⟩
  · exact ⟨.none hbacklog, noticesKept_of_get hevents⟩
  · exact s.writes

/-! ## Commands that change no status -/

/-- The numbers of a roster are those of its ids. -/
theorem displayNumber_mem {seen numbers : List ℕ} {ids : List Json} (h : rosterNumbers seen ids = .ok numbers) :
    (∀ n ∈ seen, n ∈ numbers) ∧ ∀ id ∈ ids, ∃ n ∈ numbers, displayNumber id = .ok n := by
  induction ids generalizing seen with
  | nil =>
      cases h
      exact ⟨fun n hn ↦ List.mem_reverse.mpr hn, fun id hid ↦ absurd hid List.not_mem_nil⟩
  | cons id ids ih =>
      obtain ⟨n, hn, hrest⟩ := bind_eq_ok.mp h
      clear h
      split at hrest
      · cases hrest
      · obtain ⟨hseen, hids⟩ := ih hrest
        refine ⟨fun m hm ↦ hseen m (List.mem_cons_of_mem _ hm), ?_⟩
        rw [List.forall_mem_cons]
        exact ⟨⟨n, hseen n (List.mem_cons_self ..), hn⟩, hids⟩

theorem displayNumber_formatDisplayId {n : ℕ} (hmax : n ≤ maxSafeInteger) :
    displayNumber (.str (formatDisplayId n)) = .ok n := by
  unfold displayNumber formatDisplayId
  simp only [String.toList_ofList]
  rw [if_pos (le_length_zeroPadded 4 n), number_zeroPadded asciiDigit_readsAscii]
  exact if_pos hmax

theorem le_foldl_max {numbers : List ℕ} {start n : ℕ} (h : n ≤ start ∨ n ∈ numbers) : n ≤ numbers.foldl max start := by
  induction numbers generalizing start with
  | nil => simpa using h
  | cons m numbers ih =>
      apply ih
      rcases h with h | h
      · exact .inl (h.trans (le_max_left _ _))
      · rcases List.mem_cons.mp h with rfl | h
        · exact .inl (le_max_right _ _)
        · exact .inr h

theorem mem_taskIdsFromRecords {tasks ids : List Json} (h : taskIdsFromRecords tasks = .ok ids) {id : String}
    (hmem : id ∈ taskIds tasks) : .str id ∈ ids := by
  induction tasks generalizing ids with
  | nil => exact absurd hmem List.not_mem_nil
  | cons item tasks ih =>
      obtain ⟨record, hrecord, hids⟩ := bind_eq_ok.mp h
      clear h
      rw [asRecord_eq_ok] at hrecord
      subst hrecord
      obtain ⟨rest, hrest, hids⟩ := bind_eq_ok.mp hids
      rw [← Except.ok.inj hids, List.mem_cons]
      unfold taskIds at hmem
      rw [List.filterMap_cons] at hmem
      split at hmem
      · exact .inr (ih hrest hmem)
      · next own hown =>
          rcases List.mem_cons.mp hmem with rfl | hmem
          · left
            dsimp only at hown
            split at hown
            · next hid =>
                cases hown
                exact (valueAt_of_get hid).symm
            · cases hown
          · exact .inr (ih hrest hmem)

/-- An admitted high water is the one that is stored, if there is one, and no Task is above it. -/
theorem admittedHighWater_eq_ok {stored : Option ℕ} {ids : List Json} {current : ℕ}
    (h : admittedHighWater stored ids = .ok current) :
    (∀ held, stored = some held → current = held) ∧ ∀ id ∈ ids, ∀ n, displayNumber id = .ok n → n ≤ current := by
  obtain ⟨live, hlive, h⟩ := bind_eq_ok.mp h
  have hle : live ≤ current ∧ ∀ held, stored = some held → current = held := by
    split at h
    · cases h
      simp
    · split at h
      · cases h
      · cases h
        exact ⟨by omega, fun held hheld ↦ Option.some.inj hheld⟩
  refine ⟨hle.2, fun id hid n hn ↦ ?_⟩
  obtain ⟨numbers, hnumbers, hlive⟩ := bind_eq_ok.mp hlive
  cases hlive
  obtain ⟨m, hm, hnumber⟩ := (displayNumber_mem hnumbers).2 id hid
  rw [hn, Except.ok.injEq] at hnumber
  have hmax : m ≤ numbers.foldl max 0 := le_foldl_max (.inr hm)
  omega

/-- The next id is one above the high water, which it raises. -/
theorem nextTaskDisplay_eq_ok {workspace workspace' : Record} {id : String}
    (h : nextTaskDisplay workspace tasks = .ok (id, workspace')) :
    ∃ stored ids current, readOptionalHighWater workspace = .ok stored ∧ taskIdsFromRecords tasks = .ok ids ∧
      admittedHighWater stored ids = .ok current ∧ current + 1 ≤ maxSafeInteger ∧
      id = formatDisplayId (current + 1) ∧ workspace' = persistHighWater workspace (current + 1) := by
  obtain ⟨stored, hstored, h⟩ := bind_eq_ok.mp h
  obtain ⟨ids, hids, h⟩ := bind_eq_ok.mp h
  obtain ⟨⟨allocated, highWater⟩, hallocated, h⟩ := bind_eq_ok.mp h
  cases h
  obtain ⟨current, hcurrent, hallocated⟩ := bind_eq_ok.mp hallocated
  split at hallocated
  · cases hallocated
  next hbound =>
  cases hallocated
  exact ⟨stored, ids, current, hstored, hids, hcurrent, by omega, rfl, rfl⟩

/-- The id of a new Task is its own. -/
theorem nextTaskDisplay_new {workspace workspace' : Record} {id : String}
    (h : nextTaskDisplay workspace tasks = .ok (id, workspace')) : id ∉ taskIds tasks := by
  intro hmem
  obtain ⟨stored, ids, current, -, hids, hcurrent, hbound, rfl, -⟩ := nextTaskDisplay_eq_ok h
  have hle := (admittedHighWater_eq_ok hcurrent).2 _ (mem_taskIdsFromRecords hids hmem) _
    (displayNumber_formatDisplayId hbound)
  omega

/-- A Task that is added under an id of its own. -/
theorem withNewTask_elsewhere {task activity workspace : Record} {id : String}
    (hlisted : listAt documents.backlog "tasks" = .ok tasks) (hid : task.get "id" = some (.str id))
    (hnew : id ∉ taskIds tasks) (hactivity : activity.get "activity" = documents.activity.get "activity")
    (hdistinct : DistinctIds documents) :
    Elsewhere P documents (withNewTask documents tasks task activity workspace) := by
  have hafter : listAt (withNewTask documents tasks task activity workspace).backlog "tasks" =
      .ok (tasks ++ [.obj task]) := listAt_set _ _ _
  refine ⟨?_, ?_, [], ?_, fun event hevent ↦ absurd hevent List.not_mem_nil⟩
  · intro other hother
    rw [hlisted] at hother
    cases hother
    exact ⟨_, hafter, listAdvances_append tasks _⟩
  · intro other hother
    rw [hafter] at hother
    cases hother
    have htaskIds : taskIds (tasks ++ [.obj task]) = taskIds tasks ++ [id] := by
      simp [taskIds, hid]
    rw [htaskIds, List.nodup_append]
    refine ⟨hdistinct tasks hlisted, List.nodup_singleton id, ?_⟩
    intro other hother same hsame hequal
    rw [List.mem_singleton] at hsame
    rw [hequal, hsame] at hother
    exact hnew hother
  · rw [List.append_nil, eventsOf, eventsOf, withNewTask, hactivity]

/-- A Task that is appended has the next id, and the relationships that were asked for. -/
theorem appendTask_eq_ok {task : NewTask} {record workspace : Record}
    (h : appendTask P documents clock tasks task = .ok (record, workspace)) :
    ∃ id parent dependencies, nextTaskDisplay documents.workspace tasks = .ok (id, workspace) ∧
      normalizeNewTaskRelationships P tasks task.parentId task.dependencies = .ok (parent, dependencies) ∧
      record.get "id" = some (.str id) ∧ record.get "parent_id" = some (parentJson parent) ∧
      record.get "dependencies" = some (textsJson dependencies) := by
  obtain ⟨⟨⟩, -, h⟩ := bind_eq_ok.mp h
  obtain ⟨⟨parent, dependencies⟩, hrelationships, h⟩ := bind_eq_ok.mp h
  obtain ⟨⟨id, given⟩, hid, h⟩ := bind_eq_ok.mp h
  obtain ⟨workspaceId, -, h⟩ := bind_eq_ok.mp h
  obtain ⟨created, hcreated, h⟩ := bind_eq_ok.mp h
  obtain ⟨objectives, -, h⟩ := bind_eq_ok.mp h
  obtain ⟨known, -, h⟩ := bind_eq_ok.mp h
  dsimp only at h
  split at h
  · cases h
  cases h
  obtain ⟨uid, -, hcreated⟩ := bind_eq_ok.mp hcreated
  obtain ⟨title, -, hcreated⟩ := bind_eq_ok.mp hcreated
  cases hcreated
  exact ⟨id, parent, dependencies, hid, hrelationships, rfl, rfl, rfl⟩

theorem appendBootstrap_get {createdAt actor provenance : String}
    (h : appendBootstrap activity task createdAt actor provenance = .ok (activity', updated)) :
    activity'.get "activity" = activity.get "activity" ∧
      ∀ name, name ≠ "status_fact_id" → updated.get name = task.get name := by
  obtain ⟨facts, -, h⟩ := bind_eq_ok.mp h
  obtain ⟨revision, -, h⟩ := bind_eq_ok.mp h
  obtain ⟨status, -, h⟩ := bind_eq_ok.mp h
  obtain ⟨fact, -, h⟩ := bind_eq_ok.mp h
  obtain ⟨id, -, h⟩ := bind_eq_ok.mp h
  cases h
  exact ⟨Dict.get_set_of_ne _ (by decide) _, fun name hname ↦ Dict.get_set_of_ne _ (Ne.symm hname) _⟩

/-- What a new Task that a command saves came from. -/
structure SavedTask (P : Platform) (documents after : Documents) where
  clock : Clock
  task : NewTask
  tasks : List Json
  record : Record
  workspace : Record
  activity : Record
  created : Record
  listed : listAt documents.backlog "tasks" = .ok tasks
  appended : appendTask P documents clock tasks task = .ok (record, workspace)
  kept : ∀ name, name ≠ "status_fact_id" → created.get name = record.get name
  events : activity.get "activity" = documents.activity.get "activity"
  after_eq : after = withNewTask documents tasks created activity workspace

theorem SavedTask.tasks_after (s : SavedTask P documents after) :
    listAt after.backlog "tasks" = .ok (s.tasks ++ [.obj s.created]) :=
  (congrArg (fun documents ↦ listAt documents.backlog "tasks") s.after_eq).trans (listAt_set _ _ _)

theorem addTask_saved {task : NewTask} (h : performed (addTask P documents clock task) = some after) :
    Nonempty (SavedTask P documents after) := by
  obtain ⟨result, h⟩ := performed_eq_some h
  obtain ⟨tasks, htasks, h⟩ := bind_eq_ok.mp h
  obtain ⟨⟨record, workspace⟩, hrecord, h⟩ := bind_eq_ok.mp h
  obtain ⟨⟨activity, created⟩, hactivity, h⟩ := bind_eq_ok.mp h
  cases h
  obtain ⟨hevents, hkept⟩ := appendBootstrap_get hactivity
  exact ⟨⟨clock, _, tasks, record, workspace, activity, created, tasksOf_eq_ok htasks, hrecord, hkept, hevents, rfl⟩⟩

theorem createTask_saved {body : Json} {key path : String}
    (h : served (createTask P documents clock body key path) = some after) : Nonempty (SavedTask P documents after) := by
  obtain ⟨response, h⟩ := served_eq_some h
  obtain ⟨⟨⟩, -, h⟩ := bind_eq_ok.mp h
  obtain ⟨canonical, -, h⟩ := bind_eq_ok.mp h
  have hwork := keyed_saved h
  clear h
  obtain ⟨tasks, htasks, hwork⟩ := bind_eq_ok.mp hwork
  obtain ⟨⟨record, workspace⟩, hrecord, hwork⟩ := bind_eq_ok.mp hwork
  obtain ⟨⟨activity, created⟩, hactivity, hwork⟩ := bind_eq_ok.mp hwork
  obtain ⟨data, -, hwork⟩ := bind_eq_ok.mp hwork
  obtain ⟨logged, hlogged, hwork⟩ := bind_eq_ok.mp hwork
  cases hwork
  obtain ⟨hevents, hkept⟩ := appendBootstrap_get hactivity
  have hsame := (appendTo_get hlogged (by decide)).trans hevents
  exact ⟨⟨clock, _, tasks, record, workspace, logged, created, tasksOf_eq_ok htasks, hrecord, hkept, hsame, rfl⟩⟩

/-- A command that adds a Task is a write of this kind. -/
theorem SavedTask.elsewhere (s : SavedTask P documents after) (hdistinct : DistinctIds documents) :
    Elsewhere P documents after := by
  obtain ⟨id, parent, dependencies, hnext, -, hid, -⟩ := appendTask_eq_ok s.appended
  rw [s.after_eq]
  exact withNewTask_elsewhere s.listed ((s.kept "id" (by decide)).trans hid) (nextTaskDisplay_new hnext) s.events
    hdistinct

end WorkStack.Service
