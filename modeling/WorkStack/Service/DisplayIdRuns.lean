import WorkStack.Service.NoticeRuns

/-!
# Numbers of Tasks over runs

A new Task takes the number above the high water of the workspace, and a deletion writes the high water down
before its Task is gone. So the high water that the documents admit never falls, and a number that a Task ever
had is below every number that is given later.
-/

namespace WorkStack.Service

open Effect.Outcome Python

variable {P : Platform} {documents after : Documents}

/-- The ids of the Tasks there are. -/
def rosterOf (documents : Documents) : Checked (List Json) := do
  let tasks ← listAt documents.backlog "tasks"
  taskIdsFromRecords tasks

/-- The high water that the documents admit. -/
def highWaterOf (documents : Documents) : Checked ℕ := do
  let stored ← readOptionalHighWater documents.workspace
  let ids ← rosterOf documents
  admittedHighWater stored ids

/-- `preserve_high_water`: the workspace of a deletion that was applied, at the high water from before it. -/
def preserveHighWater (original applied : Documents) : Checked Record := do
  let water ← highWaterOf original
  pure (persistHighWater applied.workspace water)

/-- The id of the Task that was added last. -/
def newestId (documents : Documents) : Option String := do
  let tasks ← (listAt documents.backlog "tasks").toOption
  (taskIds tasks).getLast?

/-- A run of saves, with the ids that were given to new Tasks, the latest first. A deletion may do anything to the
Tasks, and the other commands leave the ids and the high water alone. -/
inductive RosterRun (P : Platform) (start : Documents) : List String → Documents → Prop where
  | start : RosterRun P start [] start
  | adds {given : List String} {documents after : Documents} {id : String} (run : RosterRun P start given documents)
      (saved : (∃ clock task, performed (addTask P documents clock task) = some after) ∨
        ∃ clock body key path, served (createTask P documents clock body key path) = some after)
      (newest : newestId after = some id) : RosterRun P start (id :: given) after
  | deletes {given : List String} {documents applied after : Documents} (run : RosterRun P start given documents)
      (preserved : preserveHighWater documents applied = .ok after.workspace) : RosterRun P start given after
  | elsewhere {given : List String} {documents after : Documents} (run : RosterRun P start given documents)
      (water : after.workspace.get highWaterField = documents.workspace.get highWaterField)
      (ids : rosterOf after = rosterOf documents) : RosterRun P start given after

/-- Whatever high water the documents admit is not below a number. -/
def Covers (documents : Documents) (n : ℕ) : Prop := ∀ water, highWaterOf documents = .ok water → n ≤ water

/-- A high water that is written down is the one that is admitted next. -/
theorem covers_persisted {workspace : Record} {n : ℕ} (h : after.workspace = persistHighWater workspace n) :
    Covers after n := by
  intro water hwater
  obtain ⟨stored, hstored, hwater⟩ := bind_eq_ok.mp hwater
  obtain ⟨ids, -, hadmitted⟩ := bind_eq_ok.mp hwater
  rw [h, readOptionalHighWater, persistHighWater, Dict.get_set_self] at hstored
  dsimp only at hstored
  split at hstored
  · cases hstored
    exact ((admittedHighWater_eq_ok hadmitted).1 _ rfl).ge
  · cases hstored

/-- The number of a Task there is is covered. -/
theorem covers_listed {tasks : List Json} {id : String} {n : ℕ} (htasks : listAt documents.backlog "tasks" = .ok tasks)
    (hid : id ∈ taskIds tasks) (hn : displayNumber (.str id) = .ok n) : Covers documents n := by
  intro water hwater
  obtain ⟨stored, -, hwater⟩ := bind_eq_ok.mp hwater
  obtain ⟨ids, hroster, hadmitted⟩ := bind_eq_ok.mp hwater
  obtain ⟨listed, hlisted, hids⟩ := bind_eq_ok.mp hroster
  cases htasks.symm.trans hlisted
  exact (admittedHighWater_eq_ok hadmitted).2 _ (mem_taskIdsFromRecords hids hid) n hn

/-- A new Task has a number above every number that was covered, and it is covered from then on. -/
theorem SavedTask.covers (s : SavedTask P documents after) {id : String} (hid : newestId after = some id) :
    ∃ n, displayNumber (.str id) = .ok n ∧ Covers after n ∧ ∀ m, Covers documents m → m < n := by
  obtain ⟨given, parent, dependencies, hnext, -, hgiven, -⟩ := appendTask_eq_ok s.appended
  obtain ⟨stored, ids, current, hstored, hids, hadmitted, hbound, rfl, hworkspace⟩ := nextTaskDisplay_eq_ok hnext
  have hwater : highWaterOf documents = .ok current :=
    bind_eq_ok.mpr ⟨stored, hstored, bind_eq_ok.mpr ⟨ids, bind_eq_ok.mpr ⟨s.tasks, s.listed, hids⟩, hadmitted⟩⟩
  have hcreated : s.created.get "id" = some (.str (formatDisplayId (current + 1))) :=
    (s.kept "id" (by decide)).trans hgiven
  have hnewest : newestId after = some (formatDisplayId (current + 1)) := by
    simp [newestId, s.tasks_after, Except.toOption, taskIds, hcreated]
  cases hid.symm.trans hnewest
  have hpersisted : after.workspace = persistHighWater documents.workspace (current + 1) :=
    (congrArg Documents.workspace s.after_eq).trans hworkspace
  exact ⟨current + 1, displayNumber_formatDisplayId hbound, covers_persisted hpersisted,
    fun m hm ↦ Nat.lt_succ_of_le (hm current hwater)⟩

/-- One id has a smaller number than another. -/
def Below (earlier later : String) : Prop :=
  ∃ m n, displayNumber (.str earlier) = .ok m ∧ displayNumber (.str later) = .ok n ∧ m < n

/-- What a run keeps: what was covered stays covered, and the numbers that were given rise above it. -/
structure Rising (start : Documents) (given : List String) (documents : Documents) : Prop where
  covers : ∀ m, Covers start m → Covers documents m
  numbers : ∀ id ∈ given, ∃ n, displayNumber (.str id) = .ok n ∧ Covers documents n ∧ ∀ m, Covers start m → m < n
  pairwise : given.Pairwise fun later earlier ↦ Below earlier later

theorem Rising.keeps {start : Documents} {given : List String} (h : Rising start given documents)
    (hkeeps : ∀ m, Covers documents m → Covers after m) : Rising start given after := by
  refine ⟨fun m hm ↦ hkeeps m (h.covers m hm), fun id hid ↦ ?_, h.pairwise⟩
  obtain ⟨n, hn, hcovers, habove⟩ := h.numbers id hid
  exact ⟨n, hn, hkeeps n hcovers, habove⟩

theorem Rising.adds {start : Documents} {given : List String} (h : Rising start given documents)
    (s : SavedTask P documents after) {id : String} (hid : newestId after = some id) :
    Rising start (id :: given) after := by
  obtain ⟨n, hn, hcovers, habove⟩ := s.covers hid
  have hkept := h.keeps fun m hm water hwater ↦ ((habove m hm).le.trans (hcovers water hwater))
  refine ⟨hkept.covers, ?_, List.pairwise_cons.mpr ⟨fun earlier hearlier ↦ ?_, h.pairwise⟩⟩
  · rw [List.forall_mem_cons]
    exact ⟨⟨n, hn, hcovers, fun m hm ↦ habove m (h.covers m hm)⟩, hkept.numbers⟩
  · obtain ⟨m, hm, hcovered, -⟩ := h.numbers earlier hearlier
    exact ⟨m, n, hm, hn, habove m hcovered⟩

theorem RosterRun.rising {start : Documents} {given : List String} (h : RosterRun P start given documents) :
    Rising start given documents := by
  induction h with
  | start => exact ⟨fun _ hm ↦ hm, fun id hid ↦ absurd hid List.not_mem_nil, .nil⟩
  | adds run saved newest ih =>
      rcases saved with ⟨clock, task, hsaved⟩ | ⟨clock, body, key, path, hsaved⟩
      · obtain ⟨s⟩ := addTask_saved hsaved
        exact ih.adds s newest
      · obtain ⟨s⟩ := createTask_saved hsaved
        exact ih.adds s newest
  | deletes run preserved ih =>
      obtain ⟨water, hwater, hpersisted⟩ := bind_eq_ok.mp preserved
      have hcovers := covers_persisted (Except.ok.inj hpersisted).symm
      exact ih.keeps fun m hm admitted hadmitted ↦ (hm water hwater).trans (hcovers admitted hadmitted)
  | @elsewhere given documents after run water ids ih =>
      have hsame : highWaterOf after = highWaterOf documents := by
        unfold highWaterOf readOptionalHighWater
        rw [water, ids]
      exact ih.keeps fun m hm admitted hadmitted ↦ hm admitted (hsame ▸ hadmitted)

/-- Over every run of new Tasks, deletions and other saves, each new Task has a larger number than all that were
given in the run before it, and a larger one than every Task there was at the start. As a run can be looked at
from any of its states, no number comes back after its Task was deleted. -/
theorem numbers_never_return {start : Documents} {given : List String} (h : RosterRun P start given documents) :
    given.Pairwise (fun later earlier ↦ Below earlier later) ∧
      ∀ tasks, listAt start.backlog "tasks" = .ok tasks → ∀ held ∈ taskIds tasks, ∀ m,
        displayNumber (.str held) = .ok m → ∀ id ∈ given, Below held id := by
  refine ⟨h.rising.pairwise, fun tasks htasks held hheld m hm id hid ↦ ?_⟩
  obtain ⟨n, hn, -, habove⟩ := h.rising.numbers id hid
  exact ⟨m, n, hm, hn, habove m (covers_listed htasks hheld hm)⟩

/-- The documents after a Task was added to them. -/
def addedTo (documents : Documents) : Documents :=
  (performed (addTask (asciiPlatform [] []) documents (sampleClock (sampleMoment 20)) { title := "Next" })).getD documents

theorem addedTo_saved (h : (performed (addTask (asciiPlatform [] []) documents (sampleClock (sampleMoment 20))
    { title := "Next" })).isSome = true) : ∃ clock task,
      performed (addTask (asciiPlatform [] []) documents clock task) = some (addedTo documents) := by
  obtain ⟨after, hafter⟩ := Option.isSome_iff_exists.mp h
  refine ⟨_, _, hafter.trans ?_⟩
  rw [addedTo, hafter, Option.getD_some]

/-- The sample after its second Task was deleted. -/
def deletedAgain : Documents := { sampleDocuments with workspace := persistHighWater sampleDocuments.workspace 2 }

/-- The number of a Task that was deleted is not given again. -/
theorem sampleDocuments_numbers : ["T-0003", "T-0002"].Pairwise (fun later earlier ↦ Below earlier later) ∧
    ∀ tasks, listAt sampleDocuments.backlog "tasks" = .ok tasks → ∀ held ∈ taskIds tasks, ∀ m,
      displayNumber (.str held) = .ok m → ∀ id ∈ ["T-0003", "T-0002"], Below held id := by
  have first : RosterRun (asciiPlatform [] []) sampleDocuments ["T-0002"] (addedTo sampleDocuments) :=
    .adds .start (.inl (addedTo_saved (by decide +kernel))) (by decide +kernel)
  have preserved : preserveHighWater (addedTo sampleDocuments) sampleDocuments = .ok deletedAgain.workspace := by
    rfl
  have second : RosterRun (asciiPlatform [] []) sampleDocuments ["T-0002"] deletedAgain := .deletes first preserved
  exact numbers_never_return (.adds second (.inl (addedTo_saved (by decide +kernel))) (by decide +kernel))

end WorkStack.Service
