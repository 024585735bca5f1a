import WorkStack.Python.Calendar
import WorkStack.Views.WorkspaceTasks

/-!
# Filters of Tasks

A view filters the Tasks by their fields, by the Tasks they wait for, by when they are due and by a search. The timing
filters compare days of the calendar, and end in an error where the day they are asked about is none, or is so late that
the week behind it has no end.
-/

open WorkStack.Python

namespace WorkStack.Views

/-! ## Days -/

/-- `FocusModelErrorCode`, as far as filters meet it. -/
inductive FocusCode where
  | invalidToday
  | invalidCalendarDate
  deriving DecidableEq, Repr

/-- `CivilDate` -/
@[ext]
structure CivilDate where
  year : ℕ
  month : ℕ
  day : ℕ
  isDate : IsDate year month day

instance : DecidableEq CivilDate := fun left right ↦
  decidable_of_iff (left.year = right.year ∧ left.month = right.month ∧ left.day = right.day) CivilDate.ext_iff.symm

/-- `iso` -/
def CivilDate.iso (date : CivilDate) : String := String.ofList (Moment.dateText date.year date.month date.day)

/-- `ordinal`, counted from the first of January of the year 1; only differences are used. -/
def CivilDate.ordinal (date : CivilDate) : ℕ :=
  let before := date.year - 1
  let months := (List.range (date.month - 1)).map fun index ↦ daysInMonth date.year (index + 1)
  before * 365 + before / 4 - before / 100 + before / 400 + months.sum + date.day

/-- `parseCanonicalCivilDate` -/
def parseCanonicalCivilDate (value : String) : Option CivilDate :=
  match field value.toList 0 4, field value.toList 5 2, field value.toList 8 2 with
  | some year, some month, some day =>
      if h : IsDate year month day then
        if value.toList = Moment.dateText year month day then some ⟨year, month, day, h⟩ else none
      else none
  | _, _, _ => none

/-- `requireCivilDate` -/
def requireCivilDate (value : String) : Except FocusCode CivilDate :=
  (parseCanonicalCivilDate value).elim (.error .invalidCalendarDate) .ok

/-- `formatCivilDate` -/
def formatCivilDate (year month day : ℕ) : Except FocusCode String :=
  if year < 1 ∨ 9999 < year then .error .invalidCalendarDate
  else .ok (String.ofList (Moment.dateText year month day))

/-- The day after a day. -/
def nextDay : ℕ × ℕ × ℕ → ℕ × ℕ × ℕ
  | (year, month, day) =>
      if day < daysInMonth year month then (year, month, day + 1)
      else if month < 12 then (year, month + 1, 1)
      else (year + 1, 1, 1)

/-- `addCalendarDays` of days to come. -/
def addCalendarDays (value : String) (days : ℕ) : Except FocusCode String := do
  let parsed ← requireCivilDate value
  let (year, month, day) := nextDay^[days] (parsed.year, parsed.month, parsed.day)
  formatCivilDate year month day

/-- The kinds of `FocusReason` that a due date has. -/
inductive DueKind where
  | invalidDue
  | overdue
  | dueToday
  | dueSoon
  deriving DecidableEq, Repr

def DueKind.name : DueKind → String
  | .invalidDue => "invalid_due"
  | .overdue => "overdue"
  | .dueToday => "due_today"
  | .dueSoon => "due_soon"

/-- `dueReasonFromDates`, by its kind. -/
def dueReasonFromDates (dueValue : Option String) (today dueSoonEnd : CivilDate) : Option DueKind :=
  match dueValue with
  | none => none
  | some dueValue =>
      match parseCanonicalCivilDate dueValue with
      | none => some .invalidDue
      | some due =>
          if due.ordinal < today.ordinal then some .overdue
          else if due.ordinal = today.ordinal then some .dueToday
          else if due.ordinal ≤ dueSoonEnd.ordinal then some .dueSoon
          else none

/-- The day that due dates are compared with, and the end of the week behind it. -/
def dueWindow (todayValue : String) : Except FocusCode (CivilDate × CivilDate) := do
  let today ← (parseCanonicalCivilDate todayValue).elim (.error .invalidToday) .ok
  let boundary ← addCalendarDays today.iso 7
  let dueSoonEnd ← requireCivilDate boundary
  pure (today, dueSoonEnd)

/-- `dueReasonForDate`, by its kind. -/
def dueReasonForDate (dueValue : Option String) (todayValue : String) : Except FocusCode (Option DueKind) := do
  let (today, dueSoonEnd) ← dueWindow todayValue
  pure (dueReasonFromDates dueValue today dueSoonEnd)

/-! ## Filters -/

/-- `OutcomeFilter` -/
inductive OutcomeFilter where
  | all
  | unassigned
  | pair (objectiveId keyResultId : String)
  deriving DecidableEq, Repr

/-- `normalizeOutcomeFilter` -/
def normalizeOutcomeFilter : OutcomeFilter → OutcomeFilter
  | .all => .all
  | .unassigned => .unassigned
  | .pair objectiveId keyResultId =>
      if trim objectiveId = "" ∨ trim keyResultId = "" then .all else .pair objectiveId keyResultId

/-- `matchesOutcomeFilter` -/
def matchesOutcomeFilter (task : WorkspaceTask) : OutcomeFilter → Bool
  | .all => true
  | .unassigned => task.keyResultRefs.isEmpty
  | .pair objectiveId keyResultId => task.keyResultRefs.any fun ref ↦
      ref.objectiveId == objectiveId && ref.keyResultId == keyResultId

/-- `WorkspaceFilters` -/
structure Filters where
  search : Option String := none
  status : Option String := none
  priority : Option String := none
  objectiveId : Option String := none
  readiness : Option String := none
  timing : Option String := none
  outcome : Option OutcomeFilter := none
  today : Option String := none
  deriving DecidableEq, Repr

/-- `value || fallback` -/
def orElse (value : Option String) (fallback : String) : String := (value.filter (· ≠ "")).getD fallback

/-- `normalizedFilter` -/
def normalizedFilter (value : Option String) : String := trim (orElse value "all")

/-- Whether `blockingDependenciesFromIndex` finds a Task that is not done. -/
def isBlocked (tasks : List WorkspaceTask) (task : WorkspaceTask) : Bool :=
  task.dependencies.any fun dependencyId ↦ (byId tasks dependencyId).bind WorkspaceTask.status ≠ some "done"

def isUnderway (task : WorkspaceTask) : Bool := ["open", "started"].contains (asTaskStatus task.status)

/-- The part of a filter that reads the fields of a Task. -/
def matchesFields (tasks : List WorkspaceTask) (filters : Filters) (task : WorkspaceTask) : Bool :=
  let status := normalizedFilter filters.status
  let priority := normalizedFilter filters.priority
  let objectiveId := normalizedFilter filters.objectiveId
  let readiness := normalizedFilter filters.readiness
  (status == "all" || asTaskStatus task.status == status) &&
    (priority == "all" || asTaskPriority task.priority == priority) &&
    (objectiveId == "all" || task.objectiveIds.contains objectiveId) &&
    matchesOutcomeFilter task (normalizeOutcomeFilter (filters.outcome.getD .all)) &&
    (readiness == "all" || isUnderway task && !(readiness == "blocked" && !isBlocked tasks task) &&
      !(readiness == "ready" && isBlocked tasks task))

/-- The kind of reason that a timing filter asks for. -/
def expectedKind (timing : String) : String :=
  if timing = "today" then "due_today" else if timing = "soon" then "due_soon" else timing

/-- The part of a filter that compares due dates. -/
def matchesTiming (filters : Filters) (task : WorkspaceTask) : Except FocusCode Bool :=
  let timing := normalizedFilter filters.timing
  if timing = "all" then .ok true
  else if !isUnderway task then .ok false
  else if timing = "unscheduled" then .ok (orElse task.due "" == "")
  else if orElse filters.today "" = "" then .ok false
  else do
    let dueReason ← dueReasonForDate task.due (orElse filters.today "")
    pure (dueReason.map DueKind.name == some (expectedKind timing))

section Searching

-- `toLocaleLowerCase` of the locale
variable (lower : String → String)

/-- The part of a filter that searches the texts of a Task. -/
def matchesSearch (filters : Filters) (task : WorkspaceTask) : Bool :=
  let query := lower (trim (orElse filters.search ""))
  let searchable := lower (" ".intercalate ([task.id, task.title, task.detail.getD ""] ++ task.tags ++ task.objectiveIds))
  decide (query = "") || decide (query.toList <:+: searchable.toList)

/-- The predicate of `filterWorkspaceTasks`. -/
def matchesFilters (tasks : List WorkspaceTask) (filters : Filters) (task : WorkspaceTask) : Except FocusCode Bool :=
  if matchesFields tasks filters task then do
    let timed ← matchesTiming filters task
    pure (timed && matchesSearch lower filters task)
  else .ok false

/-- The Tasks that a predicate keeps, unless it ends in an error. -/
def keepTasks (keeps : WorkspaceTask → Except FocusCode Bool) :
    List WorkspaceTask → Except FocusCode (List WorkspaceTask)
  | [] => .ok []
  | task :: tasks => do
      let kept ← keeps task
      let others ← keepTasks keeps tasks
      pure (if kept then task :: others else others)

/-- `filterWorkspaceTasks` -/
def filterWorkspaceTasks (tasks : List WorkspaceTask) (filters : Filters) : Except FocusCode (List WorkspaceTask) :=
  keepTasks (matchesFilters lower tasks filters) tasks

end Searching

/-! ## What a filter returns -/

/-- The timing of a filter needs no day, or it has one with a week behind it. -/
def Filters.ReadsDates (filters : Filters) : Prop :=
  normalizedFilter filters.timing = "all" ∨ normalizedFilter filters.timing = "unscheduled" ∨
    orElse filters.today "" = "" ∨ (dueWindow (orElse filters.today "")).isOk = true

/-- A filter without errors is a filter of the list. -/
theorem keepTasks_eq_ok {keeps : WorkspaceTask → Except FocusCode Bool} {tasks kept : List WorkspaceTask}
    (h : keepTasks keeps tasks = .ok kept) : kept = tasks.filter fun task ↦ (keeps task).toOption.getD false := by
  induction tasks generalizing kept with
  | nil =>
      cases h
      rfl
  | cons task tasks ih =>
      cases hkeeps : keeps task with
      | error code =>
          rw [keepTasks, hkeeps] at h
          cases h
      | ok keepsTask =>
          cases hothers : keepTasks keeps tasks with
          | error code =>
              rw [keepTasks, hkeeps, hothers] at h
              cases h
          | ok others =>
              rw [keepTasks, hkeeps, hothers] at h
              cases h
              rw [List.filter_cons, hkeeps, ← ih hothers]
              rfl

theorem keepTasks_of_forall {keeps : WorkspaceTask → Except FocusCode Bool} {tasks : List WorkspaceTask}
    (h : ∀ task ∈ tasks, ∃ keepsTask, keeps task = .ok keepsTask) : ∃ kept, keepTasks keeps tasks = .ok kept := by
  induction tasks with
  | nil => exact ⟨[], rfl⟩
  | cons task tasks ih =>
      obtain ⟨htask, htasks⟩ := List.forall_mem_cons.mp h
      obtain ⟨keepsTask, hkeeps⟩ := htask
      obtain ⟨others, hothers⟩ := ih htasks
      rw [keepTasks, hkeeps, hothers]
      exact ⟨_, rfl⟩

theorem matchesTiming_of_readsDates {filters : Filters} (h : filters.ReadsDates) (task : WorkspaceTask) :
    ∃ timed, matchesTiming filters task = .ok timed := by
  unfold matchesTiming
  dsimp only
  split
  · exact ⟨true, rfl⟩
  split
  · exact ⟨false, rfl⟩
  split
  · exact ⟨_, rfl⟩
  split
  · exact ⟨false, rfl⟩
  rename_i hall _ hunscheduled htoday
  rcases h with h | h | h | h
  · exact absurd h hall
  · exact absurd h hunscheduled
  · exact absurd h htoday
  · cases hwindow : dueWindow (orElse filters.today "") with
    | error code =>
        rw [hwindow] at h
        cases h
    | ok window =>
        rw [dueReasonForDate, hwindow]
        exact ⟨_, rfl⟩

/-- A filter whose day can be read returns the Tasks it matches. -/
theorem filterWorkspaceTasks_of_readsDates (lower : String → String) {filters : Filters} (h : filters.ReadsDates)
    (tasks : List WorkspaceTask) : ∃ matched, filterWorkspaceTasks lower tasks filters = .ok matched := by
  apply keepTasks_of_forall
  intro task _
  obtain ⟨timed, htimed⟩ := matchesTiming_of_readsDates h task
  rw [matchesFilters, htimed]
  split
  · exact ⟨_, rfl⟩
  · exact ⟨_, rfl⟩

end WorkStack.Views
