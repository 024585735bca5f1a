import WorkStack.Json
import WorkStack.Python.Text

/-!
# Tasks as the views see them

A view accepts a Task with fields that are missing, and reads a status or a priority that it does not know as the
usual one.
-/

open WorkStack.Python

namespace WorkStack.Views

/-! ## Texts -/

/-- `WhiteSpace` and `LineTerminator`: the characters that `trim` takes away. -/
def isTrimmed (c : Char) : Bool :=
  let whiteSpace := ['\t', Char.ofNat 0x0b, Char.ofNat 0x0c, Char.ofNat 0xfeff]
  let spaceSeparators :=
    [' ', Char.ofNat 0xa0, Char.ofNat 0x1680, Char.ofNat 0x202f, Char.ofNat 0x205f, Char.ofNat 0x3000]
  let lineTerminators := ['\n', '\r', Char.ofNat 0x2028, Char.ofNat 0x2029]
  (whiteSpace ++ spaceSeparators ++ lineTerminators).contains c || (0x2000 ≤ c.toNat && c.toNat ≤ 0x200a)

/-- `String.prototype.trim` -/
def trim (value : String) : String := stripText isTrimmed value

/-! ## Tasks -/

/-- A reference of a Task to a key result of an objective. -/
structure KeyResultRef where
  objectiveId : String
  keyResultId : String
  deriving DecidableEq, Repr

/-- `WorkspaceTask`, without the fields that no view model reads here. Lists that are missing are empty. -/
structure WorkspaceTask where
  id : String
  title : String
  detail : Option String
  status : Option String
  priority : Option String
  due : Option String
  tags : List String
  objectiveIds : List String
  keyResultRefs : List KeyResultRef
  dependencies : List String
  deriving DecidableEq, Repr

def taskStatuses : List String := ["open", "started", "done", "dropped"]

def taskPriorities : List String := ["P0", "P1", "P2", "P3"]

/-- `asTaskStatus` -/
def asTaskStatus (value : Option String) : String := (value.filter taskStatuses.contains).getD "open"

/-- `asTaskPriority` -/
def asTaskPriority (value : Option String) : String := (value.filter taskPriorities.contains).getD "P2"

/-- A `Map` from the ids of Tasks: of Tasks with one id, the last one counts. -/
def byId (tasks : List WorkspaceTask) (id : String) : Option WorkspaceTask :=
  tasks.reverse.find? fun task ↦ task.id == id

theorem byId_eq_some {tasks : List WorkspaceTask} (hdistinct : (tasks.map WorkspaceTask.id).Nodup) {id : String}
    {task : WorkspaceTask} : byId tasks id = some task ↔ task ∈ tasks ∧ task.id = id := by
  constructor
  · intro h
    exact ⟨List.mem_reverse.mp (List.mem_of_find?_eq_some h), by simpa using List.find?_some h⟩
  · rintro ⟨hmem, rfl⟩
    cases hfound : byId tasks task.id with
    | none =>
        have hnone := List.find?_eq_none.mp hfound task (List.mem_reverse.mpr hmem)
        simp at hnone
    | some other =>
        have hother := List.mem_reverse.mp (List.mem_of_find?_eq_some hfound)
        have hid : other.id = task.id := by simpa using List.find?_some hfound
        rw [List.inj_on_of_nodup_map hdistinct hother hmem hid]

theorem byId_isSome {tasks : List WorkspaceTask} {id : String} :
    (byId tasks id).isSome = true ↔ id ∈ tasks.map WorkspaceTask.id := by
  rw [byId, List.find?_isSome]
  simp

end WorkStack.Views
