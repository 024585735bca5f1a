import WorkStack.Effect.Outcome
import WorkStack.Python.Dict
import WorkStack.Python.Interpreter

/-!
# The domain vocabulary

Documents are dictionaries of decoded JSON. A request that meets a value of the wrong kind ends with
the interpreter's own exception, every other refusal is one of the services' errors. The identifiers,
lookups and revision guards below are what all services are written in terms of.
-/

namespace WorkStack.Service

open Effect.Outcome Python

abbrev Record := Dict String Json

inductive ServiceError where
  /-- An exception of the interpreter, such as `AttributeError` and `KeyError`. -/
  | fault (exception : String)
  | value (message : String)
  | corrupt (message : String)
  /-- `PlanningStatusValidationError` -/
  | planning (message : String)
  /-- `DomainError` and its subclasses, by their code. -/
  | domain (code message : String) (details : Record)

abbrev Checked (α : Type) := Except ServiceError α

def fault {α : Type} (exception : String) : Checked α := .error (.fault exception)

def valueError {α : Type} (message : String) : Checked α := .error (.value message)

def corrupt {α : Type} (message : String) : Checked α := .error (.corrupt message)

def domainError {α : Type} (message : String) (details : Record := []) : Checked α :=
  .error (.domain "invalid_request" message details)

/-! ## Documents and clocks -/

/-- The documents a service loads and saves; each of them is a JSON object. -/
structure Documents where
  workspace : Record
  backlog : Record
  activity : Record
  okr : Record
  worklog : Record
  notes : Record
  captures : Record
  replies : Record

/-- What a request reads from the clock, by the number of the reading. -/
structure Clock where
  now : ℕ → Moment
  today : ℕ → String

/-! ## Values -/

/-- A value that is used as a dictionary. -/
def asRecord : Json → Checked Record
  | .obj fields => .ok fields
  | _ => fault "AttributeError"

/-- A value that is used as a list. -/
def asList : Json → Checked (List Json)
  | .arr items => .ok items
  | _ => fault "TypeError"

/-- `record[name]` -/
def field (record : Record) (name : String) : Checked Json :=
  match record.get name with
  | some value => .ok value
  | none => fault "KeyError"

/-- `record.get(name, [])`, which is iterated or appended to. -/
def listAt (record : Record) (name : String) : Checked (List Json) :=
  match record.get name with
  | some value => asList value
  | none => .ok []

/-- `record.setdefault(name, default)` of a dictionary. -/
def recordAt (record : Record) (name : String) (default : Record) : Checked Record :=
  match record.get name with
  | some value => asRecord value
  | none => .ok default

/-- `record.get(name)` is `None` where the name is missing. -/
def valueAt (record : Record) (name : String) : Json := (record.get name).getD .null

/-- `set(record) == set(names)` -/
def hasExactly (record : Record) (names : List String) : Bool :=
  record.keys.all (· ∈ names) && names.all (· ∈ record.keys)

variable {record : Record}

@[simp] theorem asRecord_eq_ok {value : Json} :
    asRecord value = .ok record ↔ value = .obj record := by
  cases value <;> simp [asRecord, fault]

@[simp] theorem asList_eq_ok {value : Json} {items : List Json} :
    asList value = .ok items ↔ value = .arr items := by
  cases value <;> simp [asList, fault]

@[simp] theorem field_eq_ok {name : String} {value : Json} :
    field record name = .ok value ↔ record.get name = some value := by
  unfold field
  cases record.get name <;> simp [fault]

theorem valueAt_set (record : Record) (name other : String) (value : Json) :
    valueAt (record.set name value) other = if name = other then value else valueAt record other := by
  unfold valueAt
  rw [Dict.get_set]
  split <;> rfl

theorem valueAt_of_get {name : String} {value : Json} (h : record.get name = some value) :
    valueAt record name = value := by
  rw [valueAt, h, Option.getD_some]

/-- A field that holds something is there. -/
theorem get_of_valueAt {name : String} (h : valueAt record name ≠ .null) :
    record.get name = some (valueAt record name) := by
  unfold valueAt at *
  cases hget : record.get name with
  | none => simp [hget] at h
  | some value => rfl

/-- Setting one item of a list changes that item. -/
theorem split_of_getElem? {α : Type} {items : List α} {index : ℕ} {item : α} (h : items[index]? = some item) :
    ∃ before rest, items = before ++ item :: rest ∧
      ∀ value, items.set index value = before ++ value :: rest := by
  induction items generalizing index with
  | nil => simp at h
  | cons first items ih =>
      cases index with
      | zero =>
          have hfirst : first = item := by simpa using h
          exact ⟨[], items, by rw [hfirst]; rfl, fun value ↦ rfl⟩
      | succ index =>
          obtain ⟨before, rest, hsplit, hset⟩ := ih (by simpa using h)
          exact ⟨first :: before, rest, by rw [hsplit]; rfl, fun value ↦ by
            rw [List.set_cons_succ, hset]; rfl⟩

/-! ## Identifiers -/

section Identifiers

variable (I : Interpreter)

/-- `str(record.get("id", ""))` -/
def idText (record : Record) : String := I.str ((record.get "id").getD (.str ""))

/-- The largest number of the ids of a kind. -/
def largestNumber (name : List Char) : ℕ → List Json → Checked ℕ
  | largest, [] => .ok largest
  | largest, candidate :: rest => do
      let record ← asRecord candidate
      let largest := match I.idNumber name (idText I record) with
        | some n => max largest n
        | none => largest
      largestNumber name largest rest

/-- `_next_id` -/
def nextId (records : List Json) (name : List Char) (width : ℕ := 0) : Checked String := do
  let largest ← largestNumber I name 0 records
  pure (String.ofList (name ++ '-' :: zeroPadded width (largest + 1)))

/-- `_required_text` of a text -/
def requiredText (value : String) (name : String) : Checked String :=
  if I.strip value = "" then valueError (name ++ " is required") else .ok (I.strip value)

/-- The first record with an id, and where it is. -/
def findFrom (wanted : String) (unknown : ServiceError) : ℕ → List Json → Checked (ℕ × Record)
  | _, [] => .error unknown
  | index, candidate :: rest => do
      let record ← asRecord candidate
      if I.upper (idText I record) = wanted then pure (index, record)
      else findFrom wanted unknown (index + 1) rest

/-- `_find` -/
def find (records : List Json) (recordId label : String) : Checked (ℕ × Record) :=
  findFrom I (I.upper (I.strip recordId))
    (.domain "not_found" ("unknown " ++ label ++ ": " ++ recordId) [("id", .str recordId)]) 0 records

variable {records : List Json}

theorem le_of_largestNumber {name : List Char} {largest start : ℕ}
    (h : largestNumber I name start records = .ok largest) :
    start ≤ largest ∧ ∀ record, .obj record ∈ records → ∀ n,
      I.idNumber name (idText I record) = some n → n ≤ largest := by
  induction records generalizing start with
  | nil =>
      cases h
      exact ⟨le_rfl, fun record hrecord ↦ absurd hrecord List.not_mem_nil⟩
  | cons candidate rest ih =>
      obtain ⟨record, hrecord, h⟩ := bind_eq_ok.mp h
      obtain ⟨hstart, hrest⟩ := ih h
      have hcandidate := asRecord_eq_ok.mp hrecord
      constructor
      · split at hstart
        · exact (le_max_left ..).trans hstart
        · exact hstart
      · intro other hother n hn
        rcases List.mem_cons.mp hother with heq | hother
        · have hsame : other = record := by simpa [hcandidate] using heq
          rw [hsame] at hn
          simp only [hn] at hstart
          exact (le_max_right ..).trans hstart
        · exact hrest other hother n hn

/-- A new id is none of the ids there are. -/
theorem nextId_fresh {name : List Char} {width : ℕ} {id : String} (h : nextId I records name width = .ok id) :
    I.isNumbered name width id = true ∧ ∀ record, .obj record ∈ records → idText I record ≠ id := by
  obtain ⟨largest, hlargest, h⟩ := bind_eq_ok.mp h
  cases h
  refine ⟨I.isNumbered_zeroPadded name width _, fun record hrecord heq ↦ ?_⟩
  have hle := (le_of_largestNumber I hlargest).2 record hrecord (largest + 1)
  rw [heq, I.idNumber_zeroPadded] at hle
  have := hle rfl
  omega

theorem findFrom_spec {wanted : String} {unknown : ServiceError} {start index : ℕ}
    (h : findFrom I wanted unknown start records = .ok (index, record)) :
    start ≤ index ∧ records[index - start]? = some (.obj record) ∧ I.upper (idText I record) = wanted := by
  induction records generalizing start with
  | nil => cases h
  | cons candidate rest ih =>
      obtain ⟨other, hother, h⟩ := bind_eq_ok.mp h
      split at h
      · rename_i hid
        cases h
        simpa [asRecord_eq_ok.mp hother] using hid
      · obtain ⟨hstart, hget, hid⟩ := ih h
        refine ⟨by omega, ?_, hid⟩
        have hsucc : index - start = index - (start + 1) + 1 := by omega
        rw [hsucc, List.getElem?_cons_succ, hget]

theorem find_spec {recordId label : String} {index : ℕ} (h : find I records recordId label = .ok (index, record)) :
    records[index]? = some (.obj record) ∧ I.upper (idText I record) = I.upper (I.strip recordId) := by
  simpa using (findFrom_spec I h).2

end Identifiers

/-! ## Revisions -/

def maxRevision : ℤ := 9007199254740991

/-- `_revision` -/
def revision (record : Record) : Checked ℤ :=
  match record.get "revision" with
  | none => corrupt "persisted task revision is missing"
  | some (.int value) =>
      if 0 ≤ value ∧ value ≤ maxRevision then .ok value
      else corrupt "persisted task revision is invalid"
  | some _ => corrupt "persisted task revision is invalid"

/-- `_next_revision` -/
def nextRevision (record : Record) : Checked ℤ := do
  let current ← revision record
  if current = maxRevision then
    .error (.domain "revision_exhausted" "task revision cannot advance beyond the safe integer limit"
      [("maximum", .int maxRevision)])
  else pure (current + 1)

/-- The refusal of a stale revision. -/
def staleRevision (current : ℤ) (received : Json) : ServiceError :=
  .domain "revision_conflict" "task revision is stale" [("expected", .int current), ("received", received)]

end WorkStack.Service
