import Mathlib
import WorkStack.Checkpoints.Contract
import WorkStack.Streams.Canonical

/-!
# The projection of stored documents

The adapter between the stored documents and the contract. Every entry of the worklog becomes a wrapper in
its physical slot, one for each fact that claims the slot, and every record of the activity that is
recognized by its type is carried through. The active worklog is what the contract leaves of the entries,
in the days they were in.
-/

open WorkStack.Python WorkStack.Python.Decoding

namespace WorkStack.Checkpoints

/-! ## Records -/

/-- `TRANSITION_TYPES` -/
def transitionTypes : List String := ["worklog.superseded", "worklog.restored"]

/-- A record that is recognized, by its outer type and its details. -/
def recognize : Json → Option (String × Json)
  | .obj fields =>
      match Dict.get fields "type" with
      | some (.str outer) =>
          if (recordedType :: transitionTypes).contains outer then some (outer, item fields "details") else none
      | _ => none
  | _ => none

/-- The records of an activity. -/
def activityRecords (activity : Fields) : List Json :=
  match Dict.get activity "activity" with
  | some (.arr records) => records
  | _ => []

/-- `_recognized_records` -/
def recognizedRecords (activity : Fields) : List (String × Json) := (activityRecords activity).filterMap recognize

/-- The facts among the records. -/
def recordedFacts (recognized : List (String × Json)) : List Json :=
  (recognized.filter fun record ↦ record.1 == recordedType).map Prod.snd

/-- The transitions among the records. -/
def recordedTransitions (recognized : List (String × Json)) : List Json :=
  (recognized.filter fun record ↦ transitionTypes.contains record.1).map Prod.snd

/-! ## The worklog -/

/-- The fields of a worklog document. -/
abbrev Worklog := Fields

/-- The days of a worklog that has some. -/
def worklogDays (worklog : Worklog) : Fields :=
  match Dict.get worklog "days" with
  | some (.obj days) => days
  | _ => []

/-- The known parts of a day. -/
def isDay : String × Json → Bool
  | (date, .obj day) =>
      isIsoDate date &&
        match Dict.get day "entries" with
        | none => true
        | some (.arr _) => true
        | _ => false
  | _ => false

/-- `_validate_worklog_envelope` -/
def isEnvelope (worklog : Worklog) : Bool :=
  match Dict.get worklog "days" with
  | none => true
  | some .null => true
  | some (.obj days) => days.all isDay
  | _ => false

/-- The entries of a day that has some. -/
def dayEntries : Json → List Json
  | .obj day =>
      match Dict.get day "entries" with
      | some (.arr entries) => entries
      | _ => []
  | _ => []

/-- An entry of the worklog in its physical slot. -/
structure PhysicalRow where
  date : String
  ordinal : ℕ
  entry : Json

def PhysicalRow.slot (row : PhysicalRow) : String × ℤ := (row.date, row.ordinal)

/-- The rows of one day. -/
def dayRows (date : String) (day : Json) : List PhysicalRow :=
  (dayEntries day).zipIdx.map fun entry ↦ ⟨date, entry.2, entry.1⟩

/-- `_physical_rows` -/
def physicalRows (worklog : Worklog) : List PhysicalRow :=
  (Json.sortFields (worklogDays worklog)).flatMap fun day ↦ dayRows day.1 day.2

/-! ## The context -/

/-- A field of the details of a record. -/
def detail (name : String) : Json → Json
  | .obj details => item details name
  | _ => .null

/-- The slot that a fact or a transition names. -/
def slotOf (details : Json) : Option (String × ℤ) :=
  match detail "date" details, detail "ordinal" details with
  | .str date, .int ordinal => some (date, ordinal)
  | _, _ => none

/-- The facts that claim the slot of a row. -/
def claimsOf (facts : List Json) (row : PhysicalRow) : List Json := facts.filter fun fact ↦ slotOf fact == some row.slot

/-- The facts that claim no slot there is. -/
def orphansOf (facts : List Json) (rows : List PhysicalRow) : List Json :=
  facts.filter fun fact ↦ !rows.any fun row ↦ slotOf fact == some row.slot

/-- `_physical_task_id` -/
def physicalTaskId : Json → Option String
  | .obj fields =>
      match Dict.get fields "task_id" with
      | some (.str taskId) => if isTaskId taskId then some taskId else none
      | _ => none
  | _ => none

def optionalText : Option String → Json
  | some value => .str value
  | none => .null

/-- A locator as a document. -/
def locatorJson (uid taskId date ordinal entryDigest : Json) : Json := .obj [
  ("workspace_uid", uid),
  ("task_id", taskId),
  ("date", date),
  ("ordinal", ordinal),
  ("entry_digest", entryDigest)]

section Building

variable (P : Platform)

/-- `_entry_digest` -/
def entryDigest (entry : Json) : Option String :=
  if entry.isCanonical then some (P.sha256 (Json.compactJson entry)).text else none

/-- `_validate_fact_syntax` -/
def validateFactSyntax (details : Fields) : Checked Locator :=
  verifyLocator P (item details "workspace_uid") (item details "checkpoint_id") (.obj details)
    (locatorJson (item details "workspace_uid") (item details "task_id") (item details "date")
      (item details "ordinal") (item details "entry_digest"))

/-- `_validate_event_syntax`: what does not fail for its own syntax passes. -/
def validateEventSyntax (uid : String) (details : Fields) : Checked Unit :=
  match buildAuditView P (⟨uid, [], [.obj details]⟩ : Context PhysicalRow) with
  | .error .malformed => .error .malformed
  | _ => .ok ()

/-- `_validate_recognized_syntax` of one record -/
def validateSyntax (uid : String) : String × Json → Checked Unit
  | (outer, .obj details) => do
      check (!details.isEmpty && isText outer (item details "type")) .malformed
      if outer == recordedType then
        let _ ← validateFactSyntax P details
      else validateEventSyntax P uid details
  | _ => .error .malformed

/-- `_validate_recognized_binding` of one record -/
def bindsRecord (uid : String) (record : String × Json) : Bool := isText uid (detail "workspace_uid" record.2)

/-- The locator that a row physically has. -/
def physicalLocator (uid : String) (row : PhysicalRow) : Json :=
  locatorJson (.str uid) (optionalText (physicalTaskId row.entry)) (.str row.date) (.int row.ordinal)
    (optionalText (entryDigest P row.entry))

/-- The wrappers of a row: one for each claim, or one where there is none. -/
def rowWrappers (uid : String) (facts : List Json) (row : PhysicalRow) : List (Wrapper PhysicalRow) :=
  let claims := claimsOf facts row
  (if claims.isEmpty then [none] else claims.map some).map fun recorded ↦ ⟨physicalLocator P uid row, recorded, row⟩

/-- The context of the documents, where every record has passed. -/
def representable (uid : String) (worklog : Worklog) (recognized : List (String × Json)) : Context PhysicalRow :=
  ⟨uid, (physicalRows worklog).flatMap (rowWrappers P uid (recordedFacts recognized)), recordedTransitions recognized⟩

/-- `build_projection_context` -/
def buildProjectionContext (uid : String) (worklog : Worklog) (activity : Fields) : Checked (Context PhysicalRow) := do
  let recognized := recognizedRecords activity
  recognized.forM (validateSyntax P uid)
  check (isEnvelope worklog) .malformed
  check (recognized.all (bindsRecord uid)) .locatorMismatch
  let context := representable P uid worklog recognized
  if !(orphansOf (recordedFacts recognized) (physicalRows worklog)).isEmpty then
    let _ ← buildAuditView P context
    .error .historyInvalid
  else return context

/-- `build_audit` -/
def buildAudit (uid : String) (worklog : Worklog) (activity : Fields) : Checked (List (AuditEntry PhysicalRow)) := do
  let context ← buildProjectionContext P uid worklog activity
  buildAuditView P context

end Building

/-! ## The active worklog -/

/-- Where the interpreter keeps the entries of a worklog. Values that cannot change may share an address, an
object has one of its own. -/
structure Addresses (worklog : Worklog) where
  address : String → ℕ → ℕ
  own : ∀ row ∈ physicalRows worklog, ∀ other ∈ physicalRows worklog, row.entry.isObject →
    address row.date row.ordinal = address other.date other.ordinal → row.slot = other.slot

/-- A day with the entries that are kept. -/
def keepEntries (keep : ℕ → Bool) (entries : List Json) : List Json :=
  (entries.zipIdx.filter fun entry ↦ keep entry.2).map Prod.fst

/-- A day as it was, but for its entries: those that are kept, if it has a list of them. -/
def keepDay (keep : ℕ → Bool) : Json → Json
  | .obj day =>
      match Dict.get day "entries" with
      | some (.arr entries) => .obj (Dict.set "entries" (.arr (keepEntries keep entries)) day)
      | _ => .obj day
  | day => day

/-- A worklog as it was, but for the entries of its days. -/
def keepRows (keep : String → ℕ → Bool) (worklog : Worklog) : Fields :=
  match Dict.get worklog "days" with
  | some (.obj days) =>
      Dict.set "days" (.obj (days.map fun day ↦ (day.1, keepDay (keep day.1) day.2))) worklog
  | _ => worklog

/-- `active_worklog_document`: an entry is kept if its object is one of the active ones. -/
def activeWorklogDocument (P : Platform) (uid : String) (worklog : Worklog) (addresses : Addresses worklog)
    (activity : Fields) : Checked Fields := do
  let context ← buildProjectionContext P uid worklog activity
  let active ← projectActiveEntries P context
  let identities := active.map fun row ↦ addresses.address row.date row.ordinal
  return keepRows (fun date ordinal ↦ identities.contains (addresses.address date ordinal)) worklog

end WorkStack.Checkpoints
