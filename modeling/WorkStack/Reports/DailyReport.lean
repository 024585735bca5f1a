import Mathlib
import WorkStack.Effect.Refusing
import WorkStack.Python.Decoding
import WorkStack.Python.IsoDates
import WorkStack.Python.Timestamps

/-!
# The daily report

The Markdown preview of one civil day, made from a review projection. The texts of a person or an agent are made
inert before they are written: `&`, `<` and `>` become entities, all other ASCII punctuation stands behind a
backslash, and line breaks become spaces. Everything else on the lines is written by the renderer.
-/

open WorkStack.Effect.Refusing WorkStack.Python WorkStack.Python.Decoding

namespace WorkStack.Reports.Daily

abbrev Line := List Char

/-- `DailyReportPreviewError` -/
structure PreviewError where
  message : String
  details : Dict String Json

abbrev Checked (α : Type) := Except PreviewError α

def maxProjectionBytes : ℕ := 262144

def maxMarkdownChars : ℕ := 100000

def maxDayEntries : ℕ := 200

def maxItemsPerList : ℕ := 32

def maxItemChars : ℕ := 1000

def templateDailyV1 : String := "daily-v1"

def knownEntryFields : List String :=
  ["task_id", "task", "done", "next", "blockers", "session_id", "duration_seconds"]

def previewKeys : List String := ["template", "period", "generated_at", "absence", "provenance", "markdown"]

def malformed (field : String) : PreviewError := ⟨"projection is malformed", [("field", .str field)]⟩

def oversized (field : String) (limit : ℕ) : PreviewError :=
  ⟨"projection is oversized", [("field", .str field), ("limit", .int limit)]⟩

/-! ## Inert text -/

/-- `_HTML` -/
def htmlNames : List (Char × List Char) :=
  [('&', "&amp;".toList), ('<', "&lt;".toList), ('>', "&gt;".toList)]

/-- `_PUNCT` -/
def isPunct (c : Char) : Bool := "!\"#$%'()*+,-./:;=?@[\\]^_`\x7b|\x7d~".toList.contains c

/-- `text.replace("\r\n", "\n")` -/
def replaceCrLf : List Char → List Char
  | '\r' :: '\n' :: rest => '\n' :: replaceCrLf rest
  | c :: rest => c :: replaceCrLf rest
  | [] => []

/-- `text.replace("\r\n", "\n").replace("\r", "\n")` -/
def unified (text : List Char) : List Char := (replaceCrLf text).map fun c ↦ if c = '\r' then '\n' else c

def inertChar (c : Char) : List Char :=
  if c = '\n' then [' ']
  else match htmlNames.lookup c with
    | some name => name
    | none => if isPunct c then ['\\', c] else [c]

/-- `inert_text` -/
def inertText (value : String) : Line := (unified value.toList).flatMap inertChar

/-! ## Facts -/

/-- The status of a list of items; `listed` is the source's `partial`. -/
inductive ItemStatus where
  | omitted
  | unusable
  | listed
  | recorded
  deriving DecidableEq, Repr

structure Items where
  status : ItemStatus
  items : List String

structure Source where
  date : String
  index : ℕ
  taskId : Option String
  unknownFields : List String

/-- An entry of the day; one that is no mapping is not `recorded`. -/
structure Entry where
  recorded : Bool
  taskId : Option String
  task : Option String
  done : Items
  next : Items
  blockers : Items
  sessionId : Option String
  durationSeconds : Option ℤ
  source : Source

inductive CheckIn where
  | omitted
  | notRecorded
  | unusable
  | recorded (value : String)

structure DayFacts where
  checkIn : CheckIn
  entries : List Entry
  taskIds : List String

/-- The texts among the items, and whether all of them are texts. -/
def readItems : List Json → Checked (Bool × List String)
  | [] => .ok (true, [])
  | .str text :: rest => do
      check (text.length ≤ maxItemChars) (oversized "item" maxItemChars)
      let (whole, texts) ← readItems rest
      pure (whole, text :: texts)
  | _ :: rest => do
      let (_, texts) ← readItems rest
      pure (false, texts)

/-- `_item_list`, of a value that may not be present. -/
def itemList : Option Json → Checked Items
  | none => .ok ⟨.omitted, []⟩
  | some (.arr items) => do
      check (items.length ≤ maxItemsPerList) (oversized "items" maxItemsPerList)
      let (whole, texts) ← readItems items
      pure ⟨if whole then .recorded else .listed, texts⟩
  | some _ => .ok ⟨.unusable, []⟩

def textOf : Json → Option String
  | .str text => some text
  | _ => none

def intOf : Json → Option ℤ
  | .int value => some value
  | _ => none

def sortedTexts (texts : List String) : List String := texts.insertionSort (· ≤ ·)

/-- `_one_entry` -/
def oneEntry (date : String) (index : ℕ) : Json → Checked Entry
  | .obj raw => do
      let taskId := textOf (item raw "task_id")
      let done ← itemList (Dict.get raw "done")
      let next ← itemList (Dict.get raw "next")
      let blockers ← itemList (Dict.get raw "blockers")
      let unknown := sortedTexts ((Dict.keys raw).filter fun key ↦ !(knownEntryFields.contains key))
      pure {
        recorded := true, taskId, task := textOf (item raw "task"), done, next, blockers,
        sessionId := textOf (item raw "session_id"), durationSeconds := intOf (item raw "duration_seconds"),
        source := ⟨date, index, taskId, unknown⟩ }
  | _ => .ok {
      recorded := false, taskId := none, task := none, done := ⟨.unusable, []⟩, next := ⟨.unusable, []⟩,
      blockers := ⟨.unusable, []⟩, sessionId := none, durationSeconds := none, source := ⟨date, index, none, []⟩ }

def readEntries (date : String) : ℕ → List Json → Checked (List Entry)
  | _, [] => .ok []
  | index, raw :: rest => do
      let entry ← oneEntry date index raw
      let entries ← readEntries date (index + 1) rest
      pure (entry :: entries)

/-- `_check_in` -/
def readCheckIn (day : Fields) : CheckIn :=
  match Dict.get day "start_time" with
  | none => .omitted
  | some .null => .notRecorded
  | some (.str value) => .recorded value
  | some _ => .unusable

/-- `_day_facts` -/
def dayFacts (day : Fields) (date : String) : Checked DayFacts := do
  let raw ← asList (malformed "entries") (item day "entries")
  check (raw.length ≤ maxDayEntries) (oversized "entries" maxDayEntries)
  let entries ← readEntries date 0 raw
  pure ⟨readCheckIn day, entries, (entries.filterMap Entry.taskId).eraseDups⟩

/-! ## Markdown -/

/-- `_check_in_line` -/
def checkInLine : CheckIn → Line
  | .recorded value => inertText value
  | .omitted => "Omitted.".toList
  | .unusable => "Unusable.".toList
  | .notRecorded => "Not recorded.".toList

/-- `_entry_heading` -/
def entryHeading (taskId task : Option String) : Line :=
  let identity := match taskId with
    | some id => inertText id
    | none => "Task omitted".toList
  match task with
  | none => identity ++ " — title omitted".toList
  | some title => identity ++ " — ".toList ++ inertText title

def itemLine (item : String) : Line := "- ".toList ++ inertText item

def listNotice : Line := "Partial list; non-text items were not treated as facts.".toList

/-- `_field_lines` -/
def fieldLines (label : String) : Items → List Line
  | ⟨.omitted, _⟩ => [label.toList ++ ": omitted.".toList, []]
  | ⟨.unusable, _⟩ => [label.toList ++ ": unusable.".toList, []]
  | ⟨.recorded, items⟩ => if items = [] then [] else label.toList :: items.map itemLine ++ [[]]
  | ⟨.listed, items⟩ => label.toList :: listNotice :: items.map itemLine ++ [[]]

/-- The extras of an entry: its session and its duration. -/
def extras (entry : Entry) : List Line :=
  (entry.sessionId.map fun id ↦ "session ".toList ++ inertText id).toList ++
    (entry.durationSeconds.map fun seconds ↦ (toString seconds).toList ++ ['s']).toList

def extraLine (entry : Entry) : Line := Json.joined " · ".toList (extras entry)

def extraLines (entry : Entry) : List Line := if extras entry = [] then [] else [extraLine entry, []]

def bodyLines (entry : Entry) : List Line :=
  let body := fieldLines "Done" entry.done ++ fieldLines "Next" entry.next ++ fieldLines "Blockers" entry.blockers
  if body = [] then ["Omitted facts.".toList, []] else body

def headingLine (entry : Entry) : Line := "### ".toList ++ entryHeading entry.taskId entry.task

/-- `_entry_lines` -/
def entryLines (entry : Entry) : List Line :=
  if entry.recorded then headingLine entry :: [] :: extraLines entry ++ bodyLines entry
  else ["### Entry omitted".toList, [], "Unusable.".toList]

def titleLine (date : String) : Line := "# Daily review ".toList ++ date.toList

/-- The lines of `_render_markdown`. -/
def reportLines (date generatedAt : String) (facts : DayFacts) : List Line :=
  [titleLine date, [], "Period: ".toList ++ date.toList,
    "Generated at: ".toList ++ inertText generatedAt, [], "## Check-in".toList, [], checkInLine facts.checkIn, [],
    "## Day record".toList, []] ++
  if facts.entries = [] then ["No records.".toList, []]
  else facts.entries.flatMap fun entry ↦ entryLines entry ++ [[]]

/-- `_render_markdown` -/
def renderMarkdown (date generatedAt : String) (facts : DayFacts) : String :=
  String.ofList (Json.joined ['\n'] (reportLines date generatedAt facts))

/-! ## The preview -/

structure Provenance where
  date : String
  taskIds : List String
  sources : List Source
  weeklyRange : Option (String × String × ℤ)
  ignoredKeys : List String

structure Preview where
  template : String
  date : String
  generatedAt : String
  absence : Option String
  provenance : Provenance
  markdown : String

section Preview

variable (I : Interpreter) (dumps : Json → Option Bytes)

/-- `_require_date` -/
def requireDate (value : String) : Checked String :=
  let shapeless : PreviewError := ⟨"date must use YYYY-MM-DD", [("field", .str "date")]⟩
  if I.isDateShape value then
    match dateFromIsoFormat value with
    | none => .error ⟨"date is invalid", [("field", .str "date")]⟩
    | some (year, month, day) =>
        if Moment.dateText year month day = value.toList then .ok value else .error shapeless
  else .error shapeless

/-- `_require_instant` -/
def requireInstant (value : String) : Checked String :=
  let text := value.toList
  let candidate := if text.getLast? = some 'Z' then text.dropLast ++ "+00:00".toList else text
  if (rfc3339Fraction I value).isSome ∧ (I.fromIsoFormat (String.ofList candidate)).isSome then .ok value
  else .error ⟨"generated_at must be an RFC 3339 timestamp", [("field", .str "generated_at")]⟩

/-- `_require_day`; `dumps` is `json.dumps(value, ensure_ascii=False, allow_nan=False).encode("utf-8")` where that
raises nothing. -/
def requireDay (projection : Json) (date : String) : Checked (Fields × Fields) := do
  let fields ← asObject (malformed "projection") projection
  let encoded ← (dumps projection).elim (.error (malformed "projection")) .ok
  check (encoded.length ≤ maxProjectionBytes) (oversized "projection" maxProjectionBytes)
  let day ← asObject (malformed "day") (item fields "day")
  check (isText date (item day "date")) ⟨"projection date does not match the requested date",
    [("field", .str "date"), ("expected", .str date), ("actual", item day "date")]⟩
  pure (fields, day)

/-- `_ignored_preview_keys` -/
def ignoredPreviewKeys (projection : Fields) : List String :=
  sortedTexts ((Dict.keys projection).filter previewKeys.contains)

/-- `_weekly_range` -/
def weeklyRange (projection : Fields) : Option (String × String × ℤ) :=
  match item projection "weekly" with
  | .obj weekly => match item weekly "range" with
      | .obj span => match item span "start", item span "end", item span "days" with
          | .str start, .str stop, .int days => some (start, stop, days)
          | _, _, _ => none
      | _ => none
  | _ => none

/-- `preview_daily_report` -/
def previewDailyReport (projection : Json) (date template generatedAt : String) : Checked Preview := do
  check (template == templateDailyV1)
    ⟨"template is unsupported", [("field", .str "template"), ("supported", .arr [.str templateDailyV1])]⟩
  let periodDate ← requireDate I date
  let stamp ← requireInstant I generatedAt
  let (fields, day) ← requireDay dumps projection periodDate
  let facts ← dayFacts day periodDate
  let markdown := renderMarkdown periodDate stamp facts
  check (markdown.length ≤ maxMarkdownChars)
    ⟨"preview markdown is oversized", [("field", .str "markdown"), ("limit", .int maxMarkdownChars)]⟩
  pure {
    template := templateDailyV1, date := periodDate, generatedAt := stamp,
    absence := if facts.entries = [] then some "no records" else none,
    provenance := ⟨periodDate, facts.taskIds, facts.entries.map Entry.source, weeklyRange fields,
      ignoredPreviewKeys fields⟩,
    markdown }

end Preview

end WorkStack.Reports.Daily
