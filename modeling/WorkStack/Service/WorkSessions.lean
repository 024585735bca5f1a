import WorkStack.Service.Idempotency
import WorkStack.Service.PlanningStatus

/-!
# Work sessions

A work session is read back from the worklog on every request and validated completely: its id, date,
Task, state, worklog state and the ladder of its segments. Three requests write sessions: one starts a
session, one pauses, resumes or stops it, and one records the worklog of a stopped session.
-/

namespace WorkStack.Service

open Effect.Outcome Python

variable (I : Interpreter)

/-! ## Reading sessions -/

/-- `_work_session_timestamp` -/
def workSessionTimestamp (value : Json) (name : String) : Checked ℤ :=
  match value with
  | .str text =>
      if text.toList.getLast? = some 'Z' then
        match I.parseUtc text with
        | some stamp =>
            if stamp.utc ∧ stamp.microsecond = 0 then .ok stamp.seconds
            else corrupt ("persisted work session " ++ name ++ " is invalid")
        | none => corrupt ("persisted work session " ++ name ++ " is invalid")
      else corrupt ("persisted work session " ++ name ++ " is invalid")
  | _ => corrupt ("persisted work session " ++ name ++ " is invalid")

/-- The end of a segment: its own, or the current time where it is open. -/
def segmentEnd (segment : Record) (now : Option ℤ) : Checked ℤ :=
  match valueAt segment "ended_at", now with
  | .null, some now => .ok now
  | .null, none => corrupt "persisted running work session has no current time"
  | value, _ => workSessionTimestamp I value "segment.ended_at"

def elapsedFrom (now : Option ℤ) : ℤ → List Json → Checked ℤ
  | elapsed, [] => .ok elapsed
  | elapsed, candidate :: rest => do
      let segment ← asRecord candidate
      let startedAt ← field segment "started_at"
      let started ← workSessionTimestamp I startedAt "segment.started_at"
      let ended ← segmentEnd I segment now
      if ended < started then corrupt "persisted work session segment has negative duration"
      else elapsedFrom now (elapsed + (ended - started)) rest

/-- The current time a running session is measured against, where one is given. -/
def measuredAt (currentTime : Option String) : Checked (Option ℤ) :=
  match currentTime with
  | none => .ok none
  | some text =>
      if text = "" then .ok none
      else do
        let now ← workSessionTimestamp I (.str text) "current_time"
        pure (some now)

/-- `_work_session_elapsed` -/
def workSessionElapsed (session : Record) (currentTime : Option String) : Checked ℤ := do
  let now ← measuredAt I currentTime
  let segments ← field session "segments"
  let segments ← asList segments
  elapsedFrom I now 0 segments

/-- `_review_date` -/
def reviewDate (value : Json) : Checked String :=
  match value with
  | .str text =>
      if I.isDateShape text then
        if isIsoDate text then .ok text else domainError "date is invalid" [("field", .str "date")]
      else domainError "date must use YYYY-MM-DD" [("field", .str "date")]
  | _ => domainError "date must use YYYY-MM-DD" [("field", .str "date")]

/-- `_work_session_day`: the sessions of a day. -/
def workSessionDay (date : String) (day : Json) : Checked (List Json) :=
  match reviewDate I (.str date) with
  | .error _ => corrupt "persisted worklog date is invalid"
  | .ok _ =>
      match day with
      | .obj day =>
          match day.lookup "sessions" with
          | none => .ok []
          | some (.arr sessions) => .ok sessions
          | some _ => corrupt "persisted work sessions are invalid"
      | _ => corrupt "persisted worklog day is invalid"

/-- The identity of a session, in the order the reader checks it. -/
def workSessionId (session : Record) (seen : List String) : Checked String :=
  match valueAt session "id" with
  | .str id =>
      if I.isNumbered ['W', 'S'] 6 id ∧ id ∉ seen then .ok id
      else corrupt "persisted work session id is invalid"
  | _ => corrupt "persisted work session id is invalid"

def workSessionTask (session : Record) : Checked Unit :=
  match valueAt session "task_id" with
  | .str taskId =>
      if I.isNumbered ['T'] 1 taskId then
        match valueAt session "task" with
        | .str title =>
            if I.strip title = "" then corrupt "persisted work session task title is invalid" else .ok ()
        | _ => corrupt "persisted work session task title is invalid"
      else corrupt "persisted work session task id is invalid"
  | _ => corrupt "persisted work session task id is invalid"

/-- The worklog states that agree with a state. -/
def worklogStates (state : String) : List String :=
  if state = "running" ∨ state = "paused" then ["not_ready"] else ["pending", "recorded"]

def workSessionState (session : Record) : Checked String :=
  match valueAt session "state" with
  | .str state =>
      if state ∈ ["running", "paused", "stopped"] then
        match valueAt session "worklog_state" with
        | .str worklogState =>
            if worklogState ∈ worklogStates state then .ok state
            else corrupt "persisted work session worklog state is invalid"
        | _ => corrupt "persisted work session worklog state is invalid"
      else corrupt "persisted work session state is invalid"
  | _ => corrupt "persisted work session state is invalid"

/-- `_work_session_header`: the session, its id and its state. -/
def workSessionHeader (candidate : Json) (validDate : String) (seen : List String) :
    Checked (Record × String × String) :=
  match candidate with
  | .obj session => do
      let id ← workSessionId I session seen
      if Json.same (.str validDate) (valueAt session "date") then
        workSessionTask I session
        let state ← workSessionState session
        let _ ← workSessionTimestamp I (valueAt session "started_at") "started_at"
        let _ ← workSessionTimestamp I (valueAt session "updated_at") "updated_at"
        pure (session, id, state)
      else corrupt "persisted work session date is invalid"
  | _ => corrupt "persisted work session is invalid"

/-- `_work_session_segment`: the end of a segment, or that it is open. -/
def workSessionSegment (candidate : Json) (index count : ℕ) (previousEnd : Option ℤ) :
    Checked (Option ℤ) :=
  match candidate with
  | .obj segment =>
      if hasExactly segment ["started_at", "ended_at"] then do
        let start ← workSessionTimestamp I (valueAt segment "started_at") "segment.started_at"
        if previousEnd.any fun ended ↦ decide (start < ended) then
          corrupt "persisted work session segments overlap"
        else match valueAt segment "ended_at" with
        | .null =>
            if index + 1 = count then pure none
            else corrupt "persisted work session open segment is invalid"
        | value => do
            let ended ← workSessionTimestamp I value "segment.ended_at"
            if ended < start then corrupt "persisted work session segment has negative duration"
            else pure (some ended)
      else corrupt "persisted work session segment is invalid"
  | _ => corrupt "persisted work session segment is invalid"

/-- The number of open segments of a ladder. -/
def openSegments (count : ℕ) : ℕ → Option ℤ → List Json → Checked ℕ
  | _, _, [] => .ok 0
  | index, previousEnd, candidate :: rest => do
      let ended ← workSessionSegment I candidate index count previousEnd
      let others ← openSegments count (index + 1) ended rest
      pure (others + if ended = none then 1 else 0)

/-- `_validate_work_session_segments` -/
def validateWorkSessionSegments (session : Record) (state : String) : Checked Unit :=
  match valueAt session "segments" with
  | .arr (segment :: segments) => do
      let opened ← openSegments I (segments.length + 1) 0 none (segment :: segments)
      if (state = "running") ≠ (opened = 1) then
        corrupt "persisted work session open segment is inconsistent"
      else if state ∈ ["paused", "stopped"] ∧ opened ≠ 0 then
        corrupt "persisted work session open segment is inconsistent"
      else pure ()
  | _ => corrupt "persisted work session segments are invalid"

def isActive (state : String) : Prop := state = "running" ∨ state = "paused"

instance (state : String) : Decidable (isActive state) := by
  unfold isActive
  infer_instance

/-- The state of a session that has been read. -/
def stateOf (session : Record) : String :=
  match valueAt session "state" with
  | .str state => state
  | _ => ""

/-- What the reader has seen so far. -/
structure SessionScan where
  seen : List String := []
  active : ℕ := 0
  sessions : List Record := []

def scanSessions (validDate : String) : SessionScan → List Json → Checked SessionScan
  | scan, [] => .ok scan
  | scan, candidate :: rest => do
      let (session, id, state) ← workSessionHeader I candidate validDate scan.seen
      validateWorkSessionSegments I session state
      scanSessions validDate ⟨scan.seen ++ [id], scan.active + (if isActive state then 1 else 0),
        scan.sessions ++ [session]⟩ rest

def scanDays : SessionScan → List (String × Json) → Checked SessionScan
  | scan, [] => .ok scan
  | scan, (date, day) :: rest => do
      let candidates ← workSessionDay I date day
      let scan ← scanSessions I date scan candidates
      scanDays scan rest

/-- `_work_session_records` -/
def workSessionRecords (worklog : Record) : Checked (List Record) :=
  match worklog.get "days" with
  | some (.obj days) => do
      let scan ← scanDays I {} days
      if 1 < scan.active then corrupt "multiple active work sessions are persisted"
      else pure scan.sessions
  | _ => corrupt "persisted worklog days are invalid"

/-- `_project_work_session` -/
def projectWorkSession (session : Record) (currentTime : Option String) : Checked Record := do
  let before ← project session ["id", "task_id", "task", "date", "state", "started_at", "updated_at"]
  let running := Json.same (.str "running") (valueAt session "state")
  let elapsed ← workSessionElapsed I session (if running then currentTime else none)
  let worklogState ← field session "worklog_state"
  pure (before ++ [("elapsed_seconds", .int elapsed), ("worklog_state", worklogState)])

/-! ## Writing sessions -/

/-- The sessions of a day that has been read. -/
def sessionsOf (day : Json) : List Json :=
  match day with
  | .obj day =>
      match day.lookup "sessions" with
      | some (.arr sessions) => sessions
      | _ => []
  | _ => []

/-- Put a session where the reader found the one with this index. -/
def putSession (session : Record) : ℕ → List (String × Json) → List (String × Json)
  | _, [] => []
  | index, (date, day) :: rest =>
      if index < (sessionsOf day).length then
        match day with
        | .obj fields =>
            (date, .obj (Dict.set "sessions" (.arr ((sessionsOf day).set index (.obj session))) fields)) :: rest
        | _ => (date, day) :: rest
      else (date, day) :: putSession session (index - (sessionsOf day).length) rest

/-- The days of a worklog, `worklog["days"]`. -/
def daysOf (worklog : Record) : Checked (Dict String Json) := do
  let days ← field worklog "days"
  asRecord days

/-- The worklog with a session in place of the one with this index. -/
def replaceSession (worklog : Record) (index : ℕ) (session : Record) : Checked Record := do
  let days ← daysOf worklog
  pure (worklog.set "days" (.obj (putSession session index days)))

/-- `worklog.setdefault("days", {}).setdefault(date, {"entries": []}).setdefault("sessions", [])` with
one more session. -/
def appendSession (worklog : Record) (date : String) (session : Record) : Checked Record := do
  let days ← recordAt worklog "days" []
  let day ← recordAt days date [("entries", .arr [])]
  let sessions ← listAt day "sessions"
  let day := Dict.set "sessions" (.arr (sessions ++ [.obj session])) day
  pure (worklog.set "days" (.obj (Dict.set date (.obj day) days)))

/-- The response of a session request. -/
def sessionResponse (data : Record) : Record :=
  [("data", .obj data), ("meta", .obj [("replayed", .bool false)])]

/-- `path or default` -/
def pathOr (path : Option String) (default : String) : String :=
  match path with
  | none => default
  | some path => if path = "" then default else path

/-- `start_work_session_v1` -/
def startWorkSession (documents : Documents) (clock : Clock) (body : Record) (key : String)
    (path : String := "/api/v1/work-sessions") : Checked Served := do
  validateIdempotencyKey key
  match valueAt body "task_id" with
  | .str taskId =>
      if I.strip taskId = "" then domainError "task_id is required" [("field", .str "task_id")]
      else do
        let task ← getTask I documents.backlog documents.activity (I.upper (I.strip taskId))
        let taskId ← field task "id"
        let intent : Intent := ⟨key, "POST", path, I.canonicalDigest (.obj [("task_id", taskId)])⟩
        keyed I documents intent do
          let sessions ← workSessionRecords I documents.worklog
          if sessions.any fun session ↦ decide (isActive (stateOf session)) then
            .error (.domain "work_session_conflict" "another work session is already active" [])
          else do
            let timestamp := (clock.now 0).utcNow
            let date ← reviewDate I (.str (clock.today 0))
            let id ← nextId I (sessions.map .obj) ['W', 'S'] 6
            let title ← field task "title"
            let session : Record := [("id", .str id), ("task_id", taskId), ("task", title),
              ("date", .str date), ("state", .str "running"), ("started_at", .str timestamp),
              ("updated_at", .str timestamp),
              ("segments", .arr [.obj [("started_at", .str timestamp), ("ended_at", .null)]]),
              ("worklog_state", .str "not_ready")]
            let worklog ← appendSession documents.worklog date session
            let data ← projectWorkSession I session (some timestamp)
            let activity ← recordIdempotency documents.activity intent 201 (clock.now 1).utcNow
              (.frozen (sessionResponse data))
            pure ⟨⟨201, sessionResponse data⟩, some { documents with worklog, activity }⟩
  | _ => domainError "task_id is required" [("field", .str "task_id")]

inductive SessionAction where
  | pause | resume | stop
  deriving DecidableEq, Repr

namespace SessionAction

def text : SessionAction → String
  | pause => "pause"
  | resume => "resume"
  | stop => "stop"

def ofText (text : String) : Option SessionAction := [pause, resume, stop].find? fun action ↦ action.text = text

/-- The states an action is allowed in. -/
def allowed : SessionAction → List String
  | pause => ["running"]
  | resume => ["paused"]
  | stop => ["running", "paused"]

/-- The state an action leads to. -/
def state : SessionAction → String
  | pause => "paused"
  | resume => "running"
  | stop => "stopped"

end SessionAction

/-- `session["segments"][-1]["ended_at"] = timestamp` -/
def closeLastSegment (segments : List Json) (timestamp : String) : Checked (List Json) :=
  match segments.getLast? with
  | some (.obj segment) =>
      .ok (segments.dropLast ++ [.obj (Dict.set "ended_at" (.str timestamp) segment)])
  | some _ => fault "TypeError"
  | none => fault "IndexError"

/-- The segments after an action. -/
def segmentsAfter (action : SessionAction) (session : Record) (timestamp : String) : Checked (List Json) := do
  let segments ← field session "segments"
  let segments ← asList segments
  if action = .resume then pure (segments ++ [.obj [("started_at", .str timestamp), ("ended_at", .null)]])
  else if stateOf session = "running" then closeLastSegment segments timestamp
  else pure segments

/-- A session after an action. -/
def sessionAfter (action : SessionAction) (session : Record) (timestamp : String) : Checked Record := do
  let segments ← segmentsAfter action session timestamp
  let session := (session.set "segments" (.arr segments)).set "state" (.str action.state)
  let session := if action = .stop then session.set "worklog_state" (.str "pending") else session
  pure (session.set "updated_at" (.str timestamp))

/-- `transition_work_session_v1` -/
def transitionWorkSession (documents : Documents) (clock : Clock) (sessionId action key : String)
    (path : Option String := none) : Checked Served := do
  validateIdempotencyKey key
  let wantedId := I.upper (I.strip sessionId)
  match SessionAction.ofText action with
  | none => domainError "work session action is invalid" [("action", .str action)]
  | some action => do
      let path := pathOr path ("/api/v1/work-sessions/" ++ wantedId ++ "/" ++ action.text)
      let intent : Intent := ⟨key, "POST", path, I.canonicalDigest (.obj [])⟩
      keyed I documents intent do
        let sessions ← workSessionRecords I documents.worklog
        let (index, session) ← find I (sessions.map .obj) wantedId "work session"
        if stateOf session ∈ action.allowed then do
          let timestamp := (clock.now 0).utcNow
          let session ← sessionAfter action session timestamp
          let worklog ← replaceSession documents.worklog index session
          let data ← projectWorkSession I session (some timestamp)
          let activity ← recordIdempotency documents.activity intent 200 (clock.now 1).utcNow
            (.frozen (sessionResponse data))
          pure ⟨⟨200, sessionResponse data⟩, some { documents with worklog, activity }⟩
        else
          .error (.domain "work_session_conflict"
            ("cannot " ++ action.text ++ " a " ++ stateOf session ++ " work session")
            [("session_id", valueAt session "id"), ("state", .str (stateOf session))])

/-- The texts of `_review_items` that are kept. -/
def reviewTexts (name : String) : List Json → Checked (List String)
  | [] => .ok []
  | .str item :: rest =>
      if 1000 < (I.strip item).length then
        domainError (name ++ " items must be at most 1000 characters") [("field", .str name)]
      else do
        let texts ← reviewTexts name rest
        pure (if I.strip item = "" then texts else I.strip item :: texts)
  | _ :: _ => domainError (name ++ " items must be strings") [("field", .str name)]

/-- `_review_items` -/
def reviewItems (value : Json) (name : String) : Checked (List String) :=
  match value with
  | .arr items =>
      if 20 < items.length then
        domainError (name ++ " must be an array with at most 20 items") [("field", .str name)]
      else reviewTexts I name items
  | _ => domainError (name ++ " must be an array with at most 20 items") [("field", .str name)]

def texts (items : List String) : Json := .arr (items.map .str)

/-- `worklog["days"][date].setdefault("entries", []).append(entry)` -/
def appendEntry (worklog : Record) (date : String) (entry : Record) : Checked Record := do
  let days ← daysOf worklog
  let day ← field days date
  let day ← asRecord day
  let entries ← listAt day "entries"
  let day := Dict.set "entries" (.arr (entries ++ [.obj entry])) day
  pure (worklog.set "days" (.obj (Dict.set date (.obj day) days)))

/-- `record_work_session_v1` -/
def recordWorkSession (documents : Documents) (clock : Clock) (sessionId : String) (body : Record)
    (key : String) (path : Option String := none) : Checked Served := do
  validateIdempotencyKey key
  let wantedId := I.upper (I.strip sessionId)
  let done ← reviewItems I (valueAt body "done") "done"
  let next ← reviewItems I (valueAt body "next") "next"
  let blockers ← reviewItems I (valueAt body "blockers") "blockers"
  if done = [] ∧ next = [] ∧ blockers = [] then domainError "at least one worklog item is required"
  else do
    let canonical : Record := [("done", texts done), ("next", texts next), ("blockers", texts blockers)]
    let path := pathOr path ("/api/v1/work-sessions/" ++ wantedId ++ "/worklog")
    let intent : Intent := ⟨key, "POST", path, I.canonicalDigest (.obj canonical)⟩
    keyed I documents intent do
      let sessions ← workSessionRecords I documents.worklog
      let (index, session) ← find I (sessions.map .obj) wantedId "work session"
      if stateOf session = "stopped" ∧ Json.same (.str "pending") (valueAt session "worklog_state") then do
        let taskId ← field session "task_id"
        let task ← field session "task"
        let id ← field session "id"
        let elapsed ← workSessionElapsed I session none
        let entry : Record := [("task_id", taskId), ("task", task)] ++ canonical ++
          [("session_id", id), ("duration_seconds", .int elapsed)]
        let date ← field session "date"
        match date with
        | .str date => do
            let worklog ← appendEntry documents.worklog date entry
            let session := (session.set "worklog_state" (.str "recorded")).set "updated_at"
              (.str (clock.now 0).utcNow)
            let worklog ← replaceSession worklog index session
            let response := sessionResponse (("date", .str date) :: entry)
            let activity ← recordIdempotency documents.activity intent 201 (clock.now 1).utcNow (.frozen response)
            pure ⟨⟨201, response⟩, some { documents with worklog, activity }⟩
        | _ => fault "KeyError"
      else
        .error (.domain "work_session_conflict" "work session is not ready for a worklog"
          [("session_id", valueAt session "id"), ("state", .str (stateOf session))])

/-! ## Requests -/

/-- A request to one of the three writers. -/
inductive SessionRequest where
  | start (body : Record) (key path : String)
  | transition (sessionId action key : String) (path : Option String)
  | record (sessionId : String) (body : Record) (key : String) (path : Option String)

/-- What a request comes to. -/
def SessionRequest.apply (documents : Documents) (clock : Clock) :
    SessionRequest → Checked Served
  | start body key path => startWorkSession I documents clock body key path
  | transition sessionId action key path => transitionWorkSession I documents clock sessionId action key path
  | record sessionId body key path => recordWorkSession I documents clock sessionId body key path

end WorkStack.Service
