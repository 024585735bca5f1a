import WorkStack.Checkpoints.Projection
import WorkStack.Effect.Refusing
import WorkStack.Python.IsoDates
import WorkStack.Service.WorkSessionRuns

/-!
# Check-ins and worklog entries

The two oldest writers of the worklog take a date as they are given it and only ask whether
`date.fromisoformat` reads it. The readers of the worklog ask in addition that the date is written the way
`isoformat` writes it. So a saved worklog can be read again exactly when the date has its hyphens.
-/

open WorkStack.Effect WorkStack.Effect.Outcome WorkStack.Python

namespace WorkStack.Service

section Commands

variable (I : Interpreter)

/-- `date or self._today()` -/
def dateOr (date : Option String) (clock : Clock) : String := pathOr date (clock.today 0)

/-- `dt.date.fromisoformat(date)` -/
def requireIsoDate (date : String) : Checked Unit :=
  match dateFromIsoFormat date with
  | some _ => .ok ()
  | none => valueError ("Invalid isoformat string: '" ++ date ++ "'")

/-- `re.match(r"^(?:[01]\d|2[0-3]):[0-5]\d$", time)`, where `$` also matches before a last line feed. -/
def isClockTime (time : String) : Bool :=
  let isDigit (c : Char) : Bool := (I.digit c).isSome
  let fits (a b c d e : Char) : Bool :=
    (((a == '0' || a == '1') && isDigit b) || (a == '2' && '0' ≤ b && b ≤ '3')) && c == ':' &&
      '0' ≤ d && d ≤ '5' && isDigit e
  match time.toList with
  | [a, b, c, d, e] => fits a b c d e
  | [a, b, c, d, e, '\n'] => fits a b c d e
  | _ => false

/-- `data.setdefault("days", {}).setdefault(date, {"entries": []})`, and the days it is in. -/
def dayAt (worklog : Record) (date : String) : Checked (Record × Record) := do
  let days ← recordAt worklog "days" []
  let day ← recordAt days date [("entries", .arr [])]
  pure (days, day)

/-- A worklog with one field of one day put in place. -/
def putInDay (worklog days day : Record) (date name : String) (value : Json) : Record :=
  worklog.set "days" (.obj (Dict.set date (.obj (Dict.set name value day)) days))

/-- `checkin` -/
def checkin (documents : Documents) (clock : Clock) (localTime : String) (time date : Option String) :
    Checked (Record × Documents) := do
  let date := dateOr date clock
  requireIsoDate date
  let time := time.getD localTime
  if isClockTime I time then do
    let (days, day) ← dayAt documents.worklog date
    let worklog := putInDay documents.worklog days day date "start_time" (.str time)
    pure ([("date", .str date), ("start_time", .str time)], { documents with worklog })
  else valueError "time must use HH:MM"

/-- `[str(item).strip() for item in items if str(item).strip()]` -/
def stripped (items : List String) : List String := (items.map I.strip).filter fun item ↦ item ≠ ""

/-- `add_worklog` -/
def addWorklog (documents : Documents) (clock : Clock) (taskId : String) (done next blockers : List String)
    (date : Option String) : Checked (Record × Documents) := do
  let task ← getTask I documents.backlog documents.activity taskId
  let date := dateOr date clock
  requireIsoDate date
  let (days, day) ← dayAt documents.worklog date
  let id ← field task "id"
  let title ← field task "title"
  let entry : Record := [("task_id", id), ("task", title), ("done", texts (stripped I done)),
    ("next", texts (stripped I next)), ("blockers", texts (stripped I blockers))]
  if stripped I done ++ stripped I next ++ stripped I blockers = [] then
    valueError "at least one worklog item is required"
  else do
    let entries ← field day "entries"
    let entries ← asList entries
    let worklog := putInDay documents.worklog days day date "entries" (.arr (entries ++ [.obj entry]))
    pure (("date", .str date) :: entry, { documents with worklog })

inductive DailyRequest where
  | checkin (localTime : String) (time date : Option String)
  | addWorklog (taskId : String) (done next blockers : List String) (date : Option String)

namespace DailyRequest

def apply (documents : Documents) (clock : Clock) : DailyRequest → Checked (Record × Documents)
  | .checkin localTime time date => Service.checkin I documents clock localTime time date
  | .addWorklog taskId done next blockers date => Service.addWorklog I documents clock taskId done next blockers date

/-- The date a request writes to. -/
def writtenDate (clock : Clock) : DailyRequest → String
  | .checkin _ _ date => dateOr date clock
  | .addWorklog _ _ _ _ date => dateOr date clock

end DailyRequest

/-- What both readers of the worklog accept: the projection of the checkpoints and the one of the sessions. -/
def Readable (worklog : Record) : Prop := Checkpoints.isEnvelope worklog = true ∧ Accepted I worklog

end Commands

variable {I : Interpreter}

/-! ## What is written -/

/-- What a request writes: one field of one day, either the start of the day or the list of its entries. -/
def WritesDay (before after : Record) (date : String) : Prop :=
  ∃ days day name value, dayAt before date = .ok (days, day) ∧ after = putInDay before days day date name value ∧
    (name = "start_time" ∨ name = "entries" ∧ ∃ entries, value = .arr entries)

theorem requireIsoDate_eq_ok {date : String} {result : Unit} :
    requireIsoDate date = .ok result ↔ (dateFromIsoFormat date).isSome := by
  unfold requireIsoDate
  cases dateFromIsoFormat date <;> simp [valueError]

/-- A request that is accepted writes to a day that `date.fromisoformat` reads. -/
theorem DailyRequest.writesDay {request : DailyRequest} {documents after : Documents} {clock : Clock} {answer : Record}
    (h : request.apply I documents clock = .ok (answer, after)) :
    (dateFromIsoFormat (request.writtenDate clock)).isSome ∧
      WritesDay documents.worklog after.worklog (request.writtenDate clock) := by
  cases request with
  | checkin localTime time date =>
      obtain ⟨_, hdate, h⟩ := bind_eq_ok.mp h
      refine ⟨requireIsoDate_eq_ok.mp hdate, ?_⟩
      dsimp only at h
      split at h
      · obtain ⟨⟨days, day⟩, hday, h⟩ := bind_eq_ok.mp h
        cases h
        exact ⟨days, day, _, _, hday, rfl, .inl rfl⟩
      · cases h
  | addWorklog taskId done next blockers date =>
      obtain ⟨task, -, h⟩ := bind_eq_ok.mp h
      obtain ⟨_, hdate, h⟩ := bind_eq_ok.mp h
      refine ⟨requireIsoDate_eq_ok.mp hdate, ?_⟩
      obtain ⟨⟨days, day⟩, hday, h⟩ := bind_eq_ok.mp h
      obtain ⟨id, -, h⟩ := bind_eq_ok.mp h
      obtain ⟨title, -, h⟩ := bind_eq_ok.mp h
      split at h
      · cases h
      · obtain ⟨value, -, h⟩ := bind_eq_ok.mp h
        obtain ⟨entries, -, h⟩ := bind_eq_ok.mp h
        cases h
        exact ⟨days, day, _, _, hday, rfl, .inr ⟨rfl, _, rfl⟩⟩

/-! ## What is read back -/

theorem fitsShape_mono {isDigit isOther : Char → Bool} (hmono : ∀ c, isDigit c = true → isOther c = true)
    {shape text : List Char} (h : fitsShape isDigit shape text = true) : fitsShape isOther shape text = true := by
  induction shape generalizing text with
  | nil =>
      cases text with
      | nil => rfl
      | cons c rest => cases h
  | cons s shape ih =>
      cases text with
      | nil => cases h
      | cons c rest =>
          simp only [fitsShape, Bool.and_eq_true] at h ⊢
          refine ⟨?_, ih h.2⟩
          split
          · rename_i hs
            simpa [hs] using hmono c (by simpa [hs] using h.1)
          · rename_i hs
            simpa [hs] using h.1

/-- The date of a day is accepted by the reader of the sessions as it is by the one of the checkpoints. -/
theorem reviewDate_iff {date : String} : (∃ read, reviewDate I (.str date) = .ok read) ↔ isIsoDate date = true := by
  constructor
  · intro ⟨read, h⟩
    simp only [reviewDate] at h
    split at h
    · split at h
      · assumption
      · cases h
    · cases h
  · intro h
    obtain ⟨year, month, day, hdate, htext⟩ := isIsoDate_iff_exists.mp h
    have hshape : I.isDateShape date = true := by
      unfold Interpreter.isDateShape
      rw [htext]
      apply fitsShape_mono _ (hasShape_dateText hdate)
      intro c hc
      rw [I.digit_readsAscii c hc]
      rfl
    exact ⟨date, by simp [reviewDate, hshape, h]⟩

theorem DayReadable.isIsoDate {date : String} {day : Json} (h : DayReadable I (date, day)) : isIsoDate date = true := by
  obtain ⟨candidates, h⟩ := h
  unfold workSessionDay at h
  apply (reviewDate_iff (I := I)).mp
  cases hdate : reviewDate I (.str date) with
  | error e => simp [hdate, corrupt] at h
  | ok read => exact ⟨read, rfl⟩

/-- The day of the first write of a date is readable where its date is. -/
theorem dayReadable_new {date name : String} {value : Json} (hname : name ≠ "sessions") :
    DayReadable I (date, .obj (Dict.set name value [("entries", .arr [])])) ↔ isIsoDate date = true := by
  constructor
  · exact DayReadable.isIsoDate
  · intro h
    obtain ⟨read, hread⟩ := (reviewDate_iff (I := I)).mpr h
    apply DayReadable.set_of_ne _ hname
    exact ⟨[], by simp [workSessionDay, hread, List.lookup]⟩

/-- A day that is there before a write, or the one that the write begins with. -/
theorem day_cases {days fields : Record} {date : String}
    (h : recordAt days date [("entries", .arr [])] = .ok fields) :
    days.get date = some (.obj fields) ∨ days.get date = none ∧ fields = [("entries", .arr [])] := by
  unfold recordAt at h
  cases hget : days.get date with
  | none =>
      rw [hget] at h
      cases h
      exact .inr ⟨rfl, rfl⟩
  | some day =>
      rw [hget] at h
      rw [asRecord_eq_ok.mp h]
      exact .inl rfl

/-- The sessions of a worklog are not touched by a write, so they stay well formed where the date is read. -/
theorem daysWellFormed_set_iff {days fields : Record} {date name : String} {value : Json} (h : DaysWellFormed I days)
    (hday : recordAt days date [("entries", .arr [])] = .ok fields) (hname : name ≠ "sessions") :
    DaysWellFormed I (Dict.set date (.obj (Dict.set name value fields)) days) ↔ isIsoDate date = true := by
  rcases day_cases hday with hget | ⟨hget, rfl⟩
  · obtain ⟨before, rest, hsplit, -⟩ := Dict.set_of_get_some hget (.obj fields)
    have hdate : isIsoDate date = true := (h.readable (date, .obj fields) (by simp [hsplit])).isIsoDate
    exact iff_of_true (h.set_day hget hname).1 hdate
  · have hnone : sessionsOf (.obj (Dict.set name value [("entries", .arr [])])) = [] :=
      sessionsOf_set_of_ne _ hname value
    have hentries : sessionEntries (days ++ [(date, .obj (Dict.set name value [("entries", .arr [])]))]) =
        sessionEntries days := by
      rw [sessionEntries_append, sessionEntries_cons, hnone]
      simp [sessionEntries]
    have hread : DayReadable I (date, .obj (Dict.set name value [("entries", .arr [])])) ↔ isIsoDate date = true :=
      dayReadable_new hname
    rw [Dict.set_of_get_none hget, ← hread]
    constructor
    · intro hafter
      exact hafter.readable _ (by simp)
    · intro hnew
      constructor
      · intro item hitem
        rcases List.mem_append.mp hitem with hitem | hitem
        · exact h.readable item hitem
        · rw [List.mem_singleton.mp hitem]
          exact hnew
      · rw [hentries]
        exact h.wellFormed
      · rw [hentries]
        exact h.distinct
      · rw [hentries]
        exact h.active

theorem isDay_set {date name : String} {value : Json} {fields : Record}
    (hfields : Checkpoints.isDay (date, .obj fields) = true ∨ fields = [("entries", .arr [])])
    (hfield : name = "start_time" ∨ name = "entries" ∧ ∃ entries, value = .arr entries) :
    Checkpoints.isDay (date, .obj (Dict.set name value fields)) = isIsoDate date := by
  rcases hfield with rfl | ⟨rfl, entries, rfl⟩
  · rw [Checkpoints.isDay, Dict.get_set_of_ne _ (by decide)]
    rcases hfields with hday | rfl
    · rw [Checkpoints.isDay, Bool.and_eq_true] at hday
      rw [hday.2, Bool.and_true]
    · simp [Dict.get, List.lookup]
  · rw [Checkpoints.isDay, Dict.get_set_self, Bool.and_true]

/-- The days of an envelope stay days where the date of the write is canonical. -/
theorem all_isDay_set_iff {days fields : Record} {date name : String} {value : Json}
    (h : days.all Checkpoints.isDay = true) (hday : recordAt days date [("entries", .arr [])] = .ok fields)
    (hfield : name = "start_time" ∨ name = "entries" ∧ ∃ entries, value = .arr entries) :
    (Dict.set date (.obj (Dict.set name value fields)) days).all Checkpoints.isDay = true ↔ isIsoDate date = true := by
  rw [List.all_eq_true] at h
  rcases day_cases hday with hget | ⟨hget, rfl⟩
  · obtain ⟨before, rest, hsplit, hset⟩ := Dict.set_of_get_some hget (.obj (Dict.set name value fields))
    have hold : Checkpoints.isDay (date, .obj fields) = true := h _ (by simp [hsplit])
    have hbefore : before.all Checkpoints.isDay = true := List.all_eq_true.mpr fun item hitem ↦ h item (by simp [hsplit, hitem])
    have hrest : rest.all Checkpoints.isDay = true := List.all_eq_true.mpr fun item hitem ↦ h item (by simp [hsplit, hitem])
    rw [hset, List.all_append, List.all_cons, hbefore, hrest, isDay_set (.inl hold) hfield]
    simp
  · rw [Dict.set_of_get_none hget, List.all_append, List.all_eq_true.mpr h, List.all_cons, isDay_set (.inr rfl) hfield]
    simp

/-- A write to a day keeps the worklog readable exactly when its date is canonical. -/
theorem readable_putInDay_iff {before after : Record} {date : String} (hbefore : Readable I before)
    (hwrites : WritesDay before after date) : Readable I after ↔ isIsoDate date = true := by
  obtain ⟨henvelope, sessions, hsessions⟩ := hbefore
  obtain ⟨days, hdays, hwellFormed, -⟩ := workSessionRecords_ok hsessions
  obtain ⟨days', day, name, value, hday, rfl, hfield⟩ := hwrites
  have hname : name ≠ "sessions" := by
    rcases hfield with rfl | ⟨rfl, -⟩ <;> decide
  obtain ⟨found, hfound, hday⟩ := bind_eq_ok.mp hday
  rw [recordAt, hdays] at hfound
  cases hfound
  obtain ⟨fields, hfields, hday⟩ := bind_eq_ok.mp hday
  cases hday
  have hall : days.all Checkpoints.isDay = true := by
    rwa [Checkpoints.isEnvelope, hdays] at henvelope
  have hget : (putInDay before days day date name value).get "days" =
      some (.obj (Dict.set date (.obj (Dict.set name value day)) days)) := Dict.get_set_self before "days" _
  rw [Readable, accepted_iff hget, daysWellFormed_set_iff hwellFormed hfields hname, Checkpoints.isEnvelope, hget]
  exact ⟨And.right, fun hdate ↦ ⟨(all_isDay_set_iff hall hfields hfield).mpr hdate, hdate⟩⟩

/-! ## Runs -/

/-- After a check-in or a worklog entry that was accepted the worklog can be read by both of its readers, as it
could before, exactly when the date has the shape `YYYY-MM-DD`. -/
theorem dailyWrite_readable_iff {documents after : Documents} {clock : Clock} {request : DailyRequest} {answer : Record}
    (h : request.apply I documents clock = .ok (answer, after)) (hbefore : Readable I documents.worklog) :
    Readable I after.worklog ↔ hasShape "dddd-dd-dd" (request.writtenDate clock).toList = true := by
  obtain ⟨hread, hwrites⟩ := DailyRequest.writesDay h
  rw [readable_putInDay_iff hbefore hwrites, isIsoDate_iff_hasShape hread]

/-! ## Samples -/

theorem sampleDocuments_readable : Readable asciiInterpreter sampleDocuments.worklog :=
  ⟨by decide, [], rfl⟩

/-- A check-in with hyphens in its date. -/
theorem sampleCheckin_readable : ∃ answer after,
    (DailyRequest.checkin "09:00" none (some "2026-09-01")).apply asciiInterpreter sampleDocuments
      (sampleClock (sampleMoment 0)) = .ok (answer, after) ∧ Readable asciiInterpreter after.worklog := by
  obtain ⟨answer, after, h⟩ : ∃ answer after,
      (DailyRequest.checkin "09:00" none (some "2026-09-01")).apply asciiInterpreter sampleDocuments
        (sampleClock (sampleMoment 0)) = .ok (answer, after) := ⟨_, _, rfl⟩
  exact ⟨answer, after, h, (dailyWrite_readable_iff h sampleDocuments_readable).mpr (by decide)⟩

/-- A check-in on `20260901` is accepted, and no reader accepts the worklog afterwards. -/
theorem compactDate_unreadable : Readable asciiInterpreter sampleDocuments.worklog ∧ ∃ answer after,
    (DailyRequest.checkin "09:00" none (some "20260901")).apply asciiInterpreter sampleDocuments
      (sampleClock (sampleMoment 0)) = .ok (answer, after) ∧
      Checkpoints.isEnvelope after.worklog = false ∧ ¬Accepted asciiInterpreter after.worklog := by
  refine ⟨sampleDocuments_readable, _, _, rfl, by decide, ?_⟩
  intro ⟨sessions, h⟩
  cases h

end WorkStack.Service
