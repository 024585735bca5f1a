import WorkStack.Service.SessionLadders

/-!
# Runs of work-session requests

Every saved worklog is read back. A start is accepted if its Task can be named in a session, pausing,
stopping and recording are always accepted, and a resumption is accepted exactly when the clock has not
gone back behind the end of the last segment.
-/

namespace WorkStack.Service

open Effect Effect.Outcome Python

variable {I : Interpreter}

/-! ## Writing into days -/

theorem sessionsOf_set (fields : Record) (sessions : List Json) :
    sessionsOf (.obj (Dict.set "sessions" (.arr sessions) fields)) = sessions := by
  have hget : List.lookup "sessions" (Dict.set "sessions" (.arr sessions) fields) = some (.arr sessions) :=
    Dict.get_set_self fields "sessions" _
  simp [sessionsOf, hget]

theorem sessionsOf_set_of_ne (fields : Record) {name : String} (h : name ≠ "sessions") (value : Json) :
    sessionsOf (.obj (Dict.set name value fields)) = sessionsOf (.obj fields) := by
  have hget : List.lookup "sessions" (Dict.set name value fields) = List.lookup "sessions" fields :=
    Dict.get_set_of_ne fields h value
  simp only [sessionsOf, hget]

variable {date : String}

/-- A day stays readable when a list of sessions is put into it. -/
theorem DayReadable.set_sessions {day : Json} (h : DayReadable I (date, day)) (fields : Record) (sessions : List Json) :
    DayReadable I (date, .obj (Dict.set "sessions" (.arr sessions) fields)) := by
  obtain ⟨candidates, hday⟩ := h
  have hget : List.lookup "sessions" (Dict.set "sessions" (.arr sessions) fields) = some (.arr sessions) :=
    Dict.get_set_self fields "sessions" _
  unfold workSessionDay at hday
  cases hdate : reviewDate I (.str date) with
  | error e => simp [hdate, corrupt] at hday
  | ok text => exact ⟨sessions, by simp [workSessionDay, hdate, hget]⟩

theorem DayReadable.set_of_ne {fields : Record} (h : DayReadable I (date, .obj fields)) {name : String}
    (hname : name ≠ "sessions") (value : Json) :
    DayReadable I (date, .obj (Dict.set name value fields)) := by
  obtain ⟨candidates, hday⟩ := h
  have hget : List.lookup "sessions" (Dict.set name value fields) = List.lookup "sessions" fields :=
    Dict.get_set_of_ne fields hname value
  exact ⟨candidates, by simpa only [workSessionDay, hget] using hday⟩

theorem sessionEntries_append (days others : Dict String Json) :
    sessionEntries (days ++ others) = sessionEntries days ++ sessionEntries others := by
  simp [sessionEntries]

variable {session : Record} {days : Dict String Json} {index : ℕ}

/-- Putting a session where another one was read changes that entry alone. -/
theorem sessionEntries_putSession {old : Json} (h : (sessionEntries days)[index]? = some (date, old)) :
    sessionEntries (putSession session index days) = (sessionEntries days).set index (date, .obj session) := by
  induction days generalizing index with
  | nil => simp [sessionEntries] at h
  | cons item rest ih =>
      obtain ⟨day, value⟩ := item
      rw [sessionEntries_cons] at h ⊢
      unfold putSession
      by_cases hindex : index < (sessionsOf value).length
      · rw [if_pos hindex]
        rw [List.getElem?_append_left (by simpa using hindex)] at h
        cases value with
        | obj fields =>
            have hdate : day = date := by
              simp only [List.getElem?_map, Option.map_eq_some_iff] at h
              obtain ⟨candidate, -, hpair⟩ := h
              exact congrArg Prod.fst hpair
            rw [sessionEntries_cons, sessionsOf_set, List.set_append_left _ _ (by simpa using hindex), hdate,
              List.map_set]
        | _ => simp [sessionsOf] at hindex
      · rw [if_neg hindex]
        have hle : ((sessionsOf value).map fun candidate ↦ (day, candidate)).length ≤ index := by
          simpa using hindex
        rw [List.getElem?_append_right hle, List.length_map] at h
        rw [sessionEntries_cons, ih h, List.set_append_right _ _ hle, List.length_map]

theorem readable_putSession (index : ℕ) (h : ∀ item ∈ days, DayReadable I item) :
    ∀ item ∈ putSession session index days, DayReadable I item := by
  induction days generalizing index with
  | nil => simp [putSession]
  | cons item rest ih =>
      obtain ⟨day, value⟩ := item
      have hitem := h _ (List.mem_cons_self ..)
      have hrest : ∀ other ∈ rest, DayReadable I other := fun other hother ↦ h other (List.mem_cons_of_mem _ hother)
      unfold putSession
      by_cases hindex : index < (sessionsOf value).length
      · rw [if_pos hindex]
        cases value with
        | obj fields => simpa using ⟨hitem.set_sessions fields _, fun a b hab ↦ hrest (a, b) hab⟩
        | _ => simp [sessionsOf] at hindex
      · rw [if_neg hindex]
        simpa using ⟨hitem, fun a b hab ↦ ih _ hrest (a, b) hab⟩

theorem entryId_obj (date : String) (session : Record) : entryId (date, .obj session) = sessionIdOf session := rfl

theorem entryActive_obj (date : String) (session : Record) :
    EntryActive (date, .obj session) ↔ isActive (stateOf session) := by
  simp [EntryActive]

/-- Where a session is replaced by one with the same id that is not more active, the days stay well
formed exactly when the new session is. -/
theorem DaysWellFormed.putSession_iff {session old : Record} (h : DaysWellFormed I days)
    (hold : (sessionEntries days)[index]? = some (date, .obj old)) (hid : sessionIdOf session = sessionIdOf old)
    (hactive : isActive (stateOf session) → isActive (stateOf old)) :
    DaysWellFormed I (putSession session index days) ↔ WellFormed I date session := by
  have hentries : sessionEntries (putSession session index days) =
      (sessionEntries days).set index (date, .obj session) := sessionEntries_putSession hold
  obtain ⟨hindex, hget⟩ := List.getElem?_eq_some_iff.mp hold
  constructor
  · intro hafter
    have hmem : (date, Json.obj session) ∈ sessionEntries (putSession session index days) := by
      rw [hentries]
      exact List.mem_set hindex _
    obtain ⟨other, hother, hwellFormed⟩ := hafter.wellFormed _ hmem
    cases hother
    exact hwellFormed
  · intro hsession
    constructor
    · exact readable_putSession index h.readable
    · intro entry hentry
      rw [hentries] at hentry
      rcases List.mem_or_eq_of_mem_set hentry with hentry | rfl
      · exact h.wellFormed entry hentry
      · exact ⟨session, rfl, hsession⟩
    · have hsame : ((sessionEntries days).map entryId).set index (entryId (date, .obj session)) =
          (sessionEntries days).map entryId := by
        rw [entryId_obj, hid, ← entryId_obj date old, ← hget]
        have hlength : index < ((sessionEntries days).map entryId).length := by simpa using hindex
        have hmap : entryId (sessionEntries days)[index] = ((sessionEntries days).map entryId)[index] := by simp
        rw [hmap, List.set_getElem_self]
      rw [hentries, List.map_set, hsame]
      exact h.distinct
    · rw [hentries, List.countP_set hindex, hget]
      have hcount := h.active
      have hpos : isActive (stateOf old) →
          0 < (sessionEntries days).countP fun entry ↦ decide (EntryActive entry) := by
        intro hactive
        rw [List.countP_pos_iff]
        exact ⟨(date, .obj old), List.mem_of_getElem? hold, by simpa [entryActive_obj] using hactive⟩
      simp only [entryActive_obj, decide_eq_true_eq]
      by_cases hnew : isActive (stateOf session)
      · have := hpos (hactive hnew)
        rw [if_pos hnew, if_pos (hactive hnew)]
        omega
      · rw [if_neg hnew]
        omega

/-- Where the sessions of a day gain one with a new id while none is active, the days stay well formed
exactly when that session is. -/
theorem DaysWellFormed.gain_iff {days after : Dict String Json} (h : DaysWellFormed I days)
    (hreadable : ∀ item ∈ after, DayReadable I item)
    (hperm : (sessionEntries after).Perm ((date, .obj session) :: sessionEntries days))
    (hnew : sessionIdOf session ∉ (sessionEntries days).map entryId)
    (hactive : ∀ entry ∈ sessionEntries days, ¬EntryActive entry) :
    DaysWellFormed I after ↔ WellFormed I date session := by
  constructor
  · intro hafter
    obtain ⟨other, hother, hwellFormed⟩ := hafter.wellFormed (date, .obj session)
      (hperm.mem_iff.mpr (List.mem_cons_self ..))
    cases hother
    exact hwellFormed
  · intro hsession
    constructor
    · exact hreadable
    · intro entry hentry
      rcases List.mem_cons.mp (hperm.mem_iff.mp hentry) with rfl | hentry
      · exact ⟨session, rfl, hsession⟩
      · exact h.wellFormed entry hentry
    · rw [(hperm.map entryId).nodup_iff, List.map_cons, List.nodup_cons]
      exact ⟨hnew, h.distinct⟩
    · have hzero : (sessionEntries days).countP (fun entry ↦ decide (EntryActive entry)) = 0 := by
        rw [List.countP_eq_zero]
        simpa using hactive
      rw [hperm.countP_eq, List.countP_cons, hzero]
      split <;> omega

/-! ## Ladders under the actions -/

variable {segments : List Json}

theorem Closed.append {previousEnd last : Option ℤ} {candidate : Json} {t : ℤ} (h : Closed I previousEnd segments last)
    (hends : SegmentEnds I candidate last (some t)) :
    Closed I previousEnd (segments ++ [candidate]) (some t) := by
  induction h with
  | nil previousEnd => exact .cons hends (.nil _)
  | cons ends ladder ih => exact .cons ends (ih hends)

/-- The end of the last segment of a session, if it has one. -/
def lastEnd (I : Interpreter) (session : Record) : Option ℤ :=
  match valueAt session "segments" with
  | .arr segments =>
      match segments.getLast? with
      | some (.obj segment) => (workSessionTimestamp I (valueAt segment "ended_at") "segment.ended_at").toOption
      | _ => none
  | _ => none

theorem Closed.exists_last {previousEnd last : Option ℤ} (h : Closed I previousEnd segments last)
    (hne : segments ≠ []) :
    ∃ fields t, segments.getLast? = some (.obj fields) ∧ last = some t ∧
      workSessionTimestamp I (valueAt fields "ended_at") "segment.ended_at" = .ok t := by
  induction h with
  | nil previousEnd => exact absurd rfl hne
  | @cons previousEnd last candidate rest t ends ladder ih =>
      cases rest with
      | nil =>
          cases ladder
          obtain ⟨start, value, -, -, ⟨fields, rfl, -, -, hvalue⟩, ht⟩ := ends
          exact ⟨fields, t, rfl, rfl, by rw [hvalue, ht]⟩
      | cons other others =>
          obtain ⟨fields, t', hlast, hend, ht⟩ := ih (by simp)
          exact ⟨fields, t', by simpa using hlast, hend, ht⟩

theorem Closed.unique {previousEnd last other : Option ℤ} (h : Closed I previousEnd segments last)
    (hother : Closed I previousEnd segments other) : last = other := by
  by_cases hne : segments = []
  · subst hne
    cases h
    cases hother
    rfl
  · obtain ⟨fields, t, hlast, rfl, ht⟩ := h.exists_last hne
    obtain ⟨fields', t', hlast', rfl, ht'⟩ := hother.exists_last hne
    rw [hlast] at hlast'
    cases hlast'
    rw [ht] at ht'
    cases ht'
    rfl

/-- The segment a start or a resumption opens. -/
abbrev openSegment (m : Moment) : Json := .obj [("started_at", .str m.utcNow), ("ended_at", .null)]

theorem openSegment_ends {previousEnd : Option ℤ} {m : Moment} :
    SegmentEnds I (openSegment m) previousEnd none ↔ Follows previousEnd m.seconds := by
  constructor
  · intro ⟨start, hfollows, fields, hfields, _, hstart, _⟩
    cases hfields
    have hutc := workSessionTimestamp_utcNow (I := I) m "segment.started_at"
    have hvalue : valueAt [("started_at", Json.str m.utcNow), ("ended_at", .null)] "started_at" = .str m.utcNow := rfl
    rw [hvalue, hutc] at hstart
    cases hstart
    exact hfollows
  · intro hfollows
    exact ⟨m.seconds, hfollows, _, rfl, rfl, workSessionTimestamp_utcNow m _, rfl⟩

/-- A ladder gains an open segment exactly when the segment does not start before its end. -/
theorem opened_append_iff {last : ℤ} (h : Closed I none segments (some last)) (m : Moment) :
    Opened I none (segments ++ [openSegment m]) ↔ last ≤ m.seconds := by
  constructor
  · intro ⟨before, candidate, ended, hsplit, hclosed, hopen⟩
    obtain ⟨hbefore, hcandidate⟩ := List.append_singleton_inj.mp hsplit
    subst hbefore hcandidate
    rw [← h.unique hclosed] at hopen
    exact openSegment_ends.mp hopen last rfl
  · intro hle
    refine ⟨segments, _, some last, rfl, h, openSegment_ends.mpr ?_⟩
    intro ended hended
    cases hended
    exact hle

theorem opened_single (m : Moment) : Opened I none [openSegment m] := by
  refine ⟨[], _, none, rfl, .nil _, openSegment_ends.mpr ?_⟩
  exact fun ended hended ↦ by cases hended

theorem segmentEnd_of_str {fields : Record} {text : String} {now : Option ℤ}
    (h : valueAt fields "ended_at" = .str text) :
    segmentEnd I fields now = workSessionTimestamp I (.str text) "segment.ended_at" := by
  unfold segmentEnd
  rw [h]

theorem elapsedFrom_ok {now : Option ℤ} {elapsed total : ℤ} (h : elapsedFrom I now elapsed segments = .ok total) :
    ∀ candidate ∈ segments, ∃ fields start ended, candidate = .obj fields ∧
      workSessionTimestamp I (valueAt fields "started_at") "segment.started_at" = .ok start ∧
      segmentEnd I fields now = .ok ended ∧ start ≤ ended := by
  induction segments generalizing elapsed with
  | nil => simp
  | cons candidate rest ih =>
      obtain ⟨fields, hfields, h⟩ := bind_eq_ok.mp h
      obtain ⟨startedAt, hstartedAt, h⟩ := bind_eq_ok.mp h
      obtain ⟨start, hstart, h⟩ := bind_eq_ok.mp h
      obtain ⟨ended, hended, h⟩ := bind_eq_ok.mp h
      split at h
      · cases h
      · rename_i horder
        intro other hother
        rcases List.mem_cons.mp hother with rfl | hother
        · refine ⟨fields, start, ended, asRecord_eq_ok.mp hfields, ?_, hended, by omega⟩
          rwa [valueAt_of_get (field_eq_ok.mp hstartedAt)]
        · exact ih h other hother

theorem hasExactly_set {record : Record} {names : List String} {name : String} {value : Json}
    (h : hasExactly record names) (hname : name ∈ names) : hasExactly (record.set name value) names := by
  have hkey : name ∈ record.keys := by
    simp only [hasExactly, Bool.and_eq_true, List.all_eq_true] at h
    simpa using h.2 name hname
  rwa [hasExactly, Dict.keys_set record value hkey]

/-- Closing the last segment of a ladder at a moment that its elapsed time allows. -/
theorem closed_closeLastSegment {segments after : List Json} {m : Moment} {now : Option ℤ} {elapsed : ℤ}
    (h : Opened I none segments) (hclose : closeLastSegment segments m.utcNow = .ok after)
    (helapsed : elapsedFrom I now 0 after = .ok elapsed) : after ≠ [] ∧ ∃ last, Closed I none after last := by
  obtain ⟨before, candidate, last, rfl, hclosed, start, hfollows, fields, rfl, hkeys, hstart, -⟩ := h
  have hlast : (before ++ [Json.obj fields]).getLast? = some (.obj fields) := by simp
  simp only [closeLastSegment, hlast, List.dropLast_concat] at hclose
  cases hclose
  obtain ⟨fields', start', ended, hfields', hstart', hended, horder⟩ := elapsedFrom_ok helapsed
    (.obj (Dict.set "ended_at" (.str m.utcNow) fields)) (by simp)
  cases hfields'
  have hstarted : valueAt (Dict.set "ended_at" (.str m.utcNow) fields) "started_at" = valueAt fields "started_at" := by
    rw [valueAt_set, if_neg (by decide)]
  have hended_at : valueAt (Dict.set "ended_at" (.str m.utcNow) fields) "ended_at" = .str m.utcNow := by
    rw [valueAt_set, if_pos rfl]
  rw [hstarted, hstart] at hstart'
  cases hstart'
  rw [segmentEnd_of_str hended_at, workSessionTimestamp_utcNow] at hended
  cases hended
  refine ⟨by simp, some m.seconds, hclosed.append ⟨start, .str m.utcNow, hfollows, horder, ?_, ?_⟩⟩
  · exact ⟨_, rfl, hasExactly_set hkeys (by simp), by rw [hstarted, hstart], hended_at⟩
  · exact workSessionTimestamp_utcNow m _

/-! ## Sessions under the requests -/

/-- The state of a session and its worklog state agree. -/
theorem workSessionState_of {state worklogState : String} (hstate : valueAt session "state" = .str state)
    (hmem : state ∈ ["running", "paused", "stopped"]) (hworklog : valueAt session "worklog_state" = .str worklogState)
    (hfits : worklogState ∈ worklogStates state) :
    workSessionState session = .ok state := by
  simp only [workSessionState, hstate, if_pos hmem, hworklog, if_pos hfits]

theorem stateText_of {state : String} (h : workSessionState session = .ok state) :
    valueAt session "state" = .str state := by
  unfold workSessionState at h
  split at h
  · rename_i text htext
    split at h
    · split at h
      · split at h
        · cases h
          exact htext
        · cases h
      · cases h
    · cases h
  · cases h

theorem worklogState_of {state : String} (h : workSessionState session = .ok state) :
    ∃ worklogState, valueAt session "worklog_state" = .str worklogState ∧ worklogState ∈ worklogStates state := by
  unfold workSessionState at h
  split at h
  · split at h
    · split at h
      · rename_i worklogState hworklog
        split at h
        · rename_i hfits
          cases h
          exact ⟨worklogState, hworklog, hfits⟩
        · cases h
      · cases h
    · cases h
  · cases h

/-- The fields of a session that no action changes. -/
def KeepsIdentity (before after : Record) : Prop :=
  ∀ name ∈ ["id", "date", "task_id", "task", "started_at"], valueAt after name = valueAt before name

theorem KeepsIdentity.sessionIdOf {before after : Record} (h : KeepsIdentity before after) :
    sessionIdOf after = sessionIdOf before := by
  rw [Service.sessionIdOf, Service.sessionIdOf, h "id" (by simp)]

/-- A session whose identity is kept is well formed exactly when what has changed is. -/
theorem WellFormed.keeps_iff {before after : Record} (h : WellFormed I date before)
    (hkeeps : KeepsIdentity before after) (hstate : workSessionState after = .ok (stateOf after))
    (hupdated : ∃ t, workSessionTimestamp I (valueAt after "updated_at") "updated_at" = .ok t) :
    WellFormed I date after ↔ LadderFits I after (stateOf after) := by
  constructor
  · exact fun hafter ↦ hafter.ladder
  · intro hladder
    have htask : workSessionTask I after = workSessionTask I before := by
      unfold workSessionTask
      rw [hkeeps "task_id" (by simp), hkeeps "task" (by simp)]
    exact {
      id := by simpa only [hkeeps "id" (by simp)] using h.id
      date := by simpa only [hkeeps "date" (by simp)] using h.date
      task := by rw [htask, h.task]
      state := hstate
      started := by simpa only [hkeeps "started_at" (by simp)] using h.started
      updated := hupdated
      ladder := hladder }

variable {action : SessionAction}

/-- What a session is after an action. -/
theorem sessionAfter_ok {before after : Record} {timestamp : String}
    (h : sessionAfter action before timestamp = .ok after) :
    ∃ segments, segmentsAfter action before timestamp = .ok segments ∧ KeepsIdentity before after ∧
      valueAt after "segments" = .arr segments ∧ valueAt after "state" = .str action.state ∧
      valueAt after "worklog_state" =
        (if action = .stop then .str "pending" else valueAt before "worklog_state") ∧
      valueAt after "updated_at" = .str timestamp := by
  obtain ⟨segments, hsegments, h⟩ := bind_eq_ok.mp h
  cases h
  refine ⟨segments, hsegments, ?_, ?_, ?_, ?_, ?_⟩
  · intro name hname
    simp only [List.mem_cons, List.not_mem_nil, or_false] at hname
    rcases hname with rfl | rfl | rfl | rfl | rfl <;> cases action <;> simp [valueAt_set]
  all_goals cases action <;> simp [valueAt_set]

theorem stateOf_eq {state : String} (h : valueAt session "state" = .str state) :
    stateOf session = state := by
  rw [stateOf, h]

/-- The condition under which an action leaves a well-formed session: a resumption must not read a
clock before the end of the last segment. -/
def ActionInOrder (I : Interpreter) (action : SessionAction) (session : Record) (m : Moment) : Prop :=
  action = .resume → ∀ ended, lastEnd I session = some ended → ended ≤ m.seconds

theorem workSessionElapsed_segments {currentTime : Option String} {elapsed : ℤ}
    (h : workSessionElapsed I session currentTime = .ok elapsed)
    (hsegments : valueAt session "segments" = .arr segments) :
    ∃ now, elapsedFrom I now 0 segments = .ok elapsed := by
  obtain ⟨now, -, h⟩ := bind_eq_ok.mp h
  obtain ⟨value, hvalue, h⟩ := bind_eq_ok.mp h
  obtain ⟨items, hitems, h⟩ := bind_eq_ok.mp h
  rw [valueAt_of_get (field_eq_ok.mp hvalue)] at hsegments
  rw [hsegments, asList_eq_ok] at hitems
  cases hitems
  exact ⟨now, h⟩

theorem elapsedFrom_of_project {session data : Record} {currentTime : Option String}
    (h : projectWorkSession I session currentTime = .ok data) (hsegments : valueAt session "segments" = .arr segments) :
    ∃ now elapsed, elapsedFrom I now 0 segments = .ok elapsed := by
  obtain ⟨before, -, h⟩ := bind_eq_ok.mp h
  obtain ⟨elapsed, helapsed, -⟩ := bind_eq_ok.mp h
  obtain ⟨now, hnow⟩ := workSessionElapsed_segments helapsed hsegments
  exact ⟨now, elapsed, hnow⟩

theorem segmentsAfter_ok {timestamp : String} {segments after : List Json}
    (h : segmentsAfter action session timestamp = .ok after) (hsegments : valueAt session "segments" = .arr segments) :
    if action = .resume then after = segments ++ [.obj [("started_at", .str timestamp), ("ended_at", .null)]]
    else if stateOf session = "running" then closeLastSegment segments timestamp = .ok after
    else after = segments := by
  obtain ⟨value, hvalue, h⟩ := bind_eq_ok.mp h
  obtain ⟨items, hitems, h⟩ := bind_eq_ok.mp h
  rw [valueAt_of_get (field_eq_ok.mp hvalue)] at hsegments
  rw [hsegments, asList_eq_ok] at hitems
  cases hitems
  by_cases hresume : action = .resume
  · rw [if_pos hresume] at h
    rw [if_pos hresume]
    cases h
    rfl
  · rw [if_neg hresume] at h
    rw [if_neg hresume]
    by_cases hrunning : stateOf session = "running"
    · rw [if_pos hrunning] at h ⊢
      exact h
    · rw [if_neg hrunning] at h ⊢
      cases h
      rfl

theorem allowed_subset {state : String} (h : state ∈ action.allowed) :
    state = "running" ∨ state = "paused" := by
  cases action <;> simp [SessionAction.allowed] at h <;> simp [h]

/-- The ladder of a session under an action. -/
theorem ladder_action_iff {before after data : Record} {m : Moment} (hladder : LadderFits I before (stateOf before))
    (hallowed : stateOf before ∈ action.allowed) (hsegments : segmentsAfter action before m.utcNow = .ok segments)
    (hafter : valueAt after "segments" = .arr segments)
    (hdata : projectWorkSession I after (some m.utcNow) = .ok data) :
    LadderFits I after action.state ↔ ActionInOrder I action before m := by
  obtain ⟨ladder, hne, hbefore, hladder⟩ := hladder
  have hcases := segmentsAfter_ok hsegments hbefore
  obtain ⟨now, elapsed, helapsed⟩ := elapsedFrom_of_project hdata hafter
  by_cases hresume : action = .resume
  · subst hresume
    have hpaused : stateOf before = "paused" := by simpa [SessionAction.allowed] using hallowed
    rw [hpaused, if_neg (by decide)] at hladder
    obtain ⟨last, hclosed⟩ := hladder
    rw [if_pos rfl] at hcases
    subst hcases
    obtain ⟨fields, t, hgetLast, rfl, ht⟩ := hclosed.exists_last hne
    have hlast : lastEnd I before = some t := by simp [lastEnd, hbefore, hgetLast, ht, Except.toOption]
    constructor
    · intro ⟨other, _, hother, hopen⟩ _ ended hended
      rw [hafter] at hother
      cases hother
      rw [hlast] at hended
      cases hended
      exact (opened_append_iff hclosed m).mp hopen
    · intro horder
      exact ⟨_, by simp, hafter, (opened_append_iff hclosed m).mpr (horder rfl t hlast)⟩
  · have hinOrder : ActionInOrder I action before m := fun heq ↦ absurd heq hresume
    have hnotRunning : action.state ≠ "running" := by
      cases action with
      | resume => exact absurd rfl hresume
      | pause | stop => decide
    refine iff_of_true ?_ hinOrder
    rw [if_neg hresume] at hcases
    by_cases hrunning : stateOf before = "running"
    · rw [if_pos hrunning] at hladder hcases
      obtain ⟨hafterNe, hclosed⟩ := closed_closeLastSegment hladder hcases helapsed
      exact ⟨segments, hafterNe, hafter, by rwa [if_neg hnotRunning]⟩
    · rw [if_neg hrunning] at hladder hcases
      subst hcases
      exact ⟨segments, hne, hafter, by rwa [if_neg hnotRunning]⟩

/-- An action that a state allows, and whose session can be projected, leaves a well-formed session
exactly when it is in order. -/
theorem WellFormed.action_iff {before after data : Record} {m : Moment} (h : WellFormed I date before)
    (hallowed : stateOf before ∈ action.allowed) (hafter : sessionAfter action before m.utcNow = .ok after)
    (hdata : projectWorkSession I after (some m.utcNow) = .ok data) :
    WellFormed I date after ↔ ActionInOrder I action before m := by
  obtain ⟨segments, hsegments, hkeeps, hafterSegments, hstate, hworklog, hupdated⟩ := sessionAfter_ok hafter
  obtain ⟨worklogState, hbeforeWorklog, hfits⟩ := worklogState_of h.state
  have hactive := allowed_subset hallowed
  have hnotReady : worklogState = "not_ready" := by simpa [worklogStates, hactive] using hfits
  have hstateOk : workSessionState after = .ok action.state := by
    by_cases hstop : action = .stop
    · subst hstop
      exact workSessionState_of hstate (by decide) (by simpa using hworklog) (by decide)
    · rw [if_neg hstop, hbeforeWorklog, hnotReady] at hworklog
      apply workSessionState_of hstate _ hworklog
      · cases action with
        | stop => exact absurd rfl hstop
        | pause | resume => decide
      · cases action <;> decide
  have hstateOf := stateOf_eq hstate
  have hupdatedOk : ∃ t, workSessionTimestamp I (valueAt after "updated_at") "updated_at" = .ok t :=
    ⟨m.seconds, by rw [hupdated, workSessionTimestamp_utcNow]⟩
  rw [h.keeps_iff hkeeps (by rw [hstateOf, hstateOk]) hupdatedOk, hstateOf]
  exact ladder_action_iff h.ladder hallowed hsegments hafterSegments hdata

/-! ## Saving steps -/

/-- The entry of a session that was found among those the reader read. -/
theorem entry_of_find {sessions : List Record} {wanted : String}
    (hentries : (sessionEntries days).map Prod.snd = sessions.map .obj)
    (hfind : find I (sessions.map .obj) wanted "work session" = .ok (index, session)) :
    ∃ date, (sessionEntries days)[index]? = some (date, .obj session) := by
  have hget := (find_spec I hfind).1
  rw [← hentries, List.getElem?_map, Option.map_eq_some_iff] at hget
  obtain ⟨⟨date, value⟩, hentry, hvalue⟩ := hget
  dsimp only at hvalue
  subst hvalue
  exact ⟨date, hentry⟩

theorem WellFormed.of_entry (h : DaysWellFormed I days)
    (hentry : (sessionEntries days)[index]? = some (date, .obj session)) :
    WellFormed I date session := by
  obtain ⟨other, hother, hwellFormed⟩ := h.wellFormed _ (List.mem_of_getElem? hentry)
  cases hother
  exact hwellFormed

theorem replaceSession_ok {worklog after : Record} (h : replaceSession worklog index session = .ok after)
    (hdays : worklog.get "days" = some (.obj days)) :
    after = worklog.set "days" (.obj (putSession session index days)) := by
  obtain ⟨found, hfound, h⟩ := bind_eq_ok.mp h
  obtain ⟨value, hvalue, hrecord⟩ := bind_eq_ok.mp hfound
  rw [field_eq_ok, hdays] at hvalue
  cases hvalue
  cases hrecord
  cases h
  rfl

/-- A saved replacement of a session is accepted exactly when the new session is well formed. -/
theorem accepted_replaceSession_iff {worklog after : Record} {session old : Record}
    (hdays : worklog.get "days" = some (.obj days)) (hwellFormed : DaysWellFormed I days)
    (hold : (sessionEntries days)[index]? = some (date, .obj old)) (hid : sessionIdOf session = sessionIdOf old)
    (hactive : isActive (stateOf session) → isActive (stateOf old))
    (hafter : replaceSession worklog index session = .ok after) :
    Accepted I after ↔ WellFormed I date session := by
  rw [replaceSession_ok hafter hdays, accepted_iff (Dict.get_set_self worklog "days" _)]
  exact hwellFormed.putSession_iff hold hid hactive

variable {documents after : Documents} {response : Response} {clock : Clock} {path : Option String}

/-- What a transition has read and written when it saves. -/
theorem transition_saved {sessionId action key : String}
    (h : transitionWorkSession I documents clock sessionId action key path = .ok ⟨response, some after⟩) :
    ∃ act sessions index session changed data, SessionAction.ofText action = some act ∧
      workSessionRecords I documents.worklog = .ok sessions ∧
      find I (sessions.map .obj) (I.upper (I.strip sessionId)) "work session" = .ok (index, session) ∧
      stateOf session ∈ act.allowed ∧ sessionAfter act session (clock.now 0).utcNow = .ok changed ∧
      replaceSession documents.worklog index changed = .ok after.worklog ∧
      projectWorkSession I changed (some (clock.now 0).utcNow) = .ok data := by
  obtain ⟨_, -, h⟩ := bind_eq_ok.mp h
  dsimp only at h
  cases hact : SessionAction.ofText action with
  | none => simp [hact, domainError] at h
  | some act =>
      rw [hact] at h
      have h := keyed_saved h
      obtain ⟨sessions, hsessions, h⟩ := bind_eq_ok.mp h
      obtain ⟨⟨index, session⟩, hfind, h⟩ := bind_eq_ok.mp h
      dsimp only at h
      split at h
      · rename_i hallowed
        obtain ⟨changed, hchanged, h⟩ := bind_eq_ok.mp h
        obtain ⟨worklog, hworklog, h⟩ := bind_eq_ok.mp h
        obtain ⟨data, hdata, h⟩ := bind_eq_ok.mp h
        obtain ⟨activity, -, h⟩ := bind_eq_ok.mp h
        cases h
        exact ⟨act, sessions, index, session, changed, data, rfl, hsessions, hfind, hallowed, hchanged,
          hworklog, hdata⟩
      · cases h

/-- A resumption must not read a clock that has gone back behind the end of the last segment. -/
def TransitionInOrder (I : Interpreter) (documents : Documents) (clock : Clock) (sessionId action : String) : Prop :=
  ∀ sessions index session act, workSessionRecords I documents.worklog = .ok sessions →
    find I (sessions.map .obj) (I.upper (I.strip sessionId)) "work session" = .ok (index, session) →
    SessionAction.ofText action = some act → ActionInOrder I act session (clock.now 0)

theorem transition_accepted_iff {sessionId action key : String}
    (h : transitionWorkSession I documents clock sessionId action key path = .ok ⟨response, some after⟩) :
    Accepted I after.worklog ↔ TransitionInOrder I documents clock sessionId action := by
  obtain ⟨act, sessions, index, session, changed, data, hact, hsessions, hfind, hallowed, hchanged, hworklog,
    hdata⟩ := transition_saved h
  obtain ⟨days, hdays, hwellFormed, hentries⟩ := workSessionRecords_ok hsessions
  obtain ⟨date, hentry⟩ := entry_of_find hentries hfind
  have hkeeps := (sessionAfter_ok hchanged).choose_spec.2.1
  rw [accepted_replaceSession_iff hdays hwellFormed hentry hkeeps.sessionIdOf (fun _ ↦ allowed_subset hallowed)
    hworklog, (WellFormed.of_entry hwellFormed hentry).action_iff hallowed hchanged hdata]
  constructor
  · intro horder sessions' index' session' act' hsessions' hfind' hact'
    rw [hsessions] at hsessions'
    cases hsessions'
    rw [hfind] at hfind'
    cases hfind'
    rw [hact] at hact'
    cases hact'
    exact horder
  · exact fun horder ↦ horder sessions index session act hsessions hfind hact

/-- Changing a day without changing its sessions keeps the days well formed. -/
theorem DaysWellFormed.set_day {date name : String} {fields : Record} {value : Json} (h : DaysWellFormed I days)
    (hday : days.get date = some (.obj fields)) (hname : name ≠ "sessions") :
    DaysWellFormed I (days.set date (.obj (Dict.set name value fields))) ∧
      sessionEntries (days.set date (.obj (Dict.set name value fields))) = sessionEntries days := by
  obtain ⟨before, rest, hsplit, hset⟩ := Dict.set_of_get_some hday (.obj (Dict.set name value fields))
  have hentries : sessionEntries (days.set date (.obj (Dict.set name value fields))) = sessionEntries days := by
    rw [hset, hsplit, sessionEntries_append, sessionEntries_append, sessionEntries_cons, sessionEntries_cons,
      sessionsOf_set_of_ne fields hname]
  refine ⟨?_, hentries⟩
  constructor
  · intro item hitem
    rw [hset] at hitem
    rcases List.mem_append.mp hitem with hitem | hitem
    · exact h.readable item (by simp [hsplit, hitem])
    · rcases List.mem_cons.mp hitem with rfl | hitem
      · exact (h.readable (date, .obj fields) (by simp [hsplit])).set_of_ne hname value
      · exact h.readable item (by simp [hsplit, hitem])
  · rw [hentries]
    exact h.wellFormed
  · rw [hentries]
    exact h.distinct
  · rw [hentries]
    exact h.active

theorem appendEntry_ok {worklog after : Record} {entry : Record} (h : appendEntry worklog date entry = .ok after)
    (hdays : worklog.get "days" = some (.obj days)) :
    ∃ fields entries, days.get date = some (.obj fields) ∧
      after = worklog.set "days" (.obj (days.set date (.obj (Dict.set "entries" (.arr entries) fields)))) := by
  obtain ⟨found, hfound, h⟩ := bind_eq_ok.mp h
  obtain ⟨value, hvalue, hrecord⟩ := bind_eq_ok.mp hfound
  rw [field_eq_ok, hdays] at hvalue
  cases hvalue
  cases hrecord
  obtain ⟨day, hday, h⟩ := bind_eq_ok.mp h
  obtain ⟨fields, hfields, h⟩ := bind_eq_ok.mp h
  obtain ⟨entries, -, h⟩ := bind_eq_ok.mp h
  cases h
  refine ⟨fields, entries ++ [.obj entry], ?_, rfl⟩
  rw [field_eq_ok.mp hday, asRecord_eq_ok.mp hfields]

/-- What a recording has read and written when it saves. -/
theorem record_saved {sessionId key : String} {body : Record}
    (h : recordWorkSession I documents clock sessionId body key path = .ok ⟨response, some after⟩) :
    ∃ sessions index session date entry worklog, workSessionRecords I documents.worklog = .ok sessions ∧
      find I (sessions.map .obj) (I.upper (I.strip sessionId)) "work session" = .ok (index, session) ∧
      stateOf session = "stopped" ∧ appendEntry documents.worklog date entry = .ok worklog ∧
      replaceSession worklog index ((session.set "worklog_state" (.str "recorded")).set "updated_at"
        (.str (clock.now 0).utcNow)) = .ok after.worklog := by
  obtain ⟨_, -, h⟩ := bind_eq_ok.mp h
  obtain ⟨done, -, h⟩ := bind_eq_ok.mp h
  obtain ⟨next, -, h⟩ := bind_eq_ok.mp h
  obtain ⟨blockers, -, h⟩ := bind_eq_ok.mp h
  split at h
  · cases h
  · have h := keyed_saved h
    obtain ⟨sessions, hsessions, h⟩ := bind_eq_ok.mp h
    obtain ⟨⟨index, session⟩, hfind, h⟩ := bind_eq_ok.mp h
    dsimp only at h
    split at h
    · rename_i hready
      obtain ⟨taskId, -, h⟩ := bind_eq_ok.mp h
      obtain ⟨task, -, h⟩ := bind_eq_ok.mp h
      obtain ⟨id, -, h⟩ := bind_eq_ok.mp h
      obtain ⟨elapsed, -, h⟩ := bind_eq_ok.mp h
      obtain ⟨date, -, h⟩ := bind_eq_ok.mp h
      cases date with
      | str date =>
          obtain ⟨worklog, hworklog, h⟩ := bind_eq_ok.mp h
          obtain ⟨replaced, hreplaced, h⟩ := bind_eq_ok.mp h
          obtain ⟨activity, -, h⟩ := bind_eq_ok.mp h
          cases h
          exact ⟨sessions, index, session, date, _, worklog, hsessions, hfind, hready.1, hworklog, hreplaced⟩
      | _ => cases h
    · cases h

theorem record_accepted {sessionId key : String} {body : Record}
    (h : recordWorkSession I documents clock sessionId body key path = .ok ⟨response, some after⟩) :
    Accepted I after.worklog := by
  obtain ⟨sessions, index, session, date, entry, worklog, hsessions, hfind, hstopped, hworklog, hreplaced⟩ :=
    record_saved h
  obtain ⟨days, hdays, hwellFormed, hentries⟩ := workSessionRecords_ok hsessions
  obtain ⟨place, hentry⟩ := entry_of_find hentries hfind
  obtain ⟨fields, entries, hday, rfl⟩ := appendEntry_ok hworklog hdays
  have hname : "entries" ≠ "sessions" := by decide
  obtain ⟨hwellFormed', hsame⟩ :
      DaysWellFormed I (Dict.set date (.obj (Dict.set "entries" (.arr entries) fields)) days) ∧
        sessionEntries (Dict.set date (.obj (Dict.set "entries" (.arr entries) fields)) days) =
          sessionEntries days := hwellFormed.set_day hday hname
  have hsession := WellFormed.of_entry hwellFormed hentry
  rw [← hsame] at hentry
  have hkeeps : KeepsIdentity session ((session.set "worklog_state" (.str "recorded")).set "updated_at"
      (.str (clock.now 0).utcNow)) := by
    intro name hname
    simp only [List.mem_cons, List.not_mem_nil, or_false] at hname
    rcases hname with rfl | rfl | rfl | rfl | rfl <;> simp [valueAt_set]
  generalize hchanged : (session.set "worklog_state" (.str "recorded")).set "updated_at"
    (.str (clock.now 0).utcNow) = changed at *
  have hstate : valueAt changed "state" = valueAt session "state" := by simp [← hchanged, valueAt_set]
  have hsegments : valueAt changed "segments" = valueAt session "segments" := by simp [← hchanged, valueAt_set]
  have hworklogState : valueAt changed "worklog_state" = .str "recorded" := by simp [← hchanged, valueAt_set]
  have hupdated : valueAt changed "updated_at" = .str (clock.now 0).utcNow := by simp [← hchanged, valueAt_set]
  have hstateOf : stateOf changed = stateOf session := by rw [stateOf, stateOf, hstate]
  rw [accepted_replaceSession_iff (Dict.get_set_self documents.worklog "days" _) hwellFormed' hentry
    hkeeps.sessionIdOf (fun hactive ↦ hstateOf ▸ hactive) hreplaced]
  have hstateOk : workSessionState changed = .ok (stateOf changed) := by
    rw [hstateOf, hstopped]
    apply workSessionState_of _ (by decide) hworklogState (by decide)
    rw [hstate]
    have htext := hsession.state
    rw [hstopped] at htext
    exact stateText_of htext
  rw [hsession.keeps_iff hkeeps hstateOk ⟨_, by rw [hupdated, workSessionTimestamp_utcNow]⟩, hstateOf]
  obtain ⟨segments, hne, hladder, hfits⟩ := hsession.ladder
  exact ⟨segments, hne, by rw [hsegments, hladder], hfits⟩

/-- What a start has read and written when it saves. -/
theorem start_saved {body : Record} {key path : String}
    (h : startWorkSession I documents clock body key path = .ok ⟨response, some after⟩) :
    ∃ text task taskId title sessions date id, valueAt body "task_id" = .str text ∧
      getTask I documents.backlog documents.activity (I.upper (I.strip text)) = .ok task ∧
      task.get "id" = some taskId ∧ task.get "title" = some title ∧
      workSessionRecords I documents.worklog = .ok sessions ∧
      (∀ session ∈ sessions, ¬isActive (stateOf session)) ∧
      reviewDate I (.str (clock.today 0)) = .ok date ∧
      nextId I (sessions.map .obj) ['W', 'S'] 6 = .ok id ∧
      appendSession documents.worklog date [("id", .str id), ("task_id", taskId), ("task", title),
        ("date", .str date), ("state", .str "running"), ("started_at", .str (clock.now 0).utcNow),
        ("updated_at", .str (clock.now 0).utcNow), ("segments", .arr [openSegment (clock.now 0)]),
        ("worklog_state", .str "not_ready")] = .ok after.worklog := by
  obtain ⟨_, -, h⟩ := bind_eq_ok.mp h
  dsimp only at h
  cases hbody : valueAt body "task_id" with
  | str text =>
      rw [hbody] at h
      dsimp only at h
      split at h
      · cases h
      · obtain ⟨task, htask, h⟩ := bind_eq_ok.mp h
        obtain ⟨taskId, htaskId, h⟩ := bind_eq_ok.mp h
        have h := keyed_saved h
        obtain ⟨sessions, hsessions, h⟩ := bind_eq_ok.mp h
        split at h
        · cases h
        · rename_i hidle
          obtain ⟨date, hdate, h⟩ := bind_eq_ok.mp h
          obtain ⟨id, hid, h⟩ := bind_eq_ok.mp h
          obtain ⟨title, htitle, h⟩ := bind_eq_ok.mp h
          obtain ⟨worklog, hworklog, h⟩ := bind_eq_ok.mp h
          obtain ⟨data, -, h⟩ := bind_eq_ok.mp h
          obtain ⟨activity, -, h⟩ := bind_eq_ok.mp h
          cases h
          exact ⟨text, task, taskId, title, sessions, date, id, rfl, htask, field_eq_ok.mp htaskId,
            field_eq_ok.mp htitle, hsessions, by simpa using hidle, hdate, hid, hworklog⟩
  | _ => simp [hbody, domainError] at h

/-- The Task of a start can be named in a session: its id is a Task id, and its title is not blank. -/
def Nameable (I : Interpreter) (task : Record) : Prop :=
  ∃ id title, task.get "id" = some (.str id) ∧ I.isNumbered ['T'] 1 id ∧
    task.get "title" = some (.str title) ∧ I.strip title ≠ ""

theorem workSessionTask_eq_ok :
    workSessionTask I session = .ok () ↔
      ∃ id title, valueAt session "task_id" = .str id ∧ I.isNumbered ['T'] 1 id ∧
        valueAt session "task" = .str title ∧ I.strip title ≠ "" := by
  unfold workSessionTask
  constructor
  · intro h
    split at h
    · rename_i id hid
      split at h
      · rename_i hnumbered
        split at h
        · rename_i title htitle
          split at h
          · cases h
          · rename_i hblank
            exact ⟨id, title, hid, hnumbered, htitle, hblank⟩
        · cases h
      · cases h
    · cases h
  · rintro ⟨id, title, hid, hnumbered, htitle, hblank⟩
    simp only [hid, if_pos hnumbered, htitle, if_neg hblank]

/-- A new running session is well formed exactly when its Task can be named. -/
theorem wellFormed_started_iff {id date : String} {taskId title : Json} {m : Moment}
    (hid : I.isNumbered ['W', 'S'] 6 id) :
    WellFormed I date [("id", .str id), ("task_id", taskId), ("task", title), ("date", .str date),
      ("state", .str "running"), ("started_at", .str m.utcNow), ("updated_at", .str m.utcNow),
      ("segments", .arr [openSegment m]), ("worklog_state", .str "not_ready")] ↔
    ∃ text name, taskId = .str text ∧ I.isNumbered ['T'] 1 text ∧ title = .str name ∧ I.strip name ≠ "" := by
  constructor
  · exact fun h ↦ workSessionTask_eq_ok.mp h.task
  · intro hnameable
    exact {
      id := ⟨id, rfl, hid⟩
      date := rfl
      task := workSessionTask_eq_ok.mpr hnameable
      state := rfl
      started := ⟨m.seconds, workSessionTimestamp_utcNow m _⟩
      updated := ⟨m.seconds, workSessionTimestamp_utcNow m _⟩
      ladder := ⟨[openSegment m], by simp, rfl, opened_single m⟩ }

theorem reviewDate_ok {value : Json} (h : reviewDate I value = .ok date) :
    reviewDate I (.str date) = .ok date := by
  unfold reviewDate at h
  split at h
  · split at h
    · split at h
      · rename_i hshape hdate
        cases h
        simp [reviewDate, hshape, hdate]
      · cases h
    · cases h
  · cases h

theorem sessionsOf_of_listAt {fields : Record} {sessions : List Json}
    (h : listAt fields "sessions" = .ok sessions) : sessionsOf (.obj fields) = sessions := by
  unfold listAt Dict.get at h
  unfold sessionsOf
  cases hget : List.lookup "sessions" fields with
  | none =>
      rw [hget] at h
      cases h
      simp [hget]
  | some value =>
      rw [hget] at h
      rw [asList_eq_ok.mp h] at hget
      simp [hget]

/-- Appending a session to a day adds its entry and keeps the days readable. -/
theorem appendSession_ok {worklog after : Record} (h : appendSession worklog date session = .ok after)
    (hdays : worklog.get "days" = some (.obj days)) (hreadable : ∀ item ∈ days, DayReadable I item)
    (hdate : reviewDate I (.str date) = .ok date) :
    ∃ changed, after = worklog.set "days" (.obj changed) ∧ (∀ item ∈ changed, DayReadable I item) ∧
      (sessionEntries changed).Perm ((date, .obj session) :: sessionEntries days) := by
  have hday : ∀ fields sessions, DayReadable I (date, .obj (Dict.set "sessions" (.arr sessions) fields)) := by
    intro fields sessions
    have hget : List.lookup "sessions" (Dict.set "sessions" (.arr sessions) fields) = some (.arr sessions) :=
      Dict.get_set_self fields "sessions" _
    exact ⟨sessions, by simp [workSessionDay, hdate, hget]⟩
  obtain ⟨found, hfound, h⟩ := bind_eq_ok.mp h
  rw [recordAt, hdays] at hfound
  cases hfound
  obtain ⟨fields, hfields, h⟩ := bind_eq_ok.mp h
  rw [recordAt] at hfields
  obtain ⟨sessions, hsessions, h⟩ := bind_eq_ok.mp h
  cases h
  refine ⟨_, rfl, ?_⟩
  cases hget : Dict.get days date with
  | some day =>
      rw [hget] at hfields
      rw [asRecord_eq_ok.mp hfields] at hget
      obtain ⟨before, rest, hsplit, hset⟩ := Dict.set_of_get_some hget
        (.obj (Dict.set "sessions" (.arr (sessions ++ [.obj session])) fields))
      rw [hset]
      constructor
      · intro item hitem
        rcases List.mem_append.mp hitem with hitem | hitem
        · exact hreadable item (by simp [hsplit, hitem])
        · rcases List.mem_cons.mp hitem with rfl | hitem
          · exact hday _ _
          · exact hreadable item (by simp [hsplit, hitem])
      · rw [hsplit, sessionEntries_append, sessionEntries_append, sessionEntries_cons, sessionEntries_cons,
          sessionsOf_set, sessionsOf_of_listAt hsessions, List.map_append, List.append_assoc, ← List.append_assoc]
        exact List.perm_middle.trans (by simp)
  | none =>
      rw [hget] at hfields
      cases hfields
      cases hsessions
      rw [Dict.set_of_get_none hget]
      constructor
      · intro item hitem
        rcases List.mem_append.mp hitem with hitem | hitem
        · exact hreadable item hitem
        · rw [List.mem_singleton.mp hitem]
          exact hday _ _
      · rw [sessionEntries_append, sessionEntries_cons, sessionsOf_set]
        simp [sessionEntries]

/-- A start needs a Task that can be named. -/
def StartInOrder (I : Interpreter) (documents : Documents) (body : Record) : Prop :=
  ∀ text task, valueAt body "task_id" = .str text →
    getTask I documents.backlog documents.activity (I.upper (I.strip text)) = .ok task → Nameable I task

theorem start_accepted_iff {body : Record} {key path : String}
    (h : startWorkSession I documents clock body key path = .ok ⟨response, some after⟩) :
    Accepted I after.worklog ↔ StartInOrder I documents body := by
  obtain ⟨text, task, taskId, title, sessions, date, id, hbody, htask, htaskId, htitle, hsessions, hidle, hdate,
    hid, hworklog⟩ := start_saved h
  obtain ⟨days, hdays, hwellFormed, hentries⟩ := workSessionRecords_ok hsessions
  obtain ⟨hnumbered, hfresh⟩ := nextId_fresh I hid
  obtain ⟨changed, hchanged, hreadable, hperm⟩ :=
    appendSession_ok hworklog hdays hwellFormed.readable (reviewDate_ok hdate)
  have hnew : sessionIdOf [("id", .str id), ("task_id", taskId), ("task", title), ("date", .str date),
      ("state", .str "running"), ("started_at", .str (clock.now 0).utcNow),
      ("updated_at", .str (clock.now 0).utcNow), ("segments", .arr [openSegment (clock.now 0)]),
      ("worklog_state", .str "not_ready")] ∉ (sessionEntries days).map entryId := by
    intro hmem
    obtain ⟨⟨place, candidate⟩, hentry, hsame⟩ := List.mem_map.mp hmem
    obtain ⟨session, rfl, hsession⟩ := hwellFormed.wellFormed _ hentry
    obtain ⟨other, hother, -⟩ := hsession.id
    have hread : Json.obj session ∈ sessions.map Json.obj := by
      rw [← hentries]
      exact List.mem_map_of_mem (f := Prod.snd) hentry
    apply hfresh session hread
    rw [idText, get_of_valueAt (by rw [hother]; simp), hother]
    change other = id
    rw [← sessionIdOf_eq hother]
    exact hsame
  have hactive : ∀ entry ∈ sessionEntries days, ¬EntryActive entry := by
    intro entry hentry ⟨session, hsession, hactive⟩
    have hread : Json.obj session ∈ sessions.map Json.obj := by
      rw [← hentries, ← hsession]
      exact List.mem_map_of_mem (f := Prod.snd) hentry
    obtain ⟨found, hfound, heq⟩ := List.mem_map.mp hread
    cases heq
    exact hidle session hfound hactive
  rw [hchanged, accepted_iff (Dict.get_set_self documents.worklog "days" _),
    hwellFormed.gain_iff hreadable hperm hnew hactive, wellFormed_started_iff hnumbered]
  constructor
  · intro ⟨id', name, hid', hnumbered', hname, hblank⟩ text' task' hbody' htask'
    rw [hbody] at hbody'
    cases hbody'
    rw [htask] at htask'
    cases htask'
    exact ⟨id', name, hid' ▸ htaskId, hnumbered', hname ▸ htitle, hblank⟩
  · intro horder
    obtain ⟨id', name, hid', hnumbered', hname, hblank⟩ := horder text task hbody htask
    rw [htaskId] at hid'
    cases hid'
    rw [htitle] at hname
    cases hname
    exact ⟨id', name, rfl, hnumbered', rfl, hblank⟩

/-! ## Runs -/

/-- The documents a request saves at some readings of the clock. -/
def serveSession (I : Interpreter) (documents : Documents) (request : Clock × SessionRequest) : Option Documents :=
  match request.2.apply I documents request.1 with
  | .ok served => served.saved
  | .error _ => none

/-- What a request needs, besides being accepted, to leave a worklog the reader accepts. -/
def InOrder (I : Interpreter) (documents : Documents) : Clock × SessionRequest → Prop
  | (_, .start body _ _) => StartInOrder I documents body
  | (clock, .transition sessionId action _ _) => TransitionInOrder I documents clock sessionId action
  | (_, .record _ _ _ _) => True

theorem serveSession_accepted_iff {request : Clock × SessionRequest}
    (h : serveSession I documents request = some after) :
    Accepted I after.worklog ↔ InOrder I documents request := by
  obtain ⟨clock, request⟩ := request
  unfold serveSession at h
  split at h
  · rename_i served hserved
    obtain ⟨response, saved⟩ := served
    dsimp only at h
    subst h
    cases request with
    | start body key path => exact start_accepted_iff hserved
    | transition sessionId action key path => exact transition_accepted_iff hserved
    | record sessionId body key path => exact iff_of_true (record_accepted hserved) trivial
  · cases h

/-- In a run of work-session requests every saved worklog is accepted by the reader exactly when every
saving request is in order. -/
theorem sessions_wellFormed_iff (I : Interpreter) (start : Documents) (run : List (Clock × SessionRequest)) :
    (∀ after ∈ Requests.saved (serveSession I) start run, Accepted I after.worklog) ↔
      ∀ step ∈ Requests.savingSteps (serveSession I) start run, InOrder I step.1 step.2 :=
  Requests.forall_saved_iff fun _ _ _ ↦ serveSession_accepted_iff

/-! ## A clock that steps back -/

/-- A session is started, paused at second 30, and resumed when the clock reads second 10. -/
def backwardRun : List (Clock × SessionRequest) := [
  (sampleClock (sampleMoment 0), .start [("task_id", .str "T-0001")] "start-0001" "/api/v1/work-sessions"),
  (sampleClock (sampleMoment 30), .transition "WS-000001" "pause" "pause-0001" none),
  (sampleClock (sampleMoment 10), .transition "WS-000001" "resume" "resume-001" none)]

theorem backwardRun_rejected : ∃ after ∈ Requests.saved (serveSession asciiInterpreter) sampleDocuments backwardRun,
    ¬Accepted asciiInterpreter after.worklog := by
  have hrun : (Requests.saved (serveSession asciiInterpreter) sampleDocuments backwardRun).any
      (fun after ↦ !(workSessionRecords asciiInterpreter after.worklog).isOk) = true := by decide +kernel
  obtain ⟨after, hafter, hrejected⟩ := List.any_eq_true.mp hrun
  refine ⟨after, hafter, ?_⟩
  intro ⟨sessions, hsessions⟩
  simp [hsessions, Except.isOk, Except.toBool] at hrejected

end WorkStack.Service
