import WorkStack.Effect.Requests
import WorkStack.Service.WorkSessions

/-!
# Well-formed worklogs

What the reader of work sessions accepts, said without its scan: every session stands under its own
date and is well formed by itself, the ids differ, and at most one session is active. A session is
running exactly when its ladder ends in an open segment.
-/

namespace WorkStack.Service

open Effect.Outcome Python

variable {I : Interpreter}

/-! ## Segments -/

theorem workSessionTimestamp_utcNow (m : Moment) (name : String) :
    workSessionTimestamp I (.str m.utcNow) name = .ok m.seconds := by
  have hlast : m.utcNow.toList.getLast? = some 'Z' := by simp [Moment.utcNow]
  simp [workSessionTimestamp, hlast, I.parseUtc_utcNow]

/-- A segment of a ladder: where it starts and what it says of its end. -/
def IsSegment (I : Interpreter) (candidate : Json) (start : ℤ) (ended : Json) : Prop :=
  ∃ fields, candidate = .obj fields ∧ hasExactly fields ["started_at", "ended_at"] ∧
    workSessionTimestamp I (valueAt fields "started_at") "segment.started_at" = .ok start ∧
    valueAt fields "ended_at" = ended

/-- A segment does not start before the one before it ended. -/
def Follows (previousEnd : Option ℤ) (start : ℤ) : Prop := ∀ ended, previousEnd = some ended → ended ≤ start

/-- What the reader makes of a segment: it is open, or it ends. -/
def SegmentEnds (I : Interpreter) (candidate : Json) (previousEnd : Option ℤ) : Option ℤ → Prop
  | none => ∃ start, Follows previousEnd start ∧ IsSegment I candidate start .null
  | some t => ∃ start value, Follows previousEnd start ∧ start ≤ t ∧ IsSegment I candidate start value ∧
      workSessionTimestamp I value "segment.ended_at" = .ok t

theorem not_any_iff_follows {previousEnd : Option ℤ} {start : ℤ} :
    ¬(previousEnd.any fun ended ↦ decide (start < ended)) ↔ Follows previousEnd start := by
  cases previousEnd <;> simp [Follows]

theorem workSessionSegment_ok {candidate : Json} {index count : ℕ} {previousEnd ended : Option ℤ}
    (h : workSessionSegment I candidate index count previousEnd = .ok ended) :
    SegmentEnds I candidate previousEnd ended ∧ (ended = none → index + 1 = count) := by
  unfold workSessionSegment at h
  split at h
  · rename_i fields
    split at h
    · rename_i hkeys
      obtain ⟨start, hstart, h⟩ := bind_eq_ok.mp h
      split at h
      · cases h
      · rename_i hfollows
        have hfollows := not_any_iff_follows.mp hfollows
        split at h
        · rename_i hnull
          split at h
          · rename_i hcount
            cases h
            exact ⟨⟨start, hfollows, fields, rfl, hkeys, hstart, hnull⟩, fun _ ↦ hcount⟩
          · cases h
        · obtain ⟨t, ht, h⟩ := bind_eq_ok.mp h
          split at h
          · cases h
          · rename_i horder
            cases h
            refine ⟨⟨start, _, hfollows, by omega, ⟨fields, rfl, hkeys, hstart, rfl⟩, ht⟩, ?_⟩
            exact fun hnone ↦ by cases hnone
    · cases h
  · cases h

theorem workSessionSegment_of_ends {candidate : Json} {index count : ℕ} {previousEnd ended : Option ℤ}
    (h : SegmentEnds I candidate previousEnd ended) (hcount : ended = none → index + 1 = count) :
    workSessionSegment I candidate index count previousEnd = .ok ended := by
  cases ended with
  | none =>
      obtain ⟨start, hfollows, fields, rfl, hkeys, hstart, hnull⟩ := h
      have hany := not_any_iff_follows.mpr hfollows
      simp only [workSessionSegment, if_pos hkeys, hstart, ok_bind, if_neg hany, hnull, if_pos (hcount rfl)]
      rfl
  | some t =>
      obtain ⟨start, value, hfollows, horder, ⟨fields, rfl, hkeys, hstart, hvalue⟩, ht⟩ := h
      have hany := not_any_iff_follows.mpr hfollows
      have horder : ¬t < start := by omega
      simp only [workSessionSegment, if_pos hkeys, hstart, ok_bind, if_neg hany, hvalue]
      cases value with
      | null => cases ht
      | _ =>
          simp only [ht, ok_bind, if_neg horder]
          rfl

/-! ## Ladders -/

/-- The end of a ladder of closed segments, where the ladder before it ended at `previousEnd`. -/
inductive Closed (I : Interpreter) : Option ℤ → List Json → Option ℤ → Prop
  | nil (previousEnd : Option ℤ) : Closed I previousEnd [] previousEnd
  | cons {previousEnd last : Option ℤ} {candidate : Json} {rest : List Json} {t : ℤ}
      (ends : SegmentEnds I candidate previousEnd (some t)) (ladder : Closed I (some t) rest last) :
      Closed I previousEnd (candidate :: rest) last

/-- A ladder whose last segment is open. -/
def Opened (I : Interpreter) (previousEnd : Option ℤ) (segments : List Json) : Prop :=
  ∃ before candidate last, segments = before ++ [candidate] ∧ Closed I previousEnd before last ∧
    SegmentEnds I candidate last none

theorem openSegments_ok {segments : List Json} {count index n : ℕ} {previousEnd : Option ℤ}
    (hcount : index + segments.length = count) (h : openSegments I count index previousEnd segments = .ok n) :
    (n = 0 ∧ ∃ last, Closed I previousEnd segments last) ∨ (n = 1 ∧ Opened I previousEnd segments) := by
  induction segments generalizing index previousEnd n with
  | nil =>
      cases h
      exact .inl ⟨rfl, previousEnd, .nil previousEnd⟩
  | cons candidate rest ih =>
      obtain ⟨ended, hsegment, h⟩ := bind_eq_ok.mp h
      obtain ⟨others, hothers, h⟩ := bind_eq_ok.mp h
      obtain ⟨hends, hindex⟩ := workSessionSegment_ok hsegment
      cases h
      rw [List.length_cons] at hcount
      cases ended with
      | none =>
          have hrest : rest = [] := List.eq_nil_of_length_eq_zero (by have := hindex rfl; omega)
          subst hrest
          cases hothers
          exact .inr ⟨rfl, [], candidate, previousEnd, rfl, .nil previousEnd, hends⟩
      | some t =>
          rcases ih (by omega) hothers with ⟨hn, last, hclosed⟩ | ⟨hn, before, other, last, hsplit, hclosed, hopen⟩
          · exact .inl ⟨by simpa using hn, last, .cons hends hclosed⟩
          · refine .inr ⟨by simpa using hn, candidate :: before, other, last, ?_, .cons hends hclosed, hopen⟩
            rw [hsplit, List.cons_append]

theorem openSegments_closed {segments : List Json} {count index : ℕ} {previousEnd last : Option ℤ}
    (h : Closed I previousEnd segments last) : openSegments I count index previousEnd segments = .ok 0 := by
  induction h generalizing index with
  | nil previousEnd => rfl
  | cons ends ladder ih =>
      have hsegment : workSessionSegment I _ index count _ = .ok _ :=
        workSessionSegment_of_ends ends fun hnone ↦ by cases hnone
      rw [openSegments, hsegment, ok_bind, ih, ok_bind]
      rfl

theorem openSegments_opened {segments : List Json} {count index : ℕ} {previousEnd : Option ℤ}
    (h : Opened I previousEnd segments) (hcount : index + segments.length = count) :
    openSegments I count index previousEnd segments = .ok 1 := by
  obtain ⟨before, candidate, last, rfl, hclosed, hopen⟩ := h
  induction hclosed generalizing index with
  | nil previousEnd =>
      have hsegment : workSessionSegment I _ index count _ = .ok _ :=
        workSessionSegment_of_ends hopen fun _ ↦ by simpa using hcount
      rw [List.nil_append, openSegments, hsegment]
      rfl
  | cons ends ladder ih =>
      have hsegment : workSessionSegment I _ index count _ = .ok _ :=
        workSessionSegment_of_ends ends fun hnone ↦ by cases hnone
      simp only [List.cons_append, List.length_cons] at hcount
      rw [List.cons_append, openSegments, hsegment, ok_bind, ih (by omega) hopen, ok_bind]
      rfl

/-- The ladder of a session agrees with its state. -/
def LadderFits (I : Interpreter) (session : Record) (state : String) : Prop :=
  ∃ segments, segments ≠ [] ∧ valueAt session "segments" = .arr segments ∧
    if state = "running" then Opened I none segments else ∃ last, Closed I none segments last

variable {session : Record}

theorem validateWorkSessionSegments_eq_ok {state : String} (hstate : state ∈ ["running", "paused", "stopped"]) :
    validateWorkSessionSegments I session state = .ok () ↔ LadderFits I session state := by
  have hrest : state ≠ "running" → state ∈ ["paused", "stopped"] := by
    intro hrunning
    simpa [hrunning] using hstate
  constructor
  · intro h
    unfold validateWorkSessionSegments at h
    split at h
    · rename_i segment segments hsegments
      obtain ⟨opened, hopened, h⟩ := bind_eq_ok.mp h
      refine ⟨segment :: segments, by simp, hsegments, ?_⟩
      have hlength : 0 + (segment :: segments).length = segments.length + 1 := by simp
      have hcases := openSegments_ok hlength hopened
      split at h
      · cases h
      · rename_i hagrees
        by_cases hrunning : state = "running"
        · rw [if_pos hrunning]
          have hopened : opened = 1 := by simpa [hrunning] using hagrees
          exact (hcases.resolve_left fun hclosed ↦ by omega).2
        · rw [if_neg hrunning]
          have hopened : opened ≠ 1 := by simpa [hrunning] using hagrees
          exact (hcases.resolve_right fun hopen ↦ hopened hopen.1).2
    · cases h
  · intro ⟨segments, hne, hsegments, hladder⟩
    unfold validateWorkSessionSegments
    cases segments with
    | nil => exact absurd rfl hne
    | cons segment segments =>
        rw [hsegments]
        dsimp only
        by_cases hrunning : state = "running"
        · rw [if_pos hrunning] at hladder
          rw [openSegments_opened hladder (by simp), ok_bind]
          simp [hrunning]
          rfl
        · rw [if_neg hrunning] at hladder
          obtain ⟨last, hclosed⟩ := hladder
          rw [openSegments_closed hclosed, ok_bind]
          simp [hrunning]
          rfl

/-! ## Sessions -/

/-- A session is well formed by itself, under the date it stands at. -/
structure WellFormed (I : Interpreter) (date : String) (session : Record) : Prop where
  id : ∃ id, valueAt session "id" = .str id ∧ I.isNumbered ['W', 'S'] 6 id
  date : valueAt session "date" = .str date
  task : workSessionTask I session = .ok ()
  state : workSessionState session = .ok (stateOf session)
  started : ∃ t, workSessionTimestamp I (valueAt session "started_at") "started_at" = .ok t
  updated : ∃ t, workSessionTimestamp I (valueAt session "updated_at") "updated_at" = .ok t
  ladder : LadderFits I session (stateOf session)

/-- The id of a session that has been read. -/
def sessionIdOf (session : Record) : String :=
  match valueAt session "id" with
  | .str id => id
  | _ => ""

theorem workSessionState_ok {state : String} (h : workSessionState session = .ok state) :
    stateOf session = state ∧ state ∈ ["running", "paused", "stopped"] := by
  unfold workSessionState at h
  split at h
  · rename_i text htext
    split at h
    · rename_i hstate
      split at h
      · split at h
        · cases h
          exact ⟨by rw [stateOf, htext], hstate⟩
        · cases h
      · cases h
    · cases h
  · cases h

theorem workSessionId_eq_ok {seen : List String} {id : String} :
    workSessionId I session seen = .ok id ↔
      valueAt session "id" = .str id ∧ I.isNumbered ['W', 'S'] 6 id ∧ id ∉ seen := by
  unfold workSessionId
  split
  · rename_i text htext
    rw [htext]
    split
    · rename_i hid
      constructor
      · intro h
        cases h
        exact ⟨rfl, hid⟩
      · rintro ⟨heq, -⟩
        cases heq
        rfl
    · rename_i hid
      constructor
      · exact fun h ↦ by cases h
      · rintro ⟨heq, hnumbered⟩
        cases heq
        exact absurd hnumbered hid
  · rename_i hother
    constructor
    · exact fun h ↦ by cases h
    · rintro ⟨heq, -⟩
      exact absurd heq (hother id)

theorem sessionIdOf_eq {id : String} (h : valueAt session "id" = .str id) :
    sessionIdOf session = id := by
  rw [sessionIdOf, h]

/-- What the reader accepts is well formed, and its id is new. -/
theorem wellFormed_of_header {candidate : Json} {date id state : String} {seen : List String}
    (h : workSessionHeader I candidate date seen = .ok (session, id, state))
    (hladder : validateWorkSessionSegments I session state = .ok ()) :
    candidate = .obj session ∧ WellFormed I date session ∧ id = sessionIdOf session ∧
      state = stateOf session ∧ id ∉ seen := by
  unfold workSessionHeader at h
  split at h
  · obtain ⟨found, hid, h⟩ := bind_eq_ok.mp h
    split at h
    · rename_i hdate
      obtain ⟨_, htask, h⟩ := bind_eq_ok.mp h
      obtain ⟨_, hstate, h⟩ := bind_eq_ok.mp h
      obtain ⟨started, hstarted, h⟩ := bind_eq_ok.mp h
      obtain ⟨updated, hupdated, h⟩ := bind_eq_ok.mp h
      cases h
      obtain ⟨htext, hnumbered, hseen⟩ := workSessionId_eq_ok.mp hid
      obtain ⟨hstateOf, hmem⟩ := workSessionState_ok hstate
      refine ⟨rfl, ?_, (sessionIdOf_eq htext).symm, hstateOf.symm, hseen⟩
      exact {
        id := ⟨id, htext, hnumbered⟩
        date := Json.same_str_left.mp hdate
        task := htask
        state := hstateOf.symm ▸ hstate
        started := ⟨started, hstarted⟩
        updated := ⟨updated, hupdated⟩
        ladder := hstateOf.symm ▸ (validateWorkSessionSegments_eq_ok hmem).mp hladder }
    · cases h
  · cases h

theorem header_of_wellFormed {date : String} {seen : List String} (h : WellFormed I date session)
    (hseen : sessionIdOf session ∉ seen) :
    workSessionHeader I (.obj session) date seen = .ok (session, sessionIdOf session, stateOf session) ∧
      validateWorkSessionSegments I session (stateOf session) = .ok () := by
  obtain ⟨id, htext, hnumbered⟩ := h.id
  obtain ⟨started, hstarted⟩ := h.started
  obtain ⟨updated, hupdated⟩ := h.updated
  rw [sessionIdOf_eq htext] at hseen ⊢
  have hid := workSessionId_eq_ok.mpr ⟨htext, hnumbered, hseen⟩
  have hdate : Json.same (.str date) (valueAt session "date") = true := Json.same_str_left.mpr h.date
  refine ⟨?_, (validateWorkSessionSegments_eq_ok (workSessionState_ok h.state).2).mpr h.ladder⟩
  simp only [workSessionHeader, hid, ok_bind, if_pos hdate, h.task, h.state, hstarted, hupdated]
  rfl

/-! ## Worklogs -/

/-- The sessions of all days with the dates they stand at, in the order of the reader. -/
def sessionEntries (days : Dict String Json) : List (String × Json) :=
  days.flatMap fun item ↦ (sessionsOf item.2).map fun candidate ↦ (item.1, candidate)

def entryId (entry : String × Json) : String :=
  match entry.2 with
  | .obj session => sessionIdOf session
  | _ => ""

def EntryActive (entry : String × Json) : Prop := ∃ session, entry.2 = .obj session ∧ isActive (stateOf session)

def EntryWellFormed (I : Interpreter) (entry : String × Json) : Prop :=
  ∃ session, entry.2 = .obj session ∧ WellFormed I entry.1 session

/-- A day the reader can read. -/
def DayReadable (I : Interpreter) (item : String × Json) : Prop :=
  ∃ candidates, workSessionDay I item.1 item.2 = .ok candidates

instance (entry : String × Json) : Decidable (EntryActive entry) := by
  unfold EntryActive
  match entry.2 with
  | .obj session => exact decidable_of_iff (isActive (stateOf session)) (by simp)
  | .null | .bool _ | .int _ | .float _ | .str _ | .arr _ => exact isFalse (by simp)

/-- The days of a worklog are well formed: its sessions are, their ids differ, and at most one of
them is active. -/
structure DaysWellFormed (I : Interpreter) (days : Dict String Json) : Prop where
  readable : ∀ item ∈ days, DayReadable I item
  wellFormed : ∀ entry ∈ sessionEntries days, EntryWellFormed I entry
  distinct : ((sessionEntries days).map entryId).Nodup
  active : (sessionEntries days).countP (fun entry ↦ decide (EntryActive entry)) ≤ 1

theorem sessionsOf_of_read {date : String} {day : Json} {candidates : List Json}
    (h : workSessionDay I date day = .ok candidates) : sessionsOf day = candidates := by
  unfold workSessionDay at h
  split at h
  · cases h
  · split at h
    · rename_i fields
      split at h
      · rename_i hnone
        cases h
        simp [sessionsOf, hnone]
      · rename_i hsome
        cases h
        simp [sessionsOf, hsome]
      · cases h
    · cases h

/-- What a scan has become after some entries. -/
def SessionScan.extend (scan : SessionScan) (entries : List (String × Json)) (sessions : List Record) :
    SessionScan :=
  ⟨scan.seen ++ entries.map entryId,
    scan.active + entries.countP (fun entry ↦ decide (EntryActive entry)), scan.sessions ++ sessions⟩

theorem scanSessions_ok {date : String} {scan after : SessionScan} {candidates : List Json}
    (h : scanSessions I date scan candidates = .ok after) (hseen : scan.seen.Nodup) :
    ∃ sessions, candidates = sessions.map .obj ∧ (∀ session ∈ sessions, WellFormed I date session) ∧
      after = scan.extend (candidates.map fun candidate ↦ (date, candidate)) sessions ∧ after.seen.Nodup := by
  induction candidates generalizing scan with
  | nil =>
      cases h
      exact ⟨[], rfl, by simp, by simp [SessionScan.extend], hseen⟩
  | cons candidate rest ih =>
      obtain ⟨⟨session, id, state⟩, hheader, h⟩ := bind_eq_ok.mp h
      obtain ⟨_, hladder, h⟩ := bind_eq_ok.mp h
      obtain ⟨rfl, hsession, rfl, rfl, hnew⟩ := wellFormed_of_header hheader hladder
      have hnodup : (scan.seen ++ [sessionIdOf session]).Nodup := by
        exact hseen.append (List.nodup_singleton _) (by simpa using hnew)
      obtain ⟨sessions, rfl, hrest, hafter, hafterNodup⟩ := ih h hnodup
      refine ⟨session :: sessions, rfl, ?_, ?_, hafterNodup⟩
      · intro other hother
        rcases List.mem_cons.mp hother with rfl | hother
        · exact hsession
        · exact hrest other hother
      · rw [hafter]
        simp [SessionScan.extend, entryId, List.countP_cons, EntryActive]
        omega

theorem scanSessions_of_wellFormed {date : String} {scan : SessionScan} {sessions : List Record}
    (hsessions : ∀ session ∈ sessions, WellFormed I date session)
    (hseen : (scan.seen ++ sessions.map sessionIdOf).Nodup) :
    scanSessions I date scan (sessions.map .obj) =
      .ok (scan.extend (sessions.map fun session ↦ (date, .obj session)) sessions) := by
  induction sessions generalizing scan with
  | nil => simp [scanSessions, SessionScan.extend]
  | cons session rest ih =>
      have hsession := hsessions session (List.mem_cons_self ..)
      have hnew : sessionIdOf session ∉ scan.seen := by
        intro hmem
        rw [List.map_cons, List.nodup_append] at hseen
        exact hseen.2.2 _ hmem _ (List.mem_cons_self ..) rfl
      obtain ⟨hheader, hladder⟩ := header_of_wellFormed hsession hnew
      have hrest : ∀ other ∈ rest, WellFormed I date other :=
        fun other hother ↦ hsessions other (List.mem_cons_of_mem _ hother)
      rw [List.map_cons, scanSessions, hheader]
      simp only [ok_bind, hladder]
      rw [ih hrest (by simpa using hseen)]
      simp [SessionScan.extend, entryId, List.countP_cons, EntryActive]
      omega

theorem sessionEntries_cons (item : String × Json) (days : Dict String Json) :
    sessionEntries (item :: days) =
      (sessionsOf item.2).map (fun candidate ↦ (item.1, candidate)) ++ sessionEntries days := by
  simp [sessionEntries]

theorem SessionScan.extend_extend (scan : SessionScan) (first rest : List (String × Json))
    (sessions others : List Record) :
    (scan.extend first sessions).extend rest others = scan.extend (first ++ rest) (sessions ++ others) := by
  simp [extend, List.countP_append]
  omega

variable {days : Dict String Json}

theorem scanDays_ok {scan after : SessionScan} (h : scanDays I scan days = .ok after) (hseen : scan.seen.Nodup) :
    ∃ sessions, (sessionEntries days).map Prod.snd = sessions.map .obj ∧
      (∀ item ∈ days, DayReadable I item) ∧ (∀ entry ∈ sessionEntries days, EntryWellFormed I entry) ∧
      after = scan.extend (sessionEntries days) sessions ∧ after.seen.Nodup := by
  induction days generalizing scan with
  | nil =>
      cases h
      exact ⟨[], rfl, by simp, by simp [sessionEntries], by simp [SessionScan.extend, sessionEntries], hseen⟩
  | cons item rest ih =>
      obtain ⟨candidates, hday, h⟩ := bind_eq_ok.mp h
      obtain ⟨middle, hscan, h⟩ := bind_eq_ok.mp h
      obtain ⟨sessions, rfl, hsessions, rfl, hmiddle⟩ := scanSessions_ok hscan hseen
      obtain ⟨others, hothers, hreadable, hwellFormed, hafter, hafterNodup⟩ := ih h hmiddle
      have hread := sessionsOf_of_read hday
      have hentries := sessionEntries_cons item rest
      rw [hread, List.map_map] at hentries
      refine ⟨sessions ++ others, ?_, ?_, ?_, ?_, hafterNodup⟩
      · simp [hentries, hothers]
      · intro other hother
        rcases List.mem_cons.mp hother with rfl | hother
        · exact ⟨_, hday⟩
        · exact hreadable other hother
      · intro entry hentry
        rw [hentries] at hentry
        rcases List.mem_append.mp hentry with hentry | hentry
        · obtain ⟨session, hsession, rfl⟩ := List.mem_map.mp hentry
          exact ⟨session, rfl, hsessions session hsession⟩
        · exact hwellFormed entry hentry
      · rw [hafter, SessionScan.extend_extend, hentries, List.map_map]

theorem exists_records {P : Record → Prop} {candidates : List Json}
    (h : ∀ candidate ∈ candidates, ∃ record, candidate = .obj record ∧ P record) :
    ∃ records : List Record, candidates = records.map .obj ∧ ∀ record ∈ records, P record := by
  induction candidates with
  | nil => exact ⟨[], rfl, by simp⟩
  | cons candidate rest ih =>
      obtain ⟨record, rfl, hrecord⟩ := h _ (List.mem_cons_self ..)
      obtain ⟨records, rfl, hrecords⟩ := ih fun other hother ↦ h other (List.mem_cons_of_mem _ hother)
      exact ⟨record :: records, rfl, by simpa [hrecord] using hrecords⟩

theorem scanDays_of_wellFormed {scan : SessionScan} (hreadable : ∀ item ∈ days, DayReadable I item)
    (hwellFormed : ∀ entry ∈ sessionEntries days, EntryWellFormed I entry)
    (hseen : (scan.seen ++ (sessionEntries days).map entryId).Nodup) :
    ∃ sessions, scanDays I scan days = .ok (scan.extend (sessionEntries days) sessions) := by
  induction days generalizing scan with
  | nil => exact ⟨[], by simp [scanDays, SessionScan.extend, sessionEntries]⟩
  | cons item rest ih =>
      obtain ⟨candidates, hday⟩ := hreadable item (List.mem_cons_self ..)
      have hentries := sessionEntries_cons item rest
      rw [sessionsOf_of_read hday] at hentries
      obtain ⟨sessions, rfl, hsessions⟩ : ∃ sessions : List Record, candidates = sessions.map .obj ∧
          ∀ session ∈ sessions, WellFormed I item.1 session := by
        apply exists_records
        intro candidate hcandidate
        apply hwellFormed (item.1, candidate)
        rw [hentries]
        exact List.mem_append_left _ (List.mem_map_of_mem hcandidate)
      rw [List.map_map] at hentries
      have hids : ((fun candidate ↦ (item.1, candidate)) ∘ Json.obj) = fun session ↦ (item.1, Json.obj session) := rfl
      rw [hids] at hentries
      have hsame : (sessions.map fun session ↦ (item.1, Json.obj session)).map entryId =
          sessions.map sessionIdOf := by simp [Function.comp_def, entryId]
      rw [hentries, List.map_append, hsame, ← List.append_assoc] at hseen
      have hscan := scanSessions_of_wellFormed hsessions (hseen.sublist (List.sublist_append_left ..))
      have hrest : ∀ entry ∈ sessionEntries rest, EntryWellFormed I entry := by
        intro entry hentry
        apply hwellFormed
        rw [hentries]
        exact List.mem_append_right _ hentry
      obtain ⟨others, hothers⟩ := @ih
        (scan.extend (sessions.map fun session ↦ (item.1, Json.obj session)) sessions)
        (fun other hother ↦ hreadable other (List.mem_cons_of_mem _ hother)) hrest
        (by simpa only [SessionScan.extend, hsame] using hseen)
      refine ⟨sessions ++ others, ?_⟩
      rw [scanDays, hday]
      simp only [ok_bind, hscan]
      rw [hothers, SessionScan.extend_extend, hentries]

/-- The reader accepts a worklog exactly when its days are well formed, and then reads all sessions. -/
theorem workSessionRecords_ok {worklog : Record} {sessions : List Record}
    (h : workSessionRecords I worklog = .ok sessions) :
    ∃ days, worklog.get "days" = some (.obj days) ∧ DaysWellFormed I days ∧
      (sessionEntries days).map Prod.snd = sessions.map .obj := by
  unfold workSessionRecords at h
  split at h
  · rename_i days hdays
    obtain ⟨scan, hscan, h⟩ := bind_eq_ok.mp h
    split at h
    · cases h
    · rename_i hactive
      cases h
      obtain ⟨found, hfound, hreadable, hwellFormed, rfl, hnodup⟩ := scanDays_ok hscan List.nodup_nil
      simp only [SessionScan.extend, List.nil_append, Nat.zero_add] at hnodup hactive
      exact ⟨days, hdays, ⟨hreadable, hwellFormed, hnodup, by omega⟩, by simpa [SessionScan.extend] using hfound⟩
  · cases h

theorem workSessionRecords_of_wellFormed {worklog : Record} (hdays : worklog.get "days" = some (.obj days))
    (h : DaysWellFormed I days) :
    ∃ sessions, workSessionRecords I worklog = .ok sessions := by
  obtain ⟨sessions, hscan⟩ : ∃ sessions, scanDays I {} days =
      .ok (SessionScan.extend {} (sessionEntries days) sessions) :=
    scanDays_of_wellFormed h.readable h.wellFormed (by simpa using h.distinct)
  have hactive : ¬1 < (SessionScan.extend {} (sessionEntries days) sessions).active := by
    simpa [SessionScan.extend] using h.active
  refine ⟨(SessionScan.extend {} (sessionEntries days) sessions).sessions, ?_⟩
  rw [workSessionRecords, hdays]
  dsimp only
  rw [hscan, ok_bind, if_neg hactive]
  rfl

/-- The worklog is accepted by the reader. -/
def Accepted (I : Interpreter) (worklog : Record) : Prop := ∃ sessions, workSessionRecords I worklog = .ok sessions

theorem accepted_iff {worklog : Record} (hdays : worklog.get "days" = some (.obj days)) :
    Accepted I worklog ↔ DaysWellFormed I days := by
  constructor
  · intro ⟨sessions, h⟩
    obtain ⟨other, hother, hwellFormed, _⟩ := workSessionRecords_ok h
    rw [hdays] at hother
    cases hother
    exact hwellFormed
  · exact workSessionRecords_of_wellFormed hdays

end WorkStack.Service
