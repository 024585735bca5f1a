import WorkStack.Checkpoints.Order
import WorkStack.Effect.Refusing

/-!
# The active worklog

Where the documents are accepted, every row of the worklog is one row of the contract, and its history is
made of the transitions that name its slot. So the active worklog is the worklog without the rows whose last
transition has superseded them.
-/

open WorkStack.Python WorkStack.Python.Decoding WorkStack.Effect.Refusing

namespace WorkStack.Checkpoints

variable {P : Platform}

/-! ## Accepted documents -/

/-- What the contract has made sure of where it accepts a context. -/
structure Bound {α : Type} (P : Platform) (context : Context α) (rows : List (Row α)) (events : List TransitionEvent) :
    Prop where
  rowsRead : readAll (readWrapper P) context.entries = some rows
  eventsRead : readAll (readEvent P) context.transitions = some events
  rowsBound : ∀ row ∈ rows, row.locator.workspaceUid = context.workspaceUid ∧
    ∀ recorded, row.recorded = some recorded → recorded.locator = row.locator
  eventsBound : ∀ event ∈ events, ∃ row ∈ rows, row.checkpointId = some event.checkpointId ∧
    event.locator = row.locator
  slots : (rows.map Row.slot).Nodup
  checkpoints : (rows.filterMap Row.checkpointId).Nodup

variable {events : List TransitionEvent}

theorem wrappers_eq_ok {α : Type} {context : Context α} {rows : List (Row α)}
    (h : wrappers P context = .ok (rows, events)) : Bound P context rows events := by
  simp only [wrappers, bind_eq_ok, check_eq_ok, pure_eq_ok, Prod.exists, Prod.mk.injEq] at h
  obtain ⟨rows', events', hread, -, hrows, -, hevents, -, hunique, -, -, rfl, rfl⟩ := h
  cases hcontext : readContext P context with
  | none =>
      rw [hcontext] at hread
      cases hread
  | some result =>
      rw [hcontext] at hread
      cases hread
      simp only [readContext, Option.bind_eq_bind, Option.bind_eq_some_iff, Option.pure_def, Option.some.injEq,
        Prod.mk.injEq] at hcontext
      obtain ⟨-, -, rows', hrowsRead, events', heventsRead, rfl, rfl⟩ := hcontext
      simp only [areUnique, decide_eq_true_eq] at hunique
      simp only [List.all_eq_true, bindsRow, Bool.and_eq_true, beq_iff_eq, Option.all_eq_true, decide_eq_true_eq]
        at hrows
      simp only [List.all_eq_true, bindsTransition, Bool.and_eq_true, beq_iff_eq, List.any_eq_true,
        decide_eq_true_eq] at hevents
      exact ⟨hrowsRead, heventsRead, hrows, fun event hmem ↦ (hevents event hmem).2, hunique.1, hunique.2⟩

theorem buildProjectionContext_eq_ok {uid : String} {worklog : Worklog} {activity : Fields}
    {context : Context PhysicalRow} (h : buildProjectionContext P uid worklog activity = .ok context) :
    context = representable P uid worklog (recognizedRecords activity) ∧
      orphansOf (recordedFacts (recognizedRecords activity)) (physicalRows worklog) = [] := by
  simp only [buildProjectionContext, bind_eq_ok] at h
  obtain ⟨-, -, -, -, -, -, h⟩ := h
  split at h
  · simp only [bind_eq_ok] at h
    obtain ⟨-, -, h⟩ := h
    cases h
  · next horphans =>
      cases h
      rw [Bool.not_eq_true, Bool.not_eq_false', List.isEmpty_iff] at horphans
      exact ⟨rfl, horphans⟩

/-! ## Rows -/

theorem physicalTaskId_isObject {entry : Json} {taskId : String} (h : physicalTaskId entry = some taskId) :
    entry.isObject = true := by
  cases entry with
  | obj fields => rfl
  | _ => cases h

variable {row : Row PhysicalRow}

/-- A row of the contract is the physical row in its slot. -/
theorem readWrapper_physical {uid : String} {facts : List Json} {physical : PhysicalRow}
    {wrapper : Wrapper PhysicalRow} (hmem : wrapper ∈ rowWrappers P uid facts physical)
    (h : readWrapper P wrapper = some row) :
    row.entry = physical ∧ row.slot = (uid, physical.slot) ∧
      (∀ recorded, row.recorded = some recorded → physical.entry.isObject = true) := by
  simp only [rowWrappers, List.mem_map] at hmem
  obtain ⟨claim, -, rfl⟩ := hmem
  have hslot {legacy : Bool} {locator : Locator}
      (hlocator : readLocator P legacy (physicalLocator P uid physical) = some locator) :
      (locator.workspaceUid, locator.date, locator.ordinal) = (uid, physical.slot) ∧
        (legacy = false → physical.entry.isObject = true) := by
    obtain ⟨huid, -, htask, hdate, -, hordinal, -⟩ := readLocator_eq_some hlocator
    cases huid
    rw [Json.str.injEq] at hdate
    rw [Json.int.injEq] at hordinal
    refine ⟨by rw [← hdate, ← hordinal]; rfl, ?_⟩
    rintro rfl
    obtain ⟨known, -, hknown⟩ := optionalPattern_known htask
    cases hphysical : physicalTaskId physical.entry with
    | none =>
        rw [hphysical] at hknown
        cases hknown
    | some taskId => exact physicalTaskId_isObject hphysical
  cases claim with
  | none =>
      simp only [readWrapper, Option.bind_eq_bind, Option.bind_eq_some_iff, Option.pure_def, Option.some.injEq] at h
      obtain ⟨locator, hlocator, rfl⟩ := h
      refine ⟨rfl, (hslot hlocator).1, ?_⟩
      intro recorded hrecorded
      cases hrecorded
  | some details =>
      simp only [readWrapper, Option.bind_eq_bind, Option.bind_eq_some_iff, Option.pure_def, Option.some.injEq] at h
      obtain ⟨locator, hlocator, recorded, -, rfl⟩ := h
      exact ⟨rfl, (hslot hlocator).1, fun _ _ ↦ (hslot hlocator).2 rfl⟩

/-- The rows of accepted documents: one for each physical row, and no two of one slot. -/
structure Accepted (P : Platform) (uid : String) (worklog : Worklog) (activity : Fields)
    (rows : List (Row PhysicalRow)) (events : List TransitionEvent) : Prop where
  eventsRead : readAll (readEvent P) (recordedTransitions (recognizedRecords activity)) = some events
  physical : ∀ row ∈ rows, row.entry ∈ physicalRows worklog ∧ row.slot = (uid, row.entry.slot) ∧
    ∀ recorded, row.recorded = some recorded → row.entry.entry.isObject = true
  covers : ∀ physical ∈ physicalRows worklog, ∃ row ∈ rows, row.entry = physical
  unique : ∀ row ∈ rows, ∀ other ∈ rows, row.entry.slot = other.entry.slot → row = other
  named : ∀ row ∈ rows, ∀ other ∈ rows, ∀ checkpointId, row.checkpointId = some checkpointId →
    other.checkpointId = some checkpointId → row = other
  bound : ∀ event ∈ events, ∃ row ∈ rows, row.checkpointId = some event.checkpointId ∧
    event.locator = row.locator

/-- Rows whose checkpoints are distinct are told apart by them. -/
theorem eq_of_checkpointId {α : Type} {rows : List (Row α)} (h : (rows.filterMap Row.checkpointId).Nodup)
    {row other : Row α} (hrow : row ∈ rows) (hother : other ∈ rows) {checkpointId : String}
    (hid : row.checkpointId = some checkpointId) (hid' : other.checkpointId = some checkpointId) : row = other := by
  rw [List.Nodup, List.pairwise_filterMap] at h
  by_contra hne
  have hsymm : Std.Symm fun a b : Row α ↦ ∀ x, a.checkpointId = some x → ∀ y, b.checkpointId = some y → x ≠ y :=
    ⟨fun a b hab x hx y hy ↦ (hab y hy x hx).symm⟩
  exact h.forall hrow hother hne checkpointId hid checkpointId hid' rfl

theorem accepted_of_wrappers {uid : String} {worklog : Worklog} {activity : Fields} {context : Context PhysicalRow}
    {rows : List (Row PhysicalRow)} (hcontext : buildProjectionContext P uid worklog activity = .ok context)
    (h : wrappers P context = .ok (rows, events)) : Accepted P uid worklog activity rows events := by
  obtain ⟨rfl, -⟩ := buildProjectionContext_eq_ok hcontext
  have hbound := wrappers_eq_ok h
  obtain ⟨hall, hrows⟩ := readAll_eq_some.mp hbound.rowsRead
  have hphysical : ∀ row ∈ rows, row.entry ∈ physicalRows worklog ∧ row.slot = (uid, row.entry.slot) ∧
      ∀ recorded, row.recorded = some recorded → row.entry.entry.isObject = true := by
    intro row hrow
    rw [← hrows, List.mem_filterMap] at hrow
    obtain ⟨wrapper, hwrapper, hread⟩ := hrow
    obtain ⟨physical, hmem, hof⟩ := List.mem_flatMap.mp hwrapper
    obtain ⟨rfl, hslot, hobject⟩ := readWrapper_physical hof hread
    exact ⟨hmem, hslot, hobject⟩
  constructor
  · exact hbound.eventsRead
  · exact hphysical
  · intro physical hmem
    have hsome : ∃ wrapper, wrapper ∈ rowWrappers P uid (recordedFacts (recognizedRecords activity)) physical := by
      unfold rowWrappers
      cases hclaims : claimsOf (recordedFacts (recognizedRecords activity)) physical with
      | nil => exact ⟨_, List.mem_map.mpr ⟨none, List.mem_singleton.mpr rfl, rfl⟩⟩
      | cons claim claims => exact ⟨_, List.mem_map.mpr ⟨some claim, by simp, rfl⟩⟩
    obtain ⟨wrapper, hof⟩ := hsome
    have hwrapper : wrapper ∈ (representable P uid worklog (recognizedRecords activity)).entries :=
      List.mem_flatMap.mpr ⟨physical, hmem, hof⟩
    obtain ⟨row, hread⟩ := Option.isSome_iff_exists.mp (hall wrapper hwrapper)
    refine ⟨row, ?_, (readWrapper_physical hof hread).1⟩
    rw [← hrows, List.mem_filterMap]
    exact ⟨wrapper, hwrapper, hread⟩
  · intro row hrow other hother hslot
    apply List.inj_on_of_nodup_map hbound.slots hrow hother
    rw [(hphysical row hrow).2.1, (hphysical other hother).2.1, hslot]
  · intro row hrow other hother checkpointId hid hid'
    exact eq_of_checkpointId hbound.checkpoints hrow hother hid hid'
  · exact hbound.eventsBound

/-! ## Histories -/

/-- The transitions that name a slot, in the order of the activity. -/
def transitionsAt (activity : Fields) (date : String) (ordinal : ℤ) : List Json :=
  (recordedTransitions (recognizedRecords activity)).filter fun details ↦ slotOf details == some (date, ordinal)

/-- The state that the last transition of a slot has left it in. -/
def lastState (activity : Fields) (date : String) (ordinal : ℤ) : Option CheckpointState :=
  (transitionsAt activity date ordinal).getLast?.bind fun details ↦ readState (detail "state" details)

section Histories

variable {uid : String} {worklog : Worklog} {activity : Fields} {rows : List (Row PhysicalRow)}
  {events : List TransitionEvent}

/-- The history of a row is made of the transitions that name its slot. -/
theorem Accepted.transitions_eq (h : Accepted P uid worklog activity rows events) (hrow : row ∈ rows) :
    row.transitions events = events.filter fun event ↦ (event.date, event.ordinal) == row.entry.slot := by
  have hslot : (row.locator.date, row.locator.ordinal) = row.entry.slot := by
    have hsame := (h.physical row hrow).2.1
    simp only [Row.slot, Prod.mk.injEq] at hsame
    rw [← hsame.2]
  have hother {event : TransitionEvent} (hevent : event ∈ events) (hat : (event.date, event.ordinal) = row.entry.slot) :
      row.checkpointId = some event.checkpointId := by
    obtain ⟨other, hmem, hid, hlocator⟩ := h.bound event hevent
    have hotherSlot := (h.physical other hmem).2.1
    rw [Row.slot, ← hlocator, Prod.mk.injEq] at hotherSlot
    have hsame := h.unique row hrow other hmem (by rw [← hat, ← hotherSlot.2]; rfl)
    rw [hsame]
    exact hid
  unfold Row.transitions
  cases hid : row.checkpointId with
  | none =>
      symm
      rw [List.filter_eq_nil_iff]
      intro event hevent hat
      rw [beq_iff_eq] at hat
      rw [hother hevent hat] at hid
      cases hid
  | some checkpointId =>
      apply List.filter_congr
      intro event hevent
      rw [Bool.eq_iff_iff, beq_iff_eq, beq_iff_eq]
      constructor
      · intro hname
        obtain ⟨other, hmem, hotherId, hlocator⟩ := h.bound event hevent
        rw [hname] at hotherId
        cases h.named row hrow other hmem checkpointId hid hotherId
        rw [← hslot, ← hlocator]
        rfl
      · intro hat
        have hname := hother hevent hat
        rw [hid] at hname
        exact (Option.some.inj hname).symm

theorem readEvent_slot {details : Json} {event : TransitionEvent} (h : readEvent P details = some event) :
    slotOf details = some (event.date, event.ordinal) ∧ readState (detail "state" details) = some event.state := by
  obtain ⟨fields, rfl, hstate, -, -, -, hdate, hordinal, -⟩ := readEvent_eq_some h
  refine ⟨?_, hstate⟩
  simp only [slotOf, detail, hdate, hordinal]

/-- The history of a row is read from the transitions that name its slot. -/
theorem Accepted.transitions_read (h : Accepted P uid worklog activity rows events) (hrow : row ∈ rows) :
    row.transitions events =
      (transitionsAt activity row.entry.date row.entry.ordinal).filterMap (readEvent P) := by
  obtain ⟨-, hevents⟩ := readAll_eq_some.mp h.eventsRead
  rw [h.transitions_eq hrow, ← hevents]
  apply filter_filterMap_of_agree
  intro details _ event hread
  rw [(readEvent_slot hread).1]
  rfl

/-- A row is in the state that the last transition of its slot has left it in, and active where there is none. -/
theorem Accepted.state_eq (h : Accepted P uid worklog activity rows events) (hrow : row ∈ rows) :
    stateAfter (row.transitions events) = (lastState activity row.entry.date row.entry.ordinal).getD .active := by
  obtain ⟨hall, -⟩ := readAll_eq_some.mp h.eventsRead
  have hread : ∀ details ∈ transitionsAt activity row.entry.date row.entry.ordinal,
      (readEvent P details).isSome := fun details hmem ↦ hall details (List.mem_of_mem_filter hmem)
  rw [h.transitions_read hrow, stateAfter, lastState]
  generalize transitionsAt activity row.entry.date row.entry.ordinal = transitions at hread
  cases transitions using List.reverseRecOn with
  | nil => rfl
  | append_singleton earlier last =>
      obtain ⟨event, hlast⟩ := Option.isSome_iff_exists.mp (hread last (by simp))
      rw [List.filterMap_append, List.filterMap_cons_some hlast, List.filterMap_nil, List.getLast?_concat,
        List.getLast?_concat, Option.map_some, Option.getD_some, Option.bind_some, (readEvent_slot hlast).2,
        Option.getD_some]

end Histories

/-! ## The document -/

/-- Whether the last transition of a slot has superseded it. -/
def isSuperseded (activity : Fields) (date : String) (ordinal : ℕ) : Bool :=
  lastState activity date ordinal == some .superseded

theorem mem_physicalRows {worklog : Worklog} {day : String × Json} (hday : day ∈ worklogDays worklog)
    {entry : Json} {index : ℕ} (hentry : (entry, index) ∈ (dayEntries day.2).zipIdx) :
    (⟨day.1, index, entry⟩ : PhysicalRow) ∈ physicalRows worklog := by
  rw [physicalRows, List.mem_flatMap]
  refine ⟨day, ?_, ?_⟩
  · rw [Json.sortFields, List.mem_insertionSort]
    exact hday
  · rw [dayRows, List.mem_map]
    exact ⟨(entry, index), hentry, rfl⟩

/-- A worklog is filtered alike by what says the same of each of its rows. -/
theorem keepRows_congr {worklog : Worklog} {keep keep' : String → ℕ → Bool}
    (h : ∀ row ∈ physicalRows worklog, keep row.date row.ordinal = keep' row.date row.ordinal) :
    keepRows keep worklog = keepRows keep' worklog := by
  unfold keepRows
  cases hdays : Dict.get worklog "days" with
  | none => rfl
  | some value =>
      cases value with
      | obj days =>
          have hworklog : worklogDays worklog = days := by rw [worklogDays, hdays]
          have hmap : (days.map fun day ↦ (day.1, keepDay (keep day.1) day.2)) =
              days.map fun day ↦ (day.1, keepDay (keep' day.1) day.2) := by
            apply List.map_congr_left
            intro day hday
            rw [Prod.mk.injEq]
            refine ⟨rfl, ?_⟩
            rw [← hworklog] at hday
            obtain ⟨date, value⟩ := day
            cases value with
            | obj fields =>
                simp only [keepDay]
                cases hentries : Dict.get fields "entries" with
                | none => rfl
                | some value =>
                    cases value with
                    | arr entries =>
                        have hsame : keepEntries (keep date) entries = keepEntries (keep' date) entries := by
                          unfold keepEntries
                          congr 1
                          apply List.filter_congr
                          rintro ⟨entry, index⟩ hmem
                          refine h ⟨date, index, entry⟩ (mem_physicalRows hday ?_)
                          simp only [dayEntries, hentries]
                          exact hmem
                        simp only [hsame]
                    | _ => rfl
            | _ => rfl
          simp only [hmap]
      | _ => rfl

/-- An object is one of the active ones exactly where its row is active. -/
theorem Accepted.active_iff {uid : String} {worklog : Worklog} {activity : Fields} {rows : List (Row PhysicalRow)}
    (h : Accepted P uid worklog activity rows events) (addresses : Addresses worklog) (hrow : row ∈ rows) :
    addresses.address row.entry.date row.entry.ordinal ∈
        ((rows.filter fun row ↦ stateAfter (row.transitions events) == .active).map Row.entry).map
          (fun physical ↦ addresses.address physical.date physical.ordinal) ↔
      stateAfter (row.transitions events) = .active := by
  constructor
  · intro hmem
    rw [List.map_map, List.mem_map] at hmem
    obtain ⟨other, hother, haddress⟩ := hmem
    rw [List.mem_filter, beq_iff_eq] at hother
    cases hstate : stateAfter (row.transitions events) with
    | active => rfl
    | superseded =>
        have hrecorded : ∃ recorded, row.recorded = some recorded := by
          cases hnone : row.recorded with
          | some recorded => exact ⟨recorded, rfl⟩
          | none =>
              simp only [Row.transitions, Row.checkpointId, hnone, Option.map_none, stateAfter] at hstate
              cases hstate
        obtain ⟨recorded, hrecorded⟩ := hrecorded
        obtain ⟨hphysical, -, hobject⟩ := h.physical row hrow
        have hslot := addresses.own row.entry hphysical other.entry (h.physical other hother.1).1
          (hobject recorded hrecorded) haddress.symm
        have hsame := h.unique row hrow other hother.1 hslot
        rw [hsame, hother.2] at hstate
        cases hstate
  · intro hactive
    rw [List.map_map, List.mem_map]
    exact ⟨row, List.mem_filter.mpr ⟨hrow, by rw [hactive]; rfl⟩, rfl⟩

/-- Where it is accepted, the active worklog is the worklog without its superseded rows. -/
theorem activeWorklogDocument_eq_ok {uid : String} {worklog : Worklog} {activity result : Fields}
    {addresses : Addresses worklog} (h : activeWorklogDocument P uid worklog addresses activity = .ok result) :
    result = keepRows (fun date ordinal ↦ !isSuperseded activity date ordinal) worklog := by
  simp only [activeWorklogDocument, projectActiveEntries, bind_eq_ok, pure_eq_ok, Prod.exists] at h
  obtain ⟨context, hcontext, active, ⟨rows, events, hwrappers, rfl⟩, rfl⟩ := h
  have haccepted := accepted_of_wrappers hcontext hwrappers
  apply keepRows_congr
  intro physical hphysical
  obtain ⟨row, hrow, rfl⟩ := haccepted.covers physical hphysical
  rw [Bool.eq_iff_iff, List.contains_iff_mem, haccepted.active_iff addresses hrow, haccepted.state_eq hrow]
  unfold isSuperseded
  cases lastState activity row.entry.date row.entry.ordinal with
  | none => simp
  | some state => cases state <;> simp

end WorkStack.Checkpoints
