import WorkStack.Python.FlatTexts
import WorkStack.Service.Advancing

/-!
# Notices in the log of events

The notices of a log are read from its latest event to its first. A notice is only written when none with its
id is found, so the notice that is found under an id is the one that was written there first, whatever is
appended to the log later.
-/

namespace WorkStack.Service

open Effect.Outcome Python

variable {P : Platform}

/-! ## Validated notices -/

theorem scalar_optionText (text : Option String) : (optionText text).isScalar = true := by
  cases text <;> rfl

theorem scalar_optionRevision (revision : Option ℤ) : (optionRevision revision).isScalar = true := by
  cases revision <;> rfl

variable {value : Json}

theorem noticeText_eq_ok {text : String} (h : noticeText value = .ok text) : value = .str text := by
  cases value with
  | str other =>
      cases h
      rfl
  | _ => cases h

theorem noticeUuid_eq_ok {text : String} (h : noticeUuid P value = .ok text) : value = .str text := by
  obtain ⟨other, hother, h⟩ := bind_eq_ok.mp h
  obtain ⟨⟨⟩, -, h⟩ := bind_eq_ok.mp h
  split at h
  · cases h
    exact noticeText_eq_ok hother
  · cases h

theorem exactFields_eq_ok {expected : List String} {mapping : Record} (h : exactFields P expected value = .ok mapping) :
    value = .obj mapping := by
  cases value with
  | obj record =>
      obtain ⟨⟨⟩, -, h⟩ := bind_eq_ok.mp h
      split at h
      · cases h
      · split at h
        · cases h
        · cases h
          rfl
  | _ => cases h

theorem commitPair_eq_ok {commitState : String} {revision : Option ℤ}
    (h : commitPair commitState value = .ok revision) :
    value = optionRevision revision := by
  unfold commitPair at h
  split at h
  · split at h
    · cases h
      rfl
    · cases h
  · split at h
    · cases h
    · obtain ⟨number, hnumber, h⟩ := bind_eq_ok.mp h
      cases h
      unfold noticeRevision at hnumber
      split at hnumber
      · split at hnumber
        · cases hnumber
          rfl
        · cases hnumber
      · cases hnumber

theorem noticeEnum_eq_ok {allowed : List String} {text : String} (h : noticeEnum allowed value = .ok text) :
    value = .str text ∧ text ∈ allowed := by
  obtain ⟨other, hother, h⟩ := bind_eq_ok.mp h
  split at h
  · next hmem =>
      cases h
      exact ⟨noticeText_eq_ok hother, hmem⟩
  · cases h

theorem statusOrNull_eq_ok {status : Option String} (h : statusOrNull value = .ok status) :
    value = optionText status := by
  unfold statusOrNull at h
  split at h
  · cases h
    rfl
  · obtain ⟨text, htext, h⟩ := bind_eq_ok.mp h
    cases h
    exact (noticeEnum_eq_ok htext).1

theorem pairedStatus_eq_ok {operation : String} {before after : Json} {pair : Option String × Option String}
    (h : pairedStatus operation before after = .ok pair) :
    before = optionText pair.1 ∧ after = optionText pair.2 := by
  obtain ⟨first, hfirst, h⟩ := bind_eq_ok.mp h
  obtain ⟨second, hsecond, h⟩ := bind_eq_ok.mp h
  rw [statusOrNull_eq_ok hfirst, statusOrNull_eq_ok hsecond]
  split at h
  · split at h
    · cases h
    · cases h
      exact ⟨rfl, rfl⟩
  · split at h
    · cases h
    · next hnone =>
        cases h
        rw [not_or, Bool.not_eq_true, Option.isSome_eq_false_iff, Option.isNone_iff_eq_none, Bool.not_eq_true,
          Option.isSome_eq_false_iff, Option.isNone_iff_eq_none] at hnone
        rw [hnone.1, hnone.2]
        exact ⟨rfl, rfl⟩

theorem boundedToken_eq_ok {isAllowed : Char → Bool} {minimum maximum : ℕ} {text : String}
    (h : boundedToken P isAllowed minimum maximum value = .ok text) : value = .str text := by
  obtain ⟨other, hother, h⟩ := bind_eq_ok.mp h
  split at h
  · cases h
  · obtain ⟨⟨⟩, -, h⟩ := bind_eq_ok.mp h
    split at h
    · cases h
      exact noticeText_eq_ok hother
    · cases h

theorem noticeRevision_eq_ok {revision : ℤ} (h : noticeRevision value = .ok revision) :
    value = .int revision := by
  unfold noticeRevision at h
  split at h
  · split at h
    · cases h
      rfl
    · cases h
  · cases h

/-- The values of a notice that was validated. -/
structure NoticeValues where
  actor : String
  afterRevision : Option ℤ
  beforeRevision : ℤ
  commitState : String
  entityKind : String
  entityUid : String
  key : String
  mutationUid : String
  noticeId : String
  operation : String
  source : String
  statusAfter : Option String
  statusBefore : Option String
  summary : String
  undoable : Bool
  workspaceUid : String

/-- The closed record of a notice, with its names in order. -/
def NoticeValues.record (v : NoticeValues) : Record :=
  [("actor", .str v.actor), ("after_revision", optionRevision v.afterRevision),
    ("before_revision", .int v.beforeRevision), ("commit_state", .str v.commitState),
    ("entity_kind", .str v.entityKind), ("entity_uid", .str v.entityUid), ("format", .str noticeFormat),
    ("idempotency_key", .str v.key), ("mutation_uid", .str v.mutationUid), ("notice_id", .str v.noticeId),
    ("operation", .str v.operation), ("schema_version", .int 1), ("source", .str v.source),
    ("status_after", optionText v.statusAfter), ("status_before", optionText v.statusBefore),
    ("summary", .str v.summary), ("undoable", .bool v.undoable), ("workspace_uid", .str v.workspaceUid)]

theorem NoticeValues.scalar (v : NoticeValues) : ∀ field ∈ v.record, field.2.isScalar = true := by
  simp only [record, List.forall_mem_cons, scalar_optionText, scalar_optionRevision]
  simp [Json.isScalar]

/-- Validating a notice puts its fields in order and keeps their values. -/
theorem validateNotice_eq_ok {notice : Record} (h : validateNotice P value = .ok notice) :
    ∃ (v : NoticeValues) (mapping : Record), notice = v.record ∧ value = .obj mapping ∧
      ∀ field ∈ notice, valueAt mapping field.1 = field.2 := by
  obtain ⟨mapping, hmapping, h⟩ := bind_eq_ok.mp h
  dsimp only at h
  split at h
  · cases h
  next hformat =>
  split at h
  · cases h
  next hversion =>
  obtain ⟨workspaceUid, hworkspace, h⟩ := bind_eq_ok.mp h
  obtain ⟨key, hkey, h⟩ := bind_eq_ok.mp h
  obtain ⟨operation, hoperation, h⟩ := bind_eq_ok.mp h
  obtain ⟨entityKind, hkind, h⟩ := bind_eq_ok.mp h
  split at h
  · cases h
  obtain ⟨commitState, hcommit, h⟩ := bind_eq_ok.mp h
  obtain ⟨afterRevision, hafter, h⟩ := bind_eq_ok.mp h
  obtain ⟨⟨before, after⟩, hstatus, h⟩ := bind_eq_ok.mp h
  dsimp only at h
  split at h
  case h_2 => cases h
  next stored hstored =>
  split at h
  · cases h
  next hundoable =>
  obtain ⟨summary, hsummary, h⟩ := bind_eq_ok.mp h
  split at h
  · cases h
  obtain ⟨expectedSummary, -, h⟩ := bind_eq_ok.mp h
  split at h
  · cases h
  obtain ⟨noticeId, hid, h⟩ := bind_eq_ok.mp h
  obtain ⟨mutationUid, hmutation, h⟩ := bind_eq_ok.mp h
  obtain ⟨derivedId, -, h⟩ := bind_eq_ok.mp h
  obtain ⟨derivedUid, -, h⟩ := bind_eq_ok.mp h
  split at h
  · cases h
  obtain ⟨actor, hactor, h⟩ := bind_eq_ok.mp h
  obtain ⟨beforeRevision, hbefore, h⟩ := bind_eq_ok.mp h
  obtain ⟨entityUid, hentity, h⟩ := bind_eq_ok.mp h
  obtain ⟨source, hsource, h⟩ := bind_eq_ok.mp h
  rw [not_or, not_not, not_not, Json.same_str_left] at hformat
  rw [not_not] at hversion hundoable
  have hschema : valueAt mapping "schema_version" = .int 1 := by
    cases hvalue : valueAt mapping "schema_version" with
    | int n =>
        rw [hvalue] at hversion
        simp only [Json.same, Json.int?, beq_iff_eq, Option.some.injEq] at hversion
        rw [hversion]
    | _ => simp [hvalue, isInt] at hformat
  cases h
  refine ⟨⟨actor, afterRevision, beforeRevision, commitState, entityKind, entityUid, key, mutationUid, noticeId,
    operation, source, after, before, summary, _, workspaceUid⟩, mapping, rfl, exactFields_eq_ok hmapping, ?_⟩
  simp only [List.forall_mem_cons, boundedToken_eq_ok hactor, commitPair_eq_ok hafter, noticeRevision_eq_ok hbefore,
    (noticeEnum_eq_ok hcommit).1, (noticeEnum_eq_ok hkind).1, noticeUuid_eq_ok hentity, hformat.1,
    boundedToken_eq_ok hkey, noticeUuid_eq_ok hmutation, noticeUuid_eq_ok hid, (noticeEnum_eq_ok hoperation).1, hschema,
    (noticeEnum_eq_ok hsource).1, (pairedStatus_eq_ok hstatus).1, (pairedStatus_eq_ok hstatus).2,
    boundedToken_eq_ok hsummary, hstored, hundoable, noticeUuid_eq_ok hworkspace]
  simp

variable {blob : String}

/-- A stored text is the text of its notice. -/
theorem serializeNotice_eq_ok (h : serializeNotice P value = .ok blob) :
    ∃ notice, validateNotice P value = .ok notice ∧ blob = String.ofList (Json.compactText (.obj notice)) := by
  obtain ⟨notice, hnotice, h⟩ := bind_eq_ok.mp h
  cases h
  exact ⟨notice, hnotice, rfl⟩

variable {v : NoticeValues}

/-- Validating a notice in order changes nothing. -/
theorem validateNotice_record {notice : Record} (h : validateNotice P (.obj v.record) = .ok notice) :
    notice = v.record := by
  obtain ⟨w, mapping, rfl, hmapping, hkept⟩ := validateNotice_eq_ok h
  cases hmapping
  simp only [NoticeValues.record, List.forall_mem_cons] at hkept
  obtain ⟨h₁, h₂, h₃, h₄, h₅, h₆, -, h₈, h₉, h₁₀, h₁₁, -, h₁₃, h₁₄, h₁₅, h₁₆, h₁₇, h₁₈, -⟩ := hkept
  simp only [NoticeValues.record, ← h₁, ← h₂, ← h₃, ← h₄, ← h₅, ← h₆, ← h₈, ← h₉, ← h₁₀, ← h₁₁, ← h₁₃, ← h₁₄, ← h₁₅,
    ← h₁₆, ← h₁₇, ← h₁₈]
  rfl

/-- A notice reads back from the text it is stored under, where the platform reads the text as its record. -/
theorem parseNotice_serialized (h : serializeNotice P (.obj v.record) = .ok blob)
    (hloads : P.loads blob = some (.obj v.record)) : parseNotice P blob = .ok v.record := by
  obtain ⟨notice, hvalid, hblob⟩ := serializeNotice_eq_ok h
  rw [validateNotice_record hvalid] at hvalid
  unfold parseNotice
  rw [hloads]
  refine bind_eq_ok.mpr ⟨v.record, hvalid, bind_eq_ok.mpr ⟨blob, h, ?_⟩⟩
  exact if_pos rfl

variable {beforeRevision afterRevision : ℤ}

/-- A notice that is built has the fields that it was built from, and the id of its key. -/
theorem buildStatusNotice_eq_ok {workspaceUid entityUid : Json} {source key before after : String} {notice : Record}
    (h : buildStatusNotice P workspaceUid entityUid beforeRevision afterRevision source key before after = .ok notice) :
    ∃ v : NoticeValues, notice = v.record ∧ v.key = key ∧ entityUid = .str v.entityUid ∧
      deriveNoticeId P workspaceUid (.str key) = .ok v.noticeId := by
  obtain ⟨uid, huid, h⟩ := bind_eq_ok.mp h
  obtain ⟨token, htoken, h⟩ := bind_eq_ok.mp h
  obtain ⟨revision, -, h⟩ := bind_eq_ok.mp h
  obtain ⟨⟨statusBefore, statusAfter⟩, -, h⟩ := bind_eq_ok.mp h
  obtain ⟨mutationUid, -, h⟩ := bind_eq_ok.mp h
  obtain ⟨noticeId, hid, h⟩ := bind_eq_ok.mp h
  obtain ⟨summary, -, h⟩ := bind_eq_ok.mp h
  obtain ⟨v, mapping, rfl, hmapping, hkept⟩ := validateNotice_eq_ok h
  cases hmapping
  have hkey : token = key := (Json.str.inj (boundedToken_eq_ok htoken)).symm
  rw [hkey] at hid hkept
  rw [noticeUuid_eq_ok huid]
  have hstored (name : String) (value : Json) (hmem : (name, value) ∈ v.record) := hkept (name, value) hmem
  refine ⟨v, rfl, ?_, ?_, ?_⟩
  · exact (Json.str.inj (hstored "idempotency_key" (.str v.key) (by simp [NoticeValues.record]))).symm
  · exact hstored "entity_uid" (.str v.entityUid) (by simp [NoticeValues.record])
  · rw [hid, Json.str.inj (hstored "notice_id" (.str v.noticeId) (by simp [NoticeValues.record]))]

/-- The notice that is read from a stored text has the texts of the notice that was stored. -/
theorem parseNotice_texts {parsed : Record} (hstored : serializeNotice P (.obj v.record) = .ok blob)
    (hparsed : parseNotice P blob = .ok parsed) :
    ∃ w : NoticeValues, parsed.map Prod.fst = v.record.map Prod.fst ∧ valueAt parsed "notice_id" = .str w.noticeId ∧
      valueAt parsed "idempotency_key" = .str w.key ∧
      w.record.map (fun field ↦ Json.compactText field.2) = v.record.map fun field ↦ Json.compactText field.2 := by
  obtain ⟨stored, hvalid, hblob⟩ := serializeNotice_eq_ok hstored
  unfold parseNotice at hparsed
  split at hparsed
  · obtain ⟨read, hread, hparsed⟩ := bind_eq_ok.mp hparsed
    obtain ⟨text, htext, hparsed⟩ := bind_eq_ok.mp hparsed
    split at hparsed
    · next hsame =>
        cases hparsed
        subst hsame
        obtain ⟨u, -, rfl, -, -⟩ := validateNotice_eq_ok hread
        obtain ⟨again, hagain, hblob'⟩ := serializeNotice_eq_ok htext
        obtain rfl := validateNotice_record hvalid
        obtain rfl := validateNotice_record hagain
        refine ⟨u, rfl, rfl, rfl, ?_⟩
        apply Json.compactText_obj_cancel
        · rfl
        · simp only [NoticeValues.record, List.map_cons, List.map_nil]
          decide
        · exact u.scalar
        · exact v.scalar
        · exact String.ofList_injective (hblob'.symm.trans hblob)
    · cases hparsed
  · cases hparsed

/-- It has the same id and the same key. -/
theorem parseNotice_id {parsed : Record} (hstored : serializeNotice P (.obj v.record) = .ok blob)
    (hparsed : parseNotice P blob = .ok parsed) :
    valueAt parsed "notice_id" = .str v.noticeId ∧ valueAt parsed "idempotency_key" = .str v.key := by
  obtain ⟨w, -, hid, hkey, htexts⟩ := parseNotice_texts hstored hparsed
  have hsameId := congrArg (fun texts ↦ texts[9]?) htexts
  have hsameKey := congrArg (fun texts ↦ texts[7]?) htexts
  simp only [NoticeValues.record, List.map_cons, List.getElem?_cons_succ, List.getElem?_cons_zero,
    Option.some.injEq] at hsameId hsameKey
  rw [hid, hkey, Json.compactText_str_injective hsameId, Json.compactText_str_injective hsameKey]
  exact ⟨rfl, rfl⟩

/-! ## Reading the log -/

/-- The events of a log that has them. -/
def eventsOf (activity : Record) : List Json :=
  match activity.get "activity" with
  | some (.arr events) => events
  | _ => []

theorem eventsOf_of_listAt {activity : Record} {events : List Json} (h : listAt activity "activity" = .ok events) :
    eventsOf activity = events := by
  unfold listAt at h
  unfold eventsOf
  split at h
  · next value hvalue =>
      rw [asList_eq_ok] at h
      subst h
      rw [hvalue]
  · next hvalue =>
      cases h
      rw [hvalue]

theorem eventsOf_set (activity : Record) (events : List Json) :
    eventsOf (activity.set "activity" (.arr events)) = events := by
  simp [eventsOf]

theorem findNotice_eq (activity : Record) (noticeId : Json) :
    findNotice P activity noticeId = noticesOf P (eventsOf activity).reverse >>= fun notices ↦
      pure (notices.find? fun notice ↦ Json.same noticeId (valueAt notice "notice_id")) := by
  unfold findNotice eventsOf
  cases activity.get "activity" with
  | none => rfl
  | some value => cases value <;> rfl

theorem findNotice_eq_ok {activity : Record} {noticeId : Json} {found : Option Record} :
    findNotice P activity noticeId = .ok found ↔ ∃ notices, noticesOf P (eventsOf activity).reverse = .ok notices ∧
      found = notices.find? fun notice ↦ Json.same noticeId (valueAt notice "notice_id") := by
  rw [findNotice_eq, bind_eq_ok]
  simp only [pure, Except.pure, Except.ok.injEq, eq_comm]

/-- What an event adds to the notices of the events before it. -/
theorem noticesOf_cons {event : Json} {events : List Json} {notices : List Record}
    (h : noticesOf P (event :: events) = .ok notices) :
    ∃ found rest, noticeFromEvent P event = .ok found ∧ noticesOf P events = .ok rest ∧
      notices = found.toList ++ rest := by
  obtain ⟨found, hfound, h⟩ := bind_eq_ok.mp h
  cases found with
  | none => exact ⟨none, notices, hfound, h, rfl⟩
  | some notice =>
      obtain ⟨record, -, h⟩ := bind_eq_ok.mp h
      obtain ⟨id, -, h⟩ := bind_eq_ok.mp h
      obtain ⟨rest, hrest, h⟩ := bind_eq_ok.mp h
      cases h
      exact ⟨some notice, rest, hfound, hrest, rfl⟩

theorem noticesOf_append_of_none {new events : List Json}
    (hnew : ∀ event ∈ new, noticeFromEvent P event = .ok none) : noticesOf P (new ++ events) = noticesOf P events := by
  induction new with
  | nil => rfl
  | cons event new ih =>
      obtain ⟨hevent, hnew⟩ := List.forall_mem_cons.mp hnew
      rw [List.cons_append, noticesOf, hevent, ok_bind]
      exact ih hnew

/-! ## Notices that are kept -/

/-- What is found under an id in a later log was found there before, or there was nothing. -/
def NoticesKept (P : Platform) (activity after : Record) : Prop :=
  ∀ (id : String) found, findNotice P after (.str id) = .ok found →
    ∃ earlier, findNotice P activity (.str id) = .ok earlier ∧ ∀ notice, earlier = some notice → found = some notice

theorem noticesKept_refl (activity : Record) : NoticesKept P activity activity :=
  fun _ found h ↦ ⟨found, h, fun _ hnotice ↦ hnotice⟩

theorem NoticesKept.trans {a b c : Record} (hab : NoticesKept P a b) (hbc : NoticesKept P b c) :
    NoticesKept P a c := by
  intro id found hfound
  obtain ⟨middle, hmiddle, hlater⟩ := hbc id found hfound
  obtain ⟨earlier, hearlier, hkept⟩ := hab id middle hmiddle
  exact ⟨earlier, hearlier, fun notice hnotice ↦ hlater notice (hkept notice hnotice)⟩

/-- Events that are no notices change nothing. -/
theorem noticesKept_of_others {activity after : Record} {new : List Json} (h : eventsOf after = eventsOf activity ++ new)
    (hnew : ∀ event ∈ new, noticeFromEvent P event = .ok none) : NoticesKept P activity after := by
  intro id found hfound
  refine ⟨found, ?_, fun _ hnotice ↦ hnotice⟩
  rw [findNotice_eq] at hfound ⊢
  rw [h, List.reverse_append, noticesOf_append_of_none] at hfound
  · exact hfound
  · intro event hevent
    exact hnew event (List.mem_reverse.mp hevent)

theorem noticesKept_of_get {activity after : Record} (h : after.get "activity" = activity.get "activity") :
    NoticesKept P activity after := by
  have hevents : eventsOf after = eventsOf activity ++ [] := by rw [List.append_nil, eventsOf, eventsOf, h]
  apply noticesKept_of_others hevents
  intro event hevent
  exact absurd hevent List.not_mem_nil

/-- An event with a type of its own is no notice. -/
theorem noticeFromEvent_other {event : Record} {eventType : String} (htype : event.get "type" = some (.str eventType))
    (hother : eventType ≠ noticeEventType) : noticeFromEvent P (.obj event) = .ok none := by
  simp only [noticeFromEvent]
  rw [valueAt_of_get htype, if_neg]
  rw [Json.same_str]
  exact fun h ↦ hother (beq_iff_eq.mp h).symm

theorem noticeFromEvent_of_parse {event notice : Record} (htype : valueAt event "type" = .str noticeEventType)
    (hdetails : valueAt event "details" = .obj [("notice", .str blob)])
    (hlength : 1 ≤ blob.length ∧ blob.length ≤ 8192) (hparsed : parseNotice P blob = .ok notice) :
    noticeFromEvent P (.obj event) = .ok (some notice) := by
  simp only [noticeFromEvent, htype, hdetails, hparsed]
  rw [if_pos (by rw [Json.same_str, beq_self_eq_true]), if_pos hlength]

/-- The event of a notice holds its text. -/
theorem noticeFromEvent_stored {event : Record} {found : Record}
    (hdetails : valueAt event "details" = .obj [("notice", .str blob)])
    (h : noticeFromEvent P (.obj event) = .ok (some found)) : parseNotice P blob = .ok found := by
  simp only [noticeFromEvent, hdetails] at h
  split at h
  · split at h
    · split at h
      · next hparsed =>
          cases h
          exact hparsed
      · cases h
    · cases h
  · cases h

/-- A notice is written where none has its id. -/
theorem noticesKept_of_notice {activity after event : Record}
    (hafter : eventsOf after = eventsOf activity ++ [.obj event])
    (hdetails : valueAt event "details" = .obj [("notice", .str blob)])
    (hstored : serializeNotice P (.obj v.record) = .ok blob)
    (hnone : findNotice P activity (.str v.noticeId) = .ok none) : NoticesKept P activity after := by
  intro id found hfound
  obtain ⟨notices, hnotices, rfl⟩ := findNotice_eq_ok.mp hfound
  rw [hafter, List.reverse_append, List.reverse_singleton, List.singleton_append] at hnotices
  obtain ⟨read, rest, hread, hrest, rfl⟩ := noticesOf_cons hnotices
  refine ⟨_, findNotice_eq_ok.mpr ⟨rest, hrest, rfl⟩, ?_⟩
  intro earlier hearlier
  cases read with
  | none => exact hearlier
  | some read =>
      rw [Option.toList_some, List.singleton_append, List.find?_cons]
      have hid := (parseNotice_id hstored (noticeFromEvent_stored hdetails hread)).1
      split
      · next hsame =>
          -- under this id the log held no notice
          rw [hid, Json.same_str, beq_iff_eq] at hsame
          obtain ⟨others, hothers, hnotFound⟩ := findNotice_eq_ok.mp hnone
          rw [hrest] at hothers
          cases hothers
          rw [← hsame, hearlier] at hnotFound
          cases hnotFound
      · exact hearlier

/-- The event that keeps a notice. -/
def noticeEvent (id createdAt : String) (taskId : Json) (blob : String) : Record :=
  [("id", .str id), ("type", .str noticeEventType), ("created_at", .str createdAt), ("task_id", taskId),
    ("details", .obj [("notice", .str blob)])]

/-- A notice is recorded where it can be built, its id is free, and its event can be numbered. -/
theorem recordStatusNotice_of_free {activity task notice : Record}
    {workspaceUid createdAt key source before after blob id : String} {entityUid taskId : Json} {events : List Json}
    (huid : field task "uid" = .ok entityUid)
    (hbuilt : buildStatusNotice P (.str workspaceUid) entityUid beforeRevision afterRevision source key before after =
      .ok notice)
    (hstored : serializeNotice P (.obj notice) = .ok blob)
    (hfree : findNotice P activity (valueAt notice "notice_id") = .ok none)
    (hevents : listAt activity "activity" = .ok events) (hid : nextId P.toInterpreter events ['E'] 6 = .ok id)
    (htask : field task "id" = .ok taskId) :
    recordStatusNotice P activity task workspaceUid ⟨before, after, beforeRevision, afterRevision, key, source⟩
      createdAt = .ok (activity.set "activity" (.arr (events ++ [.obj (noticeEvent id createdAt taskId blob)]))) := by
  simp only [recordStatusNotice, huid, hbuilt, hstored, hfree, hevents, hid, htask, ok_bind]
  rfl

/-- It is refused where another notice has its id. -/
theorem recordStatusNotice_of_other {activity task notice existing : Record}
    {workspaceUid createdAt key source before after blob stored : String} {entityUid : Json}
    (huid : field task "uid" = .ok entityUid)
    (hbuilt : buildStatusNotice P (.str workspaceUid) entityUid beforeRevision afterRevision source key before after =
      .ok notice)
    (hblob : serializeNotice P (.obj notice) = .ok blob)
    (hfound : findNotice P activity (valueAt notice "notice_id") = .ok (some existing))
    (hstored : serializeNotice P (.obj existing) = .ok stored) (hne : stored ≠ blob) :
    recordStatusNotice P activity task workspaceUid ⟨before, after, beforeRevision, afterRevision, key, source⟩
      createdAt = receiptError "idempotency_conflict" := by
  simp only [recordStatusNotice, huid, hbuilt, hblob, hfound, hstored, ok_bind, if_neg hne]

/-- What recording a change does to the log: nothing, where its notice is there, or it adds an event with the
notice, where none has its id. -/
theorem recordStatusNotice_eq_ok {activity after task : Record} {workspaceUid createdAt : String} {change : StatusChange}
    (h : recordStatusNotice P activity task workspaceUid change createdAt = .ok after) :
    ∃ (v : NoticeValues) (blob : String), task.get "uid" = some (.str v.entityUid) ∧ v.key = change.key ∧
      deriveNoticeId P (.str workspaceUid) (.str change.key) = .ok v.noticeId ∧
      serializeNotice P (.obj v.record) = .ok blob ∧
      (after = activity ∨ findNotice P activity (.str v.noticeId) = .ok none ∧
        ∃ event, eventsOf after = eventsOf activity ++ [.obj event] ∧
          valueAt event "details" = .obj [("notice", .str blob)]) := by
  obtain ⟨entityUid, huid, h⟩ := bind_eq_ok.mp h
  split at h
  · cases h
  next notice hnotice =>
  split at h
  · cases h
  next blob hblob =>
  obtain ⟨v, rfl, hkey, rfl, hid⟩ := buildStatusNotice_eq_ok hnotice
  refine ⟨v, blob, field_eq_ok.mp huid, hkey, hid, hblob, ?_⟩
  obtain ⟨found, hfound, h⟩ := bind_eq_ok.mp h
  cases found with
  | some existing =>
      dsimp only at h
      split at h
      · cases h
      · split at h
        · cases h
          exact .inl rfl
        · cases h
  | none =>
      obtain ⟨events, hevents, h⟩ := bind_eq_ok.mp h
      obtain ⟨id, -, h⟩ := bind_eq_ok.mp h
      obtain ⟨taskId, -, h⟩ := bind_eq_ok.mp h
      cases h
      have hafter (event : Record) :
          eventsOf (activity.set "activity" (.arr (events ++ [.obj event]))) = eventsOf activity ++ [.obj event] := by
        rw [eventsOf_set, eventsOf_of_listAt hevents]
      exact .inr ⟨hfound, _, hafter _, rfl⟩

/-- What is recorded of a change keeps the notices. -/
theorem recordStatusNotice_kept {activity after task : Record} {workspaceUid createdAt : String} {change : StatusChange}
    (h : recordStatusNotice P activity task workspaceUid change createdAt = .ok after) :
    NoticesKept P activity after := by
  obtain ⟨v, blob, -, -, -, hblob, rfl | ⟨hnone, event, hafter, hdetails⟩⟩ := recordStatusNotice_eq_ok h
  · exact noticesKept_refl _
  · exact noticesKept_of_notice hafter hdetails hblob hnone

end WorkStack.Service
