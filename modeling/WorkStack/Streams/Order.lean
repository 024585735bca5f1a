import WorkStack.Effect.Chains
import WorkStack.Python.Sorting
import WorkStack.Streams.Validation

/-!
# Valid streams

What the validator asks of a stream directory, without its diagnostics: every file is valid by itself,
and there is one global order of the events in which they are numbered from one on, sealed one after
the other unless no event carries a digest, and the planning facts of every task are linked. The
validator finds nothing exactly then.
-/

open WorkStack.Python WorkStack.Effect

namespace WorkStack.Streams

/-! ## Conditions -/

section Conditions

variable (R : StreamRules)

/-- A file is valid by itself. -/
structure FileValid (kind : StreamKind) (month : String) (values : List Event) : Prop where
  isMonth : isSegmentMonth month
  size : (segmentBody values).length ≤ maxStreamSegmentBytes
  contract : ∀ value ∈ values, meetsContract R kind value ∧ value.isCanonical
  order : (values.filterMap fun value ↦ value.exactInt? "sequence").Pairwise (· < ·)
  created : ∀ value ∈ values, ∀ text, value.text? "created_at" = some text → month.toList <+: text.toList

/-- An event stands where its number and the digest before it say, and claims its own digest. -/
def eventSealing : Sealing Entry String where
  Sealed n previous entry := entry.2.exactInt? "sequence" = some (n : ℤ) ∧
    entry.2.find "previous_event_digest" = textOrNull previous ∧
    ∃ digest, payloadDigest R entry.2 = some digest ∧ entry.2.find "event_digest" = .str digest
  digest entry := entry.2.text? "event_digest"

/-- How a planning fact is linked to the last one of its task. -/
def Linked : Option Entry → Event → Prop
  | none, value => ∀ key ∈ bootstrapFields, value.find key = .null
  | some prior, value => prior.1 = .planningStatus ∧ (∀ names ∈ transitionFields, (value.find names.1).same (prior.2.find names.2)) ∧
      revisionsFollow value prior.2 ∧ (value.find "status").same (prior.2.find "status") = false

/-- The threads of planning facts, one for each task. -/
def planningThreads : Threads Entry String where
  subject entry := if entry.1 = .planningStatus then entry.2.text? "task_uid" else none
  Link n prior entry := entry.2.find "legacy_fact_id" = .str (planningFactId n) ∧ Linked prior entry.2

/-- Entries in their global order. -/
structure ValidOrder (entries : List Entry) : Prop where
  contract : ∀ entry ∈ entries, meetsContract R entry.1 entry.2 ∧ entry.2.isCanonical
  sequence : entries.map (fun entry ↦ entry.2.exactInt? "sequence") = (sequenceRun entries.length).map some
  uids : (entries.map fun entry ↦ entry.2.text? "event_uid").Nodup
  digests : (∀ entry ∈ entries, isChained entry.2 = false) ∨ (eventSealing R).Chained 1 none entries
  planning : planningThreads.Threaded 1 (fun _ ↦ none) entries

end Conditions

/-- An event fits the rest of the authority. -/
structure Anchored (records : Records) (workspaceUid : Option String) (authorityUids : List String)
    (entry : Entry) : Prop where
  workspace : ∀ uid ∈ workspaceUid, (entry.2.find "workspace_uid").same (.str uid)
  fresh : ∀ uid, entry.2.text? "event_uid" = some uid → uid ∉ authorityUids
  record : ∀ uid, entry.2.text? "record_uid" = some uid → isRecord records uid
  references : ∀ reference ∈ expectedReferences entry.1 entry.2, ∀ uid,
    entry.2.text? reference.1 = some uid → (records reference.2).has uid
  recordUid : ∀ expected, expectedRecord entry.1 entry.2 = some expected →
    (entry.2.find "record_uid").same expected
  task : entry.1 = .planningStatus → ∀ task, (entry.2.text? "task_uid").bind (records .tasks).get = some task →
    (entry.2.find "task_display_id").same (task.find "display_id") ∧
      ∀ revision, (entry.2.find "new_revision").int? = some revision →
        revision ≤ ((task.get "revision").bind Json.int?).getD (-1)

/-- The events of a directory, each with its kind. -/
def entriesOf (files : StreamFiles) : List Entry :=
  files.items.flatMap fun file ↦ file.2.map fun value ↦ (file.1.1, value)

/-- The directory is valid. -/
structure ValidStreams (R : StreamRules) (files : StreamFiles) (records : Records) (workspaceUid : Option String)
    (authorityUids : List String) (entries : List Entry) : Prop where
  eachFile : ∀ file ∈ files.items, FileValid R file.1.1 file.1.2 file.2
  perm : (entriesOf files).Perm entries
  order : ValidOrder R entries
  anchored : ∀ entry ∈ entries, Anchored records workspaceUid authorityUids entry

/-! ## Values under a contract -/

theorem ite_nil_eq_nil {α : Type} {c : Prop} [Decidable c] {x : α} : (if c then [] else [x]) = [] ↔ c := by
  by_cases h : c <;> simp [h]

theorem ite_eq_nil {α : Type} {c : Prop} [Decidable c] {x : α} : (if c then [x] else []) = [] ↔ ¬c := by
  by_cases h : c <;> simp [h]

variable {key : String}

namespace Event

theorem find_eq_of_get {event : Event} {value : Json} (h : event.get key = some value) :
    event.find key = value := by
  rw [find, h, Option.getD_some]

theorem text?_eq_some_iff {event : Event} {key text : String} :
    event.text? key = some text ↔ event.find key = .str text := by
  rw [text?]
  cases event.find key <;> simp

theorem exactInt?_eq_some_iff {event : Event} {value : ℤ} :
    event.exactInt? key = some value ↔ event.find key = .int value := by
  rw [exactInt?]
  cases event.find key <;> simp

theorem get_of_find_str {event : Event} {key text : String} (h : event.find key = .str text) :
    event.get key = some (.str text) := by
  rw [find] at h
  cases hget : event.get key with
  | none =>
      rw [hget] at h
      cases h
  | some value =>
      rw [hget, Option.getD_some] at h
      rw [h]

theorem find_congr {event event' : Event} (h : event.get key = event'.get key) :
    event.find key = event'.find key := by
  rw [find, find, h]

theorem text?_congr {event event' : Event} (h : event.get key = event'.get key) :
    event.text? key = event'.text? key := by
  rw [text?, text?, find_congr h]

/-- A required property is there and admits its value. -/
theorem admits_of_meets {event : Event} {name : String} {admits : Json → Bool}
    (h : event.meets (required name admits)) : ∃ value, event.get name = some value ∧ admits value := by
  unfold meets required at h
  cases hget : event.get name with
  | none => simp [hget] at h
  | some value => exact ⟨value, rfl, by simpa [hget] using h⟩

theorem meets_congr {event event' : Event} {p : Property} (h : event.get p.name = event'.get p.name) :
    event.meets p = event'.meets p := by
  rw [meets, meets, h]

end Event

theorem exists_text_of_isText {accepts : String → Bool} {value : Json} (h : Value.isText accepts value) :
    ∃ text, value = .str text ∧ accepts text := by
  cases value with
  | str text => exact ⟨text, rfl, h⟩
  | _ => cases h

section Contract

variable {R : StreamRules} {kind : StreamKind} {value : Event}

theorem envelope_of_meetsContract (h : meetsContract R kind value) {p : Property} (hp : p ∈ envelope R kind) :
    value.meets p := by
  unfold meetsContract at h
  rw [Bool.and_eq_true, Bool.and_eq_true, List.all_eq_true] at h
  exact h.1.1 p hp

/-- A text that the envelope asks for. -/
theorem text_of_envelope (name : String) (accepts : String → Bool) (h : meetsContract R kind value)
    (hp : required name (Value.isText accepts) ∈ envelope R kind) :
    ∃ text, value.get name = some (.str text) ∧ accepts text := by
  obtain ⟨found, hget, hadmits⟩ := Event.admits_of_meets (envelope_of_meetsContract h hp)
  obtain ⟨text, rfl, haccepts⟩ := exists_text_of_isText hadmits
  exact ⟨text, hget, haccepts⟩

theorem format_of_meetsContract (h : meetsContract R kind value) : value.find "format" = .str kind.format := by
  obtain ⟨text, hget, haccepts⟩ := text_of_envelope "format" (· == kind.format) h
    (by simp [envelope, Value.isConst])
  rw [Event.find_eq_of_get hget, beq_iff_eq.mp haccepts]

theorem eventUid_of_meetsContract (h : meetsContract R kind value) :
    ∃ uid, value.get "event_uid" = some (.str uid) ∧ matchesLine (fits uuidShape) uid :=
  text_of_envelope _ _ h (by simp [envelope, Value.isUuid])

theorem sequence_of_meetsContract (h : meetsContract R kind value) :
    ∃ n : ℤ, value.get "sequence" = some (.int n) ∧ 1 ≤ n ∧ n ≤ Json.maxCanonicalInteger := by
  obtain ⟨found, hget, hadmits⟩ := Event.admits_of_meets (envelope_of_meetsContract h
    (p := required "sequence" (Value.isIntegerWithin 1 (some Json.maxCanonicalInteger))) (by simp [envelope]))
  cases found with
  | int n => exact ⟨n, hget, by simpa [Value.isIntegerWithin] using hadmits⟩
  | _ => cases hadmits

/-- The one variant an event of a kind with a single variant meets. -/
theorem variant_of_meetsContract (h : meetsContract R kind value) {variant : List Property}
    (hkind : variants R kind = [variant]) : ∀ p ∈ variant, value.meets p := by
  unfold meetsContract at h
  rw [Bool.and_eq_true, Bool.and_eq_true] at h
  have hlength := h.1.2
  unfold variantsMet at hlength
  rw [hkind] at hlength
  by_cases hall : variant.all value.meets
  · exact List.all_eq_true.mp hall
  · simp [hall] at hlength

theorem planning_of_meetsContract (h : meetsContract R .planningStatus value) :
    ∀ p ∈ planningStatusEvent R, value.meets p :=
  variant_of_meetsContract h rfl

theorem taskUid_of_meetsContract (h : meetsContract R .planningStatus value) :
    ∃ uid, value.get "task_uid" = some (.str uid) ∧ matchesLine (fits uuidShape) uid := by
  obtain ⟨found, hget, hadmits⟩ := Event.admits_of_meets (planning_of_meetsContract h
    (required "task_uid" Value.isUuid) (by simp [planningStatusEvent]))
  obtain ⟨uid, rfl, haccepts⟩ := exists_text_of_isText hadmits
  exact ⟨uid, hget, haccepts⟩

theorem subject_of_planning {entry : Entry} (hkind : entry.1 = .planningStatus)
    (h : meetsContract R entry.1 entry.2) : ∃ uid, planningThreads.subject entry = some uid := by
  rw [hkind] at h
  obtain ⟨uid, hget, _⟩ := taskUid_of_meetsContract h
  refine ⟨uid, ?_⟩
  simp only [planningThreads, hkind, if_true]
  exact Event.text?_eq_some_iff.mpr (Event.find_eq_of_get hget)

end Contract

/-! ## Reading the files -/

variable {event : StreamEvent}

section Files

variable {R : StreamRules} {kind : StreamKind} {month : String}

theorem streamLines_entry (number : ℕ) (values : List Event) :
    (streamLines kind month number values).map StreamEvent.entry = values.map fun value ↦ (kind, value) := by
  induction values generalizing number with
  | nil => rfl
  | cons value values ih => rw [streamLines, List.map_cons, ih, List.map_cons, StreamEvent.entry]

theorem streamLines_value (number : ℕ) (values : List Event) :
    (streamLines kind month number values).map StreamEvent.value = values := by
  have h := congrArg (List.map Prod.snd) (@streamLines_entry kind month number values)
  rw [List.map_map, List.map_map] at h
  exact h.trans (List.map_id values)

theorem lineIssues_eq_nil {artifact : String} {value : Event} :
    lineIssues R kind artifact value = [] ↔ meetsContract R kind value ∧ value.isCanonical := by
  unfold lineIssues
  rw [List.append_eq_nil_iff, List.append_eq_nil_iff, ite_nil_eq_nil, ite_nil_eq_nil, ite_nil_eq_nil]
  constructor
  · exact And.left
  · intro h
    refine ⟨h, ?_⟩
    rw [format_of_meetsContract h.1, Json.same_str, beq_self_eq_true]

theorem segmentMonthIssues_eq_nil :
    segmentMonthIssues month event = [] ↔
      ∀ text, event.value.text? "created_at" = some text → month.toList <+: text.toList := by
  unfold segmentMonthIssues
  cases event.value.text? "created_at" with
  | none => simp
  | some text =>
      simp only [ite_nil_eq_nil, List.isPrefixOf_iff_prefix, Option.some.injEq]
      constructor
      · rintro h _ rfl
        exact h
      · exact fun h ↦ h text rfl

theorem segmentOrderIssues_eq_nil {events : List StreamEvent} :
    segmentOrderIssues month events = [] ↔
      ((events.map StreamEvent.value).filterMap fun value ↦ value.exactInt? "sequence").Pairwise (· < ·) ∧
      ∀ value ∈ events.map StreamEvent.value, ∀ text,
        value.text? "created_at" = some text → month.toList <+: text.toList := by
  unfold segmentOrderIssues
  rw [List.append_eq_nil_iff, ite_nil_eq_nil, List.flatMap_eq_nil_iff, List.filterMap_map]
  simp only [segmentMonthIssues_eq_nil, List.forall_mem_map]
  rfl

/-- Reading a file finds nothing when the file is valid, but for its name. -/
theorem readStreamFile_eq_nil {values : List Event} :
    (if isSegmentMonth month then readStreamFile R kind month values
      else ([], [⟨"STREAM_SEGMENT_INVALID", segmentPath kind month, ""⟩])).2 = [] ↔ FileValid R kind month values := by
  by_cases hmonth : isSegmentMonth month
  · rw [if_pos hmonth]
    unfold readStreamFile
    by_cases hsize : maxStreamSegmentBytes < (segmentBody values).length
    · rw [if_pos hsize]
      simp only [List.cons_ne_nil, false_iff]
      exact fun h ↦ absurd h.size (by omega)
    · rw [if_neg hsize]
      simp only [List.append_eq_nil_iff, segmentOrderIssues_eq_nil, List.flatMap_eq_nil_iff, lineIssues_eq_nil]
      have hlines : (∀ event ∈ streamLines kind month 1 values,
            meetsContract R kind event.value ∧ event.value.isCanonical) ↔
          ∀ value ∈ values, meetsContract R kind value ∧ value.isCanonical := by
        conv_rhs => rw [← @streamLines_value kind month 1 values]
        rw [List.forall_mem_map]
      rw [hlines, streamLines_value]
      constructor
      · rintro ⟨hcontract, horder, hcreated⟩
        exact ⟨hmonth, by omega, hcontract, horder, hcreated⟩
      · exact fun h ↦ ⟨h.contract, h.order, h.created⟩
  · rw [if_neg hmonth]
    simp only [List.cons_ne_nil, false_iff]
    exact fun h ↦ hmonth h.isMonth

theorem loadV4Streams_eq_nil {files : StreamFiles} :
    (loadV4Streams R files).2 = [] ↔ ∀ file ∈ files.items, FileValid R file.1.1 file.1.2 file.2 := by
  unfold loadV4Streams
  simp only [List.flatMap_map, List.flatMap_eq_nil_iff, readStreamFile_eq_nil]

theorem loadV4Streams_entries {files : StreamFiles}
    (h : ∀ file ∈ files.items, FileValid R file.1.1 file.1.2 file.2) :
    (loadV4Streams R files).1.map StreamEvent.entry = entriesOf files := by
  unfold loadV4Streams entriesOf
  dsimp only
  rw [List.flatMap_map, List.map_flatMap]
  refine List.flatMap_congr fun file hmem ↦ ?_
  have hfile := h file hmem
  rw [if_pos hfile.isMonth]
  unfold readStreamFile
  rw [if_neg (by have := hfile.size; omega)]
  exact streamLines_entry 1 file.2

end Files

/-! ## The envelope -/

section Envelope

variable {workspaceUid : Option String} {authorityUids : List String}

theorem envelopeEventIssues_eq_nil {seenUids : List String} {sequences : List ℤ} :
    envelopeEventIssues workspaceUid authorityUids seenUids sequences event = [] ↔
      (∀ uid ∈ workspaceUid, (event.value.find "workspace_uid").same (.str uid)) ∧
      (∀ uid, event.value.text? "event_uid" = some uid → uid ∉ authorityUids ∧ uid ∉ seenUids) ∧
      ∀ sequence, event.value.exactInt? "sequence" = some sequence → sequence ∉ sequences := by
  unfold envelopeEventIssues
  rw [List.append_eq_nil_iff, List.append_eq_nil_iff, and_assoc]
  refine and_congr ?_ (and_congr ?_ ?_)
  · cases workspaceUid with
    | none => simp
    | some uid => simp
  · cases event.value.text? "event_uid" with
    | none => simp
    | some uid => simp [List.append_eq_nil_iff]
  · cases event.value.exactInt? "sequence" with
    | none => simp
    | some sequence => simp

/-- The loop finds nothing when every event fits and no identity and no number comes twice. -/
theorem envelopeLoop_eq_nil {seenUids : List String} {sequences : List ℤ} {events : List StreamEvent} :
    envelopeLoop workspaceUid authorityUids seenUids sequences events = [] ↔
      (∀ event ∈ events, (∀ uid ∈ workspaceUid, (event.value.find "workspace_uid").same (.str uid)) ∧
        ∀ uid, event.value.text? "event_uid" = some uid → uid ∉ authorityUids) ∧
      ((events.filterMap fun event ↦ event.value.text? "event_uid").Nodup ∧
        ∀ uid ∈ events.filterMap (fun event ↦ event.value.text? "event_uid"), uid ∉ seenUids) ∧
      (events.filterMap fun event ↦ event.value.exactInt? "sequence").Nodup ∧
        ∀ n ∈ events.filterMap (fun event ↦ event.value.exactInt? "sequence"), n ∉ sequences := by
  induction events generalizing seenUids sequences with
  | nil => simp [envelopeLoop]
  | cons event events ih =>
      rw [envelopeLoop, List.append_eq_nil_iff, ih, envelopeEventIssues_eq_nil]
      cases huid : event.value.text? "event_uid" with
      | none =>
          cases hsequence : event.value.exactInt? "sequence" with
          | none => simp [huid, hsequence]; grind
          | some n => simp [huid, hsequence]; grind
      | some uid =>
          cases hsequence : event.value.exactInt? "sequence" with
          | none => simp [huid, hsequence]; grind
          | some n => simp [huid, hsequence]; grind

end Envelope

/-! ## The global order -/

section Sorted

theorem sequenceRun_pairwise (n : ℕ) : (sequenceRun n).Pairwise (· < ·) := by
  unfold sequenceRun
  rw [List.pairwise_map]
  exact List.pairwise_lt_range.imp fun h ↦ by omega

theorem position_of_exactInt? {n : ℤ} (h : event.value.exactInt? "sequence" = some n) :
    event.position = n := by
  rw [StreamEvent.position, Event.exactInt?_eq_some_iff.mp h]
  rfl

/-- Events that are numbered from one on, in any order. -/
structure Numbered (events : List StreamEvent) (entries : List Entry) : Prop where
  perm : (events.map StreamEvent.entry).Perm entries
  sequence : entries.map (fun entry ↦ entry.2.exactInt? "sequence") = (sequenceRun entries.length).map some

namespace Numbered

variable {events : List StreamEvent} {entries : List Entry}

theorem map_find (h : Numbered events entries) :
    entries.map (fun entry ↦ (entry.2.find "sequence").int?.getD 0) = sequenceRun entries.length := by
  have hsome := congrArg (List.map fun number : Option ℤ ↦ number.getD 0) h.sequence
  rw [List.map_map, List.map_map] at hsome
  rw [List.map_congr_left (g := (fun number : Option ℤ ↦ number.getD 0) ∘ some) (fun _ _ ↦ rfl),
    show (fun number : Option ℤ ↦ number.getD 0) ∘ some = id from rfl, List.map_id] at hsome
  rw [← hsome]
  refine List.map_congr_left fun entry hentry ↦ ?_
  have hmem : entry.2.exactInt? "sequence" ∈ (sequenceRun entries.length).map some :=
    h.sequence ▸ List.mem_map_of_mem hentry
  obtain ⟨n, _, hn⟩ := List.mem_map.mp hmem
  rw [Function.comp_apply, ← hn, Event.exactInt?_eq_some_iff.mp hn.symm]
  rfl

theorem increasing (h : Numbered events entries) :
    entries.Pairwise fun a b ↦ (a.2.find "sequence").int?.getD 0 < (b.2.find "sequence").int?.getD 0 := by
  have hrun := sequenceRun_pairwise entries.length
  rw [← h.map_find, List.pairwise_map] at hrun
  exact hrun

/-- Sorting the events of some kinds yields the global order of those kinds. -/
theorem sortedEvents_filter (h : Numbered events entries) (p : StreamKind → Bool) :
    (sortedEvents (events.filter fun event ↦ p event.kind)).map StreamEvent.entry =
      entries.filter fun entry ↦ p entry.1 := by
  have hmap : ((events.filter fun event ↦ p event.kind).map StreamEvent.entry).Perm
      (entries.filter fun entry ↦ p entry.1) := by
    have hfilter := h.perm.filter fun entry ↦ p entry.1
    rw [List.filter_map] at hfilter
    exact hfilter
  have hsort := insertionSort_eq_of_perm (fun entry : Entry ↦ (entry.2.find "sequence").int?.getD 0) hmap
    (h.increasing.filter _)
  rw [← hsort, sortedEvents]
  exact List.map_insertionSort _ (fun a b : Entry ↦ (a.2.find "sequence").int?.getD 0 ≤
    (b.2.find "sequence").int?.getD 0) StreamEvent.entry _ fun _ _ _ _ ↦ Iff.rfl

theorem sortedEvents_eq (h : Numbered events entries) : (sortedEvents events).map StreamEvent.entry = entries := by
  have hfilter := h.sortedEvents_filter fun _ ↦ true
  rwa [List.filter_eq_self.mpr fun _ _ ↦ rfl, List.filter_eq_self.mpr fun _ _ ↦ rfl] at hfilter

end Numbered

/-- When every event has a number, the numbers in the order of the events are found by looking. -/
theorem filterMap_sequence {events : List StreamEvent}
    (h : ∀ event ∈ events, ∃ n, event.value.exactInt? "sequence" = some n) :
    (events.filterMap fun event ↦ event.value.exactInt? "sequence") = events.map StreamEvent.position := by
  rw [List.filterMap_congr (g := fun event ↦ some event.position)]
  · exact congrFun (List.filterMap_eq_map (f := StreamEvent.position)) events
  · intro event hevent
    obtain ⟨n, hn⟩ := h event hevent
    rw [hn, position_of_exactInt? hn]

theorem numbered_of_run {events : List StreamEvent}
    (h : ∀ event ∈ events, ∃ n, event.value.exactInt? "sequence" = some n)
    (hrun : ((events.filterMap fun event ↦ event.value.exactInt? "sequence").dedup.insertionSort (· ≤ ·)) =
      sequenceRun events.length) :
    Numbered events ((sortedEvents events).map StreamEvent.entry) := by
  rw [filterMap_sequence h] at hrun
  have hperm : (events.map StreamEvent.position).dedup.Perm (sequenceRun events.length) := by
    rw [← hrun]
    exact (List.perm_insertionSort _ _).symm
  have hlength : (events.map StreamEvent.position).dedup.length = (events.map StreamEvent.position).length := by
    rw [hperm.length_eq, List.length_map, sequenceRun, List.length_map, List.length_range]
  have hdedup : (events.map StreamEvent.position).dedup = events.map StreamEvent.position :=
    (List.dedup_sublist _).eq_of_length hlength
  rw [hdedup] at hperm
  have hsorted : (sortedEvents events).Perm events := List.perm_insertionSort _ _
  refine ⟨(hsorted.map _).symm, ?_⟩
  have hpositions : (sortedEvents events).map StreamEvent.position = sequenceRun events.length := by
    refine List.Perm.eq_of_pairwise' ?_ ((sequenceRun_pairwise _).imp le_of_lt) ((hsorted.map _).trans hperm)
    rw [List.pairwise_map]
    exact List.pairwise_insertionSort _ _
  rw [List.map_map, List.length_map, hsorted.length_eq, ← hpositions, List.map_map]
  refine List.map_congr_left fun event hevent ↦ ?_
  obtain ⟨n, hn⟩ := h event (hsorted.mem_iff.mp hevent)
  change event.value.exactInt? "sequence" = some event.position
  rw [hn, position_of_exactInt? hn]

theorem run_of_numbered {events : List StreamEvent} {entries : List Entry} (h : Numbered events entries) :
    (events.filterMap fun event ↦ event.value.exactInt? "sequence").Nodup ∧
    ((events.filterMap fun event ↦ event.value.exactInt? "sequence").dedup.insertionSort (· ≤ ·)) =
      sequenceRun events.length := by
  have hentries : (entries.filterMap fun entry ↦ entry.2.exactInt? "sequence") = sequenceRun entries.length := by
    have hid := congrArg (List.filterMap id) h.sequence
    rw [List.filterMap_map, List.filterMap_map] at hid
    simpa using hid
  have hperm : (events.filterMap fun event ↦ event.value.exactInt? "sequence").Perm
      (sequenceRun events.length) := by
    have hmap := h.perm.filterMap fun entry ↦ entry.2.exactInt? "sequence"
    rw [List.filterMap_map, hentries, ← h.perm.length_eq, List.length_map] at hmap
    exact hmap
  have hnodup : (sequenceRun events.length).Nodup := (sequenceRun_pairwise _).imp LT.lt.ne
  have hevents := hperm.nodup_iff.mpr hnodup
  refine ⟨hevents, ?_⟩
  rw [hevents.dedup]
  exact insertionSort_eq_of_perm id hperm (sequenceRun_pairwise _)

end Sorted

/-! ## The digest chain -/

section Digests

variable {R : StreamRules}

theorem same_null {value : Json} : value.same .null = true ↔ value = .null := by
  cases value <;> simp [Json.same, Json.int?]

theorem same_text {value : Json} {text : String} : value.same (.str text) = true ↔ value = .str text := by
  cases value <;> simp [Json.same, Json.int?]

theorem same_textOrNull {value : Json} {text : Option String} :
    value.same (textOrNull text) = true ↔ value = textOrNull text := by
  cases text with
  | none => exact same_null
  | some text => exact same_text

theorem Event.isCanonical_erase {event : Event} (h : event.isCanonical) (key : String) :
    Event.isCanonical (event.erase key) := by
  rw [Event.isCanonical_eq_true] at h ⊢
  intro other value hget
  rw [Mapping.get_erase] at hget
  split at hget
  · cases hget
  · exact h other value hget

/-- The digest of what an event says without the digest it claims. -/
def digestOf (R : StreamRules) (event : Event) : String := (R.sha256 (Event.bytes (event.erase "event_digest"))).text

theorem payloadDigest_of_isCanonical {event : Event} (h : event.isCanonical) :
    payloadDigest R event = some (digestOf R event) := by
  unfold payloadDigest canonicalJsonBytes
  rw [if_pos (Event.isCanonical_erase h _)]
  rfl

theorem digestEventIssues_eq_nil {index : ℕ} {previous : Option String} (h : event.value.isCanonical) :
    digestEventIssues R index previous event = [] ↔ event.value.find "previous_event_digest" = textOrNull previous ∧
      event.value.find "event_digest" = .str (digestOf R event.value) := by
  unfold digestEventIssues
  rw [List.append_eq_nil_iff, List.append_eq_nil_iff, ite_nil_eq_nil, ite_nil_eq_nil, ite_eq_nil,
    payloadDigest_of_isCanonical h, same_textOrNull, same_textOrNull]
  constructor
  · exact And.left
  · intro hevent
    refine ⟨hevent, ?_⟩
    rintro ⟨_, hnone⟩
    rw [Event.text?_eq_some_iff.mpr hevent.2] at hnone
    cases hnone

theorem digestLoop_eq_nil {index n : ℕ} {previous : Option String} {events : List StreamEvent} {entries : List Entry}
    (hentries : events.map StreamEvent.entry = entries) (hcanonical : ∀ entry ∈ entries, entry.2.isCanonical)
    (hsequence : entries.map (fun entry ↦ entry.2.exactInt? "sequence") =
      (List.range' n entries.length).map fun k : ℕ ↦ some (k : ℤ)) :
    digestLoop R index previous events = [] ↔ (eventSealing R).Chained n previous entries := by
  subst hentries
  induction events generalizing index n previous with
  | nil => exact iff_of_true rfl trivial
  | cons event events ih =>
      rw [List.map_cons, List.length_cons, List.range'_succ, List.map_cons, List.map_cons, List.cons.injEq] at hsequence
      have hevent := hcanonical event.entry (List.mem_cons_self ..)
      rw [digestLoop, List.append_eq_nil_iff, digestEventIssues_eq_nil hevent,
        ih (fun entry h ↦ hcanonical entry (List.mem_cons_of_mem _ h)) hsequence.2]
      refine and_congr_left fun _ ↦ ?_
      change _ ↔ _ ∧ _ ∧ ∃ digest, payloadDigest R event.value = some digest ∧ _
      rw [show payloadDigest R event.value = _ from payloadDigest_of_isCanonical hevent]
      constructor
      · exact fun h ↦ ⟨hsequence.1, h.1, _, rfl, h.2⟩
      · rintro ⟨_, hprevious, digest, hdigest, hclaimed⟩
        cases hdigest
        exact ⟨hprevious, hclaimed⟩

theorem digestChainIssues_eq_nil {events : List StreamEvent} {entries : List Entry} (h : Numbered events entries)
    (hcanonical : ∀ entry ∈ entries, entry.2.isCanonical) :
    digestChainIssues R events = [] ↔
      (∀ entry ∈ entries, isChained entry.2 = false) ∨ (eventSealing R).Chained 1 none entries := by
  have hrange : (sequenceRun entries.length).map some = (List.range' 1 entries.length).map fun k : ℕ ↦ some (k : ℤ) := by
    rw [sequenceRun, List.map_map, List.range'_eq_map_range, List.map_map]
    refine List.map_congr_left fun k _ ↦ ?_
    simp [add_comm]
  have hloop : digestLoop R 0 none (sortedEvents events) = [] ↔ (eventSealing R).Chained 1 none entries :=
    digestLoop_eq_nil h.sortedEvents_eq hcanonical (h.sequence.trans hrange)
  have hany : (events.any fun event ↦ isChained event.value) = false ↔
      ∀ entry ∈ entries, isChained entry.2 = false := by
    rw [List.any_eq_false]
    constructor
    · intro hnone entry hentry
      obtain ⟨event, hevent, rfl⟩ := List.mem_map.mp (h.perm.mem_iff.mpr hentry)
      exact Bool.eq_false_iff.mpr (hnone event hevent)
    · intro hnone event hevent
      exact Bool.eq_false_iff.mp (hnone _ (h.perm.mem_iff.mp (List.mem_map_of_mem hevent)))
  unfold digestChainIssues
  by_cases hchained : events.any fun event ↦ isChained event.value
  · rw [if_pos hchained, hloop]
    refine (or_iff_right ?_).symm
    rw [← hany, hchained]
    exact fun h ↦ by cases h
  · rw [if_neg hchained]
    exact iff_of_true rfl (Or.inl (hany.mp (Bool.eq_false_iff.mpr hchained)))

end Digests

/-! ## The references -/

section References

variable {records : Records}

theorem referenceIssue_eq_nil {targets : Mapping String Event} :
    referenceIssue event key targets = [] ↔ ∀ uid, event.value.text? key = some uid → targets.has uid := by
  unfold referenceIssue
  cases event.value.text? key with
  | none => simp
  | some uid => simp

theorem eventRecordReferenceIssues_eq_nil :
    eventRecordReferenceIssues records event = [] ↔
      (∀ uid, event.value.text? "record_uid" = some uid → isRecord records uid) ∧
      (∀ reference ∈ expectedReferences event.kind event.value, ∀ uid,
        event.value.text? reference.1 = some uid → (records reference.2).has uid) ∧
      ∀ expected, expectedRecord event.kind event.value = some expected →
        (event.value.find "record_uid").same expected := by
  unfold eventRecordReferenceIssues eventRecordUidIssues
  rw [List.append_eq_nil_iff, List.append_eq_nil_iff, List.flatMap_eq_nil_iff, and_assoc]
  refine and_congr ?_ (and_congr ?_ ?_)
  · cases event.value.text? "record_uid" with
    | none => simp
    | some uid => simp
  · simp only [referenceIssue_eq_nil]
  · cases expectedRecord event.kind event.value with
    | none => simp
    | some expected => simp

end References

/-! ## The threads of planning facts -/

section Planning

variable {R : StreamRules} {tasks : Mapping String Event}

theorem planningFactId_injective {m n : ℕ} (h : planningFactId m = planningFactId n) : m = n := by
  have hchars : "PS-".toList ++ zeroPadded 6 m = "PS-".toList ++ zeroPadded 6 n := String.ofList_injective h
  exact zeroPadded_injective (List.append_cancel_left hchars)

/-- The part of the planning checks that looks at the record of the task. -/
def FitsTask (tasks : Mapping String Event) (value : Event) : Prop :=
  ∀ task, (value.text? "task_uid").bind tasks.get = some task →
    (value.find "task_display_id").same (task.find "display_id") ∧
      ∀ revision, (value.find "new_revision").int? = some revision →
        revision ≤ ((task.get "revision").bind Json.int?).getD (-1)

theorem planningTaskIssues_eq_nil {task : Event} :
    planningTaskIssues event task = [] ↔ (event.value.find "task_display_id").same (task.find "display_id") ∧
      ∀ revision, (event.value.find "new_revision").int? = some revision →
        revision ≤ ((task.get "revision").bind Json.int?).getD (-1) := by
  unfold planningTaskIssues
  rw [List.append_eq_nil_iff, ite_nil_eq_nil]
  refine and_congr_right fun _ ↦ ?_
  cases (event.value.find "new_revision").int? with
  | none => simp
  | some revision => simp

theorem isNull_eq_true {value : Json} : Value.isNull value = true ↔ value = .null := by
  cases value <;> simp [Value.isNull]

theorem planningBootstrapIssues_eq_nil :
    planningBootstrapIssues event = [] ↔ Linked none event.value := by
  unfold planningBootstrapIssues Linked
  rw [ite_eq_nil, Bool.not_eq_true, List.any_eq_false]
  simp [isNull_eq_true]

theorem planningTransitionIssues_eq_nil {prior : Event} :
    planningTransitionIssues event prior = [] ↔ Linked (some (.planningStatus, prior)) event.value := by
  unfold planningTransitionIssues Linked
  rw [List.append_eq_nil_iff, List.append_eq_nil_iff, List.flatMap_eq_nil_iff, ite_nil_eq_nil, ite_eq_nil, and_assoc,
    Bool.not_eq_true]
  simp only [ite_nil_eq_nil, true_and]

theorem planningEventIssues_eq_nil {index : ℕ} {heads : Dict String Event} {seenLegacy : List String} {uid : String}
    (huid : event.value.text? "task_uid" = some uid) (hseen : planningFactId index ∉ seenLegacy) :
    planningEventIssues tasks index heads seenLegacy event = [] ↔
      (event.value.find "legacy_fact_id" = .str (planningFactId index) ∧
        Linked ((heads.get uid).map fun value ↦ (.planningStatus, value)) event.value) ∧ FitsTask tasks event.value := by
  have hlinked : planningLinkIssues heads event = [] ↔
      Linked ((heads.get uid).map fun value ↦ (.planningStatus, value)) event.value := by
    unfold planningLinkIssues headOf
    rw [huid, Option.bind_some]
    cases heads.get uid with
    | none => exact planningBootstrapIssues_eq_nil
    | some prior => exact planningTransitionIssues_eq_nil
  have htask : planningRecordIssues tasks event = [] ↔ FitsTask tasks event.value := by
    unfold planningRecordIssues FitsTask
    cases (event.value.text? "task_uid").bind tasks.get with
    | none => simp
    | some task => simp [planningTaskIssues_eq_nil]
  have hlegacy : planningLegacyIssues index seenLegacy event = [] ↔
      event.value.find "legacy_fact_id" = .str (planningFactId index) := by
    unfold planningLegacyIssues
    rw [List.append_eq_nil_iff, ite_nil_eq_nil, same_text, and_iff_right_iff_imp]
    intro hfind
    rw [Event.text?_eq_some_iff.mpr hfind]
    simp [hseen]
  unfold planningEventIssues
  rw [List.append_eq_nil_iff, List.append_eq_nil_iff, hlinked, htask, hlegacy]
  exact and_right_comm

theorem planningLoop_eq_nil {index : ℕ} {heads : Dict String Event} {seenLegacy : List String}
    {events : List StreamEvent} {entries : List Entry}
    (hentries : events.map StreamEvent.entry = entries.filter fun entry ↦ entry.1 = .planningStatus)
    (hcontract : ∀ entry ∈ entries, meetsContract R entry.1 entry.2)
    (hseen : ∀ m, index ≤ m → planningFactId m ∉ seenLegacy) :
    planningLoop tasks index heads seenLegacy events = [] ↔
      planningThreads.Threaded index (fun uid ↦ (heads.get uid).map fun value ↦ (.planningStatus, value)) entries ∧
      ∀ entry ∈ entries, entry.1 = .planningStatus → FitsTask tasks entry.2 := by
  induction entries generalizing index heads seenLegacy events with
  | nil =>
      rw [List.filter_nil, List.map_eq_nil_iff] at hentries
      subst hentries
      exact iff_of_true rfl ⟨trivial, fun _ h ↦ by cases h⟩
  | cons entry entries ih =>
      have hrest := fun other h ↦ hcontract other (List.mem_cons_of_mem entry h)
      by_cases hkind : entry.1 = .planningStatus
      · rw [List.filter_cons_of_pos (by simpa using hkind)] at hentries
        cases events with
        | nil => cases hentries
        | cons event events =>
            rw [List.map_cons, List.cons.injEq] at hentries
            obtain ⟨rfl, htail⟩ := hentries
            obtain ⟨uid, hsubject⟩ := subject_of_planning hkind (hcontract _ (List.mem_cons_self ..))
            have huid : event.value.text? "task_uid" = some uid := by
              exact (by simpa [planningThreads, StreamEvent.entry] using hsubject : _ ∧ _).2
            rw [Threads.threaded_cons_of_some hsubject, planningLoop, List.append_eq_nil_iff,
              planningEventIssues_eq_nil huid (hseen index le_rfl)]
            have hheads : Function.update
                (fun other ↦ (heads.get other).map fun value ↦ ((.planningStatus, value) : Entry)) uid
                (some event.entry) = fun other ↦ ((withHead heads event.value).get other).map
                  fun value ↦ (.planningStatus, value) := by
              funext other
              rw [withHead, huid]
              change _ = (Dict.get (Dict.set uid event.value heads) other).map _
              rw [Dict.get_set]
              by_cases hother : other = uid
              · subst hother
                rw [Function.update_self, if_pos rfl, Option.map_some]
                exact congrArg some (Prod.ext hkind rfl)
              · rw [Function.update_of_ne hother, if_neg (Ne.symm hother)]
            have hseen' : event.value.find "legacy_fact_id" = .str (planningFactId index) → ∀ m, index + 1 ≤ m →
                planningFactId m ∉ (event.value.text? "legacy_fact_id").toList ++ seenLegacy := by
              intro hlegacy m hm
              rw [Event.text?_eq_some_iff.mpr hlegacy, Option.toList_some, List.singleton_append, List.mem_cons, not_or]
              exact ⟨fun h ↦ absurd (planningFactId_injective h) (by omega), hseen m (by omega)⟩
            constructor
            · rintro ⟨⟨⟨hlegacy, hlink⟩, hfits⟩, hloop⟩
              obtain ⟨hthread, hall⟩ := (ih htail hrest (hseen' hlegacy)).mp hloop
              rw [hheads]
              exact ⟨⟨⟨hlegacy, hlink⟩, hthread⟩, List.forall_mem_cons.mpr ⟨fun _ ↦ hfits, hall⟩⟩
            · rintro ⟨⟨⟨hlegacy, hlink⟩, hthread⟩, hall⟩
              rw [hheads] at hthread
              obtain ⟨hfits, hall⟩ := List.forall_mem_cons.mp hall
              exact ⟨⟨⟨hlegacy, hlink⟩, hfits hkind⟩, (ih htail hrest (hseen' hlegacy)).mpr ⟨hthread, hall⟩⟩
      · rw [List.filter_cons_of_neg (by simpa using hkind)] at hentries
        have hsubject : planningThreads.subject entry = none := by
          simp [planningThreads, hkind]
        rw [Threads.threaded_cons_of_none hsubject, ih hentries hrest hseen, List.forall_mem_cons]
        exact and_congr_right fun _ ↦ (and_iff_right fun h ↦ absurd h hkind).symm

end Planning

/-! ## What the validator asks -/

section Validator

variable {R : StreamRules} {files : StreamFiles} {records : Records} {workspaceUid : Option String}
  {authorityUids : List String}

theorem map_uid {entries : List Entry} (h : ∀ entry ∈ entries, meetsContract R entry.1 entry.2) :
    entries.map (fun entry ↦ entry.2.text? "event_uid") =
      (entries.filterMap fun entry ↦ entry.2.text? "event_uid").map some := by
  induction entries with
  | nil => rfl
  | cons entry entries ih =>
      obtain ⟨uid, hget, _⟩ := eventUid_of_meetsContract (h entry (List.mem_cons_self ..))
      have huid : entry.2.text? "event_uid" = some uid := Event.text?_eq_some_iff.mpr (Event.find_eq_of_get hget)
      rw [List.map_cons, List.filterMap_cons, huid, ih fun other hother ↦ h other (List.mem_cons_of_mem _ hother)]
      rfl

theorem nodup_map_uid_iff {entries : List Entry} (h : ∀ entry ∈ entries, meetsContract R entry.1 entry.2) :
    (entries.map fun entry ↦ entry.2.text? "event_uid").Nodup ↔
      (entries.filterMap fun entry ↦ entry.2.text? "event_uid").Nodup := by
  rw [map_uid h]
  exact List.nodup_map_iff (Option.some_injective _)

theorem semanticIssues_eq_nil_iff {events : List StreamEvent} {entries : List Entry} (h : Numbered events entries)
    (hcontract : ∀ entry ∈ entries, meetsContract R entry.1 entry.2 ∧ entry.2.isCanonical) :
    streamSemanticIssues R events records workspaceUid authorityUids = [] ↔
      ((entries.map fun entry ↦ entry.2.text? "event_uid").Nodup ∧
        ((∀ entry ∈ entries, isChained entry.2 = false) ∨ (eventSealing R).Chained 1 none entries) ∧
        planningThreads.Threaded 1 (fun _ ↦ none) entries) ∧
      ∀ entry ∈ entries, Anchored records workspaceUid authorityUids entry := by
  obtain ⟨hnodup, hrun⟩ := run_of_numbered h
  have hmeets := fun entry hentry ↦ (hcontract entry hentry).1
  have hforall : ∀ {P : Entry → Prop}, (∀ event ∈ events, P event.entry) ↔ ∀ entry ∈ entries, P entry := by
    intro P
    rw [← List.forall_mem_map]
    exact forall_congr' fun entry ↦ by rw [h.perm.mem_iff]
  have huids : (events.filterMap fun event ↦ event.value.text? "event_uid").Nodup ↔
      (entries.map fun entry ↦ entry.2.text? "event_uid").Nodup := by
    rw [nodup_map_uid_iff hmeets]
    have hperm := h.perm.filterMap fun entry ↦ entry.2.text? "event_uid"
    rw [List.filterMap_map] at hperm
    exact hperm.nodup_iff
  have hplanning := @planningLoop_eq_nil _ (records .tasks) 1 [] [] _ _
    (h.sortedEvents_filter fun kind ↦ decide (kind = .planningStatus)) hmeets (fun _ _ ↦ List.not_mem_nil)
  have hreferences : events.flatMap (eventRecordReferenceIssues records) = [] ↔ ∀ entry ∈ entries,
      (∀ uid, entry.2.text? "record_uid" = some uid → isRecord records uid) ∧
      (∀ reference ∈ expectedReferences entry.1 entry.2, ∀ uid,
        entry.2.text? reference.1 = some uid → (records reference.2).has uid) ∧
      ∀ expected, expectedRecord entry.1 entry.2 = some expected → (entry.2.find "record_uid").same expected := by
    rw [List.flatMap_eq_nil_iff, ← hforall]
    exact forall₂_congr fun event _ ↦ eventRecordReferenceIssues_eq_nil
  have henvelope : eventEnvelopeIssues events workspaceUid authorityUids = [] ↔
      (∀ entry ∈ entries, (∀ uid ∈ workspaceUid, (entry.2.find "workspace_uid").same (.str uid)) ∧
        ∀ uid, entry.2.text? "event_uid" = some uid → uid ∉ authorityUids) ∧
      (entries.map fun entry ↦ entry.2.text? "event_uid").Nodup := by
    unfold eventEnvelopeIssues
    rw [List.append_eq_nil_iff, if_pos hrun, envelopeLoop_eq_nil, huids, ← hforall]
    simp [hnodup]
    exact fun _ ↦ Iff.rfl
  unfold streamSemanticIssues planningStatusIssues
  rw [List.append_eq_nil_iff, List.append_eq_nil_iff, List.append_eq_nil_iff, henvelope,
    digestChainIssues_eq_nil h fun entry hentry ↦ (hcontract entry hentry).2, hreferences]
  rw [show (fun event : StreamEvent ↦ decide (event.kind = .planningStatus)) =
    fun event ↦ (fun kind ↦ decide (kind = .planningStatus)) event.kind from rfl, hplanning]
  constructor
  · rintro ⟨⟨⟨⟨hfits, hnodup⟩, hdigests⟩, hrefs⟩, hthread, htasks⟩
    refine ⟨⟨hnodup, hdigests, hthread⟩, fun entry hentry ↦ ?_⟩
    obtain ⟨hrecord, hexpected, huid⟩ := hrefs entry hentry
    exact ⟨(hfits entry hentry).1, (hfits entry hentry).2, hrecord, hexpected, huid, htasks entry hentry⟩
  · rintro ⟨⟨hnodup, hdigests, hthread⟩, hall⟩
    exact ⟨⟨⟨⟨fun entry h ↦ ⟨(hall entry h).workspace, (hall entry h).fresh⟩, hnodup⟩, hdigests⟩,
      fun entry h ↦ ⟨(hall entry h).record, (hall entry h).references, (hall entry h).recordUid⟩⟩,
      hthread, fun entry h ↦ (hall entry h).task⟩

theorem contract_of_files (h : ∀ file ∈ files.items, FileValid R file.1.1 file.1.2 file.2) :
    ∀ entry ∈ entriesOf files, meetsContract R entry.1 entry.2 ∧ entry.2.isCanonical := by
  intro entry hentry
  obtain ⟨file, hfile, hmem⟩ := List.mem_flatMap.mp hentry
  obtain ⟨value, hvalue, rfl⟩ := List.mem_map.mp hmem
  exact (h file hfile).contract value hvalue

/-- The validator finds nothing in a directory exactly when its files are valid and its events have a
valid global order. -/
theorem streamIssues_eq_nil_iff : streamIssues R files records workspaceUid authorityUids = [] ↔
    ∃ entries, ValidStreams R files records workspaceUid authorityUids entries := by
  unfold streamIssues
  rw [List.append_eq_nil_iff, loadV4Streams_eq_nil]
  constructor
  · rintro ⟨hfiles, hsemantic⟩
    have hentries := loadV4Streams_entries hfiles
    have hcontract := contract_of_files hfiles
    rw [← hentries] at hcontract
    have hsequence : ∀ event ∈ (loadV4Streams R files).1, ∃ n, event.value.exactInt? "sequence" = some n := by
      intro event hevent
      obtain ⟨n, hget, _⟩ := sequence_of_meetsContract (hcontract _ (List.mem_map_of_mem hevent)).1
      exact ⟨n, Event.exactInt?_eq_some_iff.mpr (Event.find_eq_of_get hget)⟩
    have hgap := hsemantic
    unfold streamSemanticIssues eventEnvelopeIssues at hgap
    simp only [List.append_eq_nil_iff, ite_nil_eq_nil] at hgap
    have hnumbered := numbered_of_run hsequence hgap.1.1.1.2
    have hcontract' := fun entry h ↦ hcontract entry (hnumbered.perm.mem_iff.mpr h)
    obtain ⟨⟨huids, hdigests, hthread⟩, hanchored⟩ := (semanticIssues_eq_nil_iff hnumbered hcontract').mp hsemantic
    exact ⟨_, hfiles, hentries ▸ hnumbered.perm, ⟨hcontract', hnumbered.sequence, huids, hdigests, hthread⟩, hanchored⟩
  · rintro ⟨entries, h⟩
    have hnumbered : Numbered (loadV4Streams R files).1 entries :=
      ⟨(loadV4Streams_entries h.eachFile) ▸ h.perm, h.order.sequence⟩
    exact ⟨h.eachFile, (semanticIssues_eq_nil_iff hnumbered h.order.contract).mpr
      ⟨⟨h.order.uids, h.order.digests, h.order.planning⟩, h.anchored⟩⟩

end Validator

end WorkStack.Streams
