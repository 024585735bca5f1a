import Mathlib
import WorkStack.Python.Sha256
import WorkStack.Streams.Segments

/-!
# A deletion leaves valid streams

From a valid directory whose events carry their digests, the rewrite removes every event of a task and
leads to a valid directory of exactly the other events in their order, in which every other task has
the planning status it had. Its targets expect the digests of the files it read, and there are none
when the deletion names nothing.
-/

open WorkStack.Python WorkStack.Effect

namespace WorkStack.Streams

/-! ## What stays the same -/

/-- The events of a directory in their global order. -/
def globalOrder (files : StreamFiles) : List Entry :=
  (entriesOf files).insertionSort fun a b ↦ positionOf a ≤ positionOf b

/-- An event under another number, seal and fact identity. -/
def SameEvent (entry done : Entry) : Prop :=
  done.1 = entry.1 ∧ ∀ key ∉ rewrittenKeys entry.1, done.2.get key = entry.2.get key

/-- The sort key of `_planning_indexes`. -/
def factKey (event : Event) : ℤ ×ₗ String :=
  toLex ((event.find "sequence").int?.getD 0, (event.text? "legacy_fact_id").getD "")

/-- The facts of a task under `_planning_indexes`. -/
def taskFacts (events : List Event) (uid : String) : List Event :=
  (events.filter fun event ↦ event.text? "task_uid" == some uid).insertionSort fun a b ↦ factKey a ≤ factKey b

/-- The current status that `_planning_indexes` finds for a task, with the display identity it puts it under. -/
def currentStatus (events : List Event) (uid : String) : Option (Json × Json) :=
  (taskFacts events uid).getLast?.map fun event ↦ (event.find "task_display_id", event.find "status")

section Order

variable {R : StreamRules} {files : StreamFiles} {entries done : List Entry}

theorem globalOrder_eq (hperm : (entriesOf files).Perm entries) (horder : ValidOrder R entries) :
    globalOrder files = entries :=
  insertionSort_eq_of_perm _ hperm (increasing_of_validOrder horder)

theorem name_notMem_rewrittenKeys {key : String} (hkey : key ∉ sealKeys ++ linkKeys) (kind : StreamKind) :
    key ∉ rewrittenKeys kind := by
  unfold rewrittenKeys
  split
  · exact hkey
  · exact fun hmem ↦ hkey (List.mem_append_left _ hmem)

namespace Rewrote

variable {entry other : Entry} (h : Rewrote R entry other)

include h

theorem get_eq {key : String} (hkey : key ∉ sealKeys ++ linkKeys) : other.2.get key = entry.2.get key :=
  h.get key (name_notMem_rewrittenKeys hkey _)

theorem pathOf_eq : pathOf other = pathOf entry := by
  rw [pathOf, pathOf, h.kind, monthOf_congr (h.get_eq (by decide))]

theorem placed (hentry : Placed entry) : Placed other := by
  unfold Placed at hentry ⊢
  rw [h.pathOf_eq, h.kind, segmentArtifact_congr (h.get_eq (by decide))]
  exact hentry

/-- An event that fits the records still fits them. -/
theorem anchored {records : Records} {workspaceUid : Option String} {authorityUids : List String}
    (hentry : Anchored records workspaceUid authorityUids entry) :
    Anchored records workspaceUid authorityUids other := by
  have hfind : ∀ key ∉ sealKeys ++ linkKeys, other.2.find key = entry.2.find key :=
    fun key hkey ↦ Event.find_congr (h.get_eq hkey)
  have htext : ∀ key ∉ sealKeys ++ linkKeys, other.2.text? key = entry.2.text? key :=
    fun key hkey ↦ Event.text?_congr (h.get_eq hkey)
  have hwork : isTaskWork other.2 = isTaskWork entry.2 := by
    unfold isTaskWork
    rw [htext "kind" (by decide)]
  have hreferences : expectedReferences other.1 other.2 = expectedReferences entry.1 entry.2 := by
    unfold expectedReferences
    rw [h.kind, hwork]
  have hrecord : expectedRecord other.1 other.2 = expectedRecord entry.1 entry.2 := by
    have hnames : ["task_uid", "capture_uid", "reply_uid"].filterMap other.2.text? =
        ["task_uid", "capture_uid", "reply_uid"].filterMap entry.2.text? := by
      refine List.filterMap_congr fun key hkey ↦ htext key ?_
      revert key
      decide
    unfold expectedRecord
    rw [h.kind, hwork, hnames, hfind "task_uid" (by decide)]
  have hreferenceKeys : ∀ reference ∈ expectedReferences entry.1 entry.2, reference.1 ∉ sealKeys ++ linkKeys := by
    unfold expectedReferences
    cases entry.1 with
    | activity => dsimp only; decide
    | planningStatus => dsimp only; decide
    | worklog =>
        dsimp only
        split <;> decide
  constructor
  · rw [hfind _ (by decide)]
    exact hentry.workspace
  · rw [htext _ (by decide)]
    exact hentry.fresh
  · rw [htext _ (by decide)]
    exact hentry.record
  · rw [hreferences]
    intro reference hreference
    rw [htext _ (hreferenceKeys reference hreference)]
    exact hentry.references reference hreference
  · rw [hrecord, hfind _ (by decide)]
    exact hentry.recordUid
  · rw [h.kind, htext _ (by decide), hfind _ (by decide), hfind _ (by decide)]
    exact hentry.task

end Rewrote

theorem length_segmentBody_le {events others : List Event}
    (h : List.Forall₂ (fun event other ↦ ∀ key, width (other.get key) ≤ width (event.get key)) events others) :
    (segmentBody others).length ≤ (segmentBody events).length := by
  induction h with
  | nil => exact le_rfl
  | cons hwidth _ ih =>
      have hbytes := Event.length_bytes_le hwidth
      unfold segmentBody at ih ⊢
      rw [List.flatMap_cons, List.flatMap_cons, List.length_append, List.length_append, List.length_append,
        List.length_append]
      omega

theorem segmentEvents_rel {P : Entry → Entry → Prop} (hpath : ∀ entry other, P entry other → pathOf other = pathOf entry)
    (hrel : List.Forall₂ P entries done) (artifact : String) :
    List.Forall₂ P (entries.filter fun entry ↦ pathOf entry = artifact)
      (done.filter fun entry ↦ pathOf entry = artifact) := by
  refine List.rel_filter ?_ hrel
  intro entry other hother
  dsimp only
  rw [hpath entry other hother]

/-- The events that are left fit into the files of the directory. -/
theorem fits_of_rewrote {kept : Entry → Bool} (hfiles : ∀ file ∈ files.items, FileValid R file.1.1 file.1.2 file.2)
    (hperm : (entriesOf files).Perm entries) (horder : ValidOrder R entries)
    (hrel : List.Forall₂ (Rewrote R) (entries.filter kept) done) : Fits files done := by
  have hsegment : ∀ artifact, List.Forall₂ (Rewrote R) ((entries.filter kept).filter fun entry ↦ pathOf entry = artifact)
      (done.filter fun entry ↦ pathOf entry = artifact) :=
    segmentEvents_rel (fun _ _ h ↦ h.pathOf_eq) hrel
  have hsub : ∀ artifact, (segmentEvents (entries.filter kept) artifact).Sublist (segmentEvents entries artifact) :=
    fun artifact ↦ (List.filter_sublist.filter _).map _
  constructor
  · intro entry hentry
    obtain ⟨original, horiginal, hrewrote⟩ := exists_of_forall₂_right hrel hentry
    obtain ⟨hplaced, file, hfile, hpath⟩ :=
      placed_of_mem hfiles (hperm.mem_iff.mpr (List.mem_of_mem_filter horiginal))
    exact ⟨hrewrote.placed hplaced, file, hfile, hrewrote.pathOf_eq.trans hpath⟩
  · intro file hfile hempty
    have hleft : segmentEvents (entries.filter kept) (filePath file) = [] := by
      have hnone := hsub (filePath file)
      rw [segmentEvents_eq hfiles hperm horder hfile, hempty] at hnone
      exact List.sublist_nil.mp hnone
    have hlength := (hsegment (filePath file)).length_eq
    unfold segmentEvents at hleft ⊢
    rw [List.map_eq_nil_iff] at hleft ⊢
    rw [hleft, List.length_nil] at hlength
    exact List.length_eq_zero_iff.mp hlength.symm
  · intro file hfile
    have hnarrower : (segmentBody (segmentEvents done (filePath file))).length ≤
        (segmentBody (segmentEvents (entries.filter kept) (filePath file))).length := by
      refine length_segmentBody_le ?_
      unfold segmentEvents
      rw [List.forall₂_map_left_iff, List.forall₂_map_right_iff]
      exact (hsegment (filePath file)).imp fun _ _ h ↦ h.narrower
    have hshorter := ((hsub (filePath file)).flatMap fun event ↦ event.bytes ++ [10]).length_le
    rw [segmentEvents_eq hfiles hperm horder hfile] at hshorter
    exact hnarrower.trans hshorter

end Order

/-! ## Links and seals are settled by the rest -/

/-- An event that is left, and the same but for its seal. -/
def SameButSeal (R : StreamRules) (entry done : Entry) : Prop :=
  Rewrote R entry done ∧ ∀ key ∉ sealKeys, done.2.get key = entry.2.get key

/-- The same event in every field. -/
def SameFields (entry done : Entry) : Prop := done.1 = entry.1 ∧ ∀ key, done.2.get key = entry.2.get key

section Unique

variable {R : StreamRules} {entries done : List Entry}

theorem get_of_find_int {event : Event} {key : String} {value : ℤ} (h : event.find key = .int value) :
    event.get key = some (.int value) := by
  unfold Event.find at h
  cases hget : event.get key with
  | none =>
      rw [hget] at h
      cases h
  | some found =>
      rw [hget, Option.getD_some] at h
      rw [h]

theorem sameButSeal_of_linked {n : ℕ} {prior prior' : Option Entry} {entry other : Entry} (h : Rewrote R entry other)
    (hsubject : (planningThreads.subject entry).isSome) (hprior : Option.Rel (SameButSeal R) prior prior')
    (hentry : planningThreads.Link n prior entry) (hother : planningThreads.Link n prior' other) :
    SameButSeal R entry other := by
  have hkind : entry.1 = .planningStatus := by
    by_contra hne
    simp [planningThreads, hne] at hsubject
  have hcontract : meetsContract R .planningStatus entry.2 := hkind ▸ h.original
  have hcontract' : meetsContract R .planningStatus other.2 := (h.kind.trans hkind) ▸ h.contract.1
  have hlegacy : other.2.get "legacy_fact_id" = entry.2.get "legacy_fact_id" :=
    (Event.get_of_find_str hother.1).trans (Event.get_of_find_str hentry.1).symm
  have hbefore : other.2.find "previous_legacy_fact_id" = entry.2.find "previous_legacy_fact_id" := by
    cases hprior with
    | none =>
        rw [hother.2 "previous_legacy_fact_id" (by decide), hentry.2 "previous_legacy_fact_id" (by decide)]
    | some hsame =>
        obtain ⟨hkindPrior, hfields, _⟩ := hentry.2
        obtain ⟨_, hfields', _⟩ := hother.2
        obtain ⟨text, htext⟩ := legacy_of_planning (hkindPrior ▸ hsame.1.original)
        have hprevious := hfields ("previous_legacy_fact_id", "legacy_fact_id") (by decide)
        have hprevious' := hfields' ("previous_legacy_fact_id", "legacy_fact_id") (by decide)
        rw [htext, same_text] at hprevious
        rw [Event.find_congr (hsame.2 _ (by decide)), htext, same_text] at hprevious'
        exact hprevious'.trans hprevious.symm
  refine ⟨h, fun key hkey ↦ ?_⟩
  by_cases hlink : key ∈ linkKeys
  · simp only [linkKeys, List.mem_cons, List.not_mem_nil, or_false] at hlink
    rcases hlink with rfl | rfl
    · exact hlegacy
    · rw [bootstrapField_of_planning hcontract' (by decide), bootstrapField_of_planning hcontract (by decide), hbefore]
  · exact h.get_eq fun hmem ↦ (List.mem_append.mp hmem).elim hkey hlink

/-- Two events with the same place in a chain differ at most in their seals, which say the same. -/
theorem sameFields_of_sealed {n : ℕ} {previous : Option String} {entry other : Entry} (h : SameButSeal R entry other)
    (hentry : (eventSealing R).Sealed n previous entry) (hother : (eventSealing R).Sealed n previous other) :
    SameFields entry other := by
  obtain ⟨hsequence, hbefore, digest, hdigest, hclaimed⟩ := hentry
  obtain ⟨hsequence', hbefore', digest', hdigest', hclaimed'⟩ := hother
  have hnumber : other.2.get "sequence" = entry.2.get "sequence" :=
    (get_of_find_int (Event.exactInt?_eq_some_iff.mp hsequence')).trans
      (get_of_find_int (Event.exactInt?_eq_some_iff.mp hsequence)).symm
  have hprevious : ∀ {e : Entry}, meetsContract R e.1 e.2 → e.2.find "previous_event_digest" = textOrNull previous →
      e.2.get "previous_event_digest" = previous.map .str := by
    intro e hcontract hfind
    cases previous with
    | some text => exact Event.get_of_find_str hfind
    | none =>
        have hmeets := envelope_of_meetsContract hcontract
          (show optional "previous_event_digest" Value.isSha256 ∈ envelope R e.1 by simp [envelope])
        unfold Event.find at hfind
        cases hget : e.2.get "previous_event_digest" with
        | none => rfl
        | some found =>
            rw [hget, Option.getD_some] at hfind
            unfold Event.meets optional at hmeets
            rw [hget, hfind] at hmeets
            cases hmeets
  have hpreviousSame : other.2.get "previous_event_digest" = entry.2.get "previous_event_digest" :=
    (hprevious h.1.contract.1 hbefore').trans (hprevious h.1.original hbefore).symm
  have hunsealed : ∀ key, (other.2.erase "event_digest").get key = (entry.2.erase "event_digest").get key := by
    intro key
    rw [Mapping.get_erase, Mapping.get_erase]
    by_cases hkey : "event_digest" = key
    · rw [if_pos hkey, if_pos hkey]
    · rw [if_neg hkey, if_neg hkey]
      by_cases hseal : key ∈ sealKeys
      · simp only [sealKeys, List.mem_cons, List.not_mem_nil, or_false] at hseal
        rcases hseal with rfl | rfl | rfl
        · exact hnumber
        · exact hpreviousSame
        · exact absurd rfl hkey
      · exact h.2 key hseal
  have hdigests : digest' = digest := by
    unfold payloadDigest canonicalJsonBytes at hdigest hdigest'
    rw [Event.isCanonical_eq hunsealed, Event.bytes_eq hunsealed, hdigest] at hdigest'
    exact (Option.some.inj hdigest').symm
  refine ⟨h.1.kind, fun key ↦ ?_⟩
  by_cases hkey : key = "event_digest"
  · subst hkey
    rw [Event.get_of_find_str hclaimed', Event.get_of_find_str hclaimed, hdigests]
  · have hget := hunsealed key
    rw [Mapping.get_erase, Mapping.get_erase, if_neg (Ne.symm hkey), if_neg (Ne.symm hkey)] at hget
    exact hget

/-- When nothing is left out, every event is what it was. -/
theorem sameFields_of_rewrote (hrel : List.Forall₂ (Rewrote R) entries done) (horder : ValidOrder R entries)
    (hchained : (eventSealing R).Chained 1 none entries) (horder' : ValidOrder R done)
    (hchained' : (eventSealing R).Chained 1 none done) : List.Forall₂ SameFields entries done := by
  have hlinked : List.Forall₂ (SameButSeal R) entries done := by
    refine Threads.Threaded.unique horder.planning horder'.planning (fun _ ↦ Option.Rel.none) hrel
      (fun entry other h ↦ ?_) (fun entry other h hnone ↦ ⟨h, fun key hkey ↦ ?_⟩)
      fun _ _ _ _ _ h hsubject hprior ↦ sameButSeal_of_linked h hsubject hprior
    · have htask : other.2.text? "task_uid" = entry.2.text? "task_uid" := Event.text?_congr (h.get_eq (by decide))
      simp only [planningThreads, h.kind, htask]
    · have hkind : entry.1 ≠ .planningStatus := by
        intro hkind
        obtain ⟨uid, hsome⟩ := subject_of_planning hkind h.original
        rw [hsome] at hnone
        cases hnone
      exact h.get key (by rwa [rewrittenKeys, if_neg hkind])
  refine Sealing.Chained.unique hchained hchained' hlinked fun n previous entry other h hentry hother ↦ ?_
  have hsame := sameFields_of_sealed h hentry hother
  exact ⟨hsame, (Event.text?_congr (hsame.2 _)).symm⟩

end Unique

/-! ## The planning status -/

section Status

variable {R : StreamRules} {files : StreamFiles} {entries done : List Entry}

/-- Whether an entry is a planning fact of a task. -/
def isFactOf (uid : String) (entry : Entry) : Bool := decide (entry.1 = .planningStatus) && ofTask uid entry.2

theorem taskFacts_eq (hperm : (entriesOf files).Perm entries) (horder : ValidOrder R entries) (uid : String) :
    taskFacts (kindValues files .planningStatus) uid = (entries.filter (isFactOf uid)).map Prod.snd := by
  have hvalues : (kindValues files .planningStatus).Perm
      ((entries.filter fun entry ↦ entry.1 = .planningStatus).map Prod.snd) := by
    have hkind := ((hperm.filter fun entry ↦ entry.1 = .planningStatus).map Prod.snd)
    rw [← map_kindValues, List.map_map] at hkind
    simpa using hkind
  have hsplit : ((entries.filter fun entry ↦ entry.1 = .planningStatus).map Prod.snd).filter
      (fun event ↦ event.text? "task_uid" == some uid) = (entries.filter (isFactOf uid)).map Prod.snd := by
    rw [List.filter_map, List.filter_filter]
    refine congrArg _ (List.filter_congr fun entry _ ↦ ?_)
    exact Bool.and_comm ..
  have hfacts := hvalues.filter fun event ↦ event.text? "task_uid" == some uid
  rw [hsplit] at hfacts
  refine insertionSort_eq_of_perm _ hfacts ?_
  rw [List.pairwise_map]
  refine ((increasing_of_validOrder horder).filter _).imp fun {a b} hlt ↦ ?_
  unfold factKey
  rw [Prod.Lex.toLex_lt_toLex]
  exact Or.inl hlt

theorem currentStatus_eq (hperm : (entriesOf files).Perm entries) (horder : ValidOrder R entries) (uid : String) :
    currentStatus (kindValues files .planningStatus) uid = ((entries.filter (isFactOf uid)).map fun entry ↦
      (entry.2.find "task_display_id", entry.2.find "status")).getLast? := by
  rw [currentStatus, taskFacts_eq hperm horder, List.getLast?_map, List.getLast?_map, Option.map_map]
  rfl

/-- The facts of another task say the same in the events that are left. -/
theorem map_status_eq {uid other : String} (hne : other ≠ uid)
    (hrel : List.Forall₂ (Rewrote R) (entries.filter fun entry ↦ !ofTask uid entry.2) done) :
    (done.filter (isFactOf other)).map (fun entry ↦ (entry.2.find "task_display_id", entry.2.find "status")) =
      (entries.filter (isFactOf other)).map fun entry ↦ (entry.2.find "task_display_id", entry.2.find "status") := by
  have hfacts : entries.filter (isFactOf other) =
      (entries.filter fun entry ↦ !ofTask uid entry.2).filter (isFactOf other) := by
    rw [List.filter_filter]
    refine List.filter_congr fun entry _ ↦ ?_
    unfold isFactOf ofTask
    by_cases hother : entry.2.text? "task_uid" = some other
    · simp [hother, hne]
    · simp [hother]
  have hfilter : List.Forall₂ (Rewrote R) ((entries.filter fun entry ↦ !ofTask uid entry.2).filter (isFactOf other))
      (done.filter (isFactOf other)) := by
    refine List.rel_filter ?_ hrel
    intro entry left h
    dsimp only
    unfold isFactOf ofTask
    rw [h.kind, Event.text?_congr (h.get_eq (by decide))]
  rw [hfacts]
  refine (map_eq_of_forall₂ (fun entry left h ↦ ?_) hfilter).symm
  rw [Event.find_congr (h.get_eq (by decide)), Event.find_congr (h.get_eq (by decide))]

end Status

/-! ## Naming the events of a task -/

section Naming

variable {R : StreamRules} {entries : List Entry} {uid : String}

theorem Names.of_mem {κ : Type} {wanted : List κ} {answers : Event → List κ} {events events' : List Entry}
    (hmem : ∀ entry, entry ∈ events ↔ entry ∈ events') (h : Names wanted answers uid events) :
    Names wanted answers uid events' := by
  refine ⟨h.nodup, fun entry hentry ↦ h.each entry ((hmem entry).mpr hentry), fun identity hidentity ↦ ?_⟩
  obtain ⟨entry, hentry, htask, hanswers, honly⟩ := h.one identity hidentity
  exact ⟨entry, (hmem entry).mp hentry, htask, hanswers, fun other hother ↦ honly other ((hmem other).mpr hother)⟩

theorem NamesTask.of_perm {deletion : StreamDeletion} {entries' : List Entry} (hperm : entries.Perm entries')
    (h : NamesTask deletion uid entries) : NamesTask deletion uid entries' :=
  ⟨h.activity.of_mem fun _ ↦ (hperm.filter _).mem_iff, h.planning.of_mem fun _ ↦ (hperm.filter _).mem_iff,
    h.work.of_mem fun _ ↦ (hperm.filter _).mem_iff, h.sessions.of_mem fun _ ↦ (hperm.filter _).mem_iff⟩

/-- Identities of their own name the events of a task. -/
theorem names_of_own {κ : Type} {answers : Event → List κ} {events : List Entry} {own : Entry → κ}
    (hnodup : events.Nodup) (hown : ∀ entry ∈ events, own entry ∈ answers entry.2)
    (hone : ∀ entry ∈ events, ∀ other ∈ events, own entry ∈ answers other.2 → other = entry) :
    Names ((events.filter fun entry ↦ ofTask uid entry.2).map own) answers uid events := by
  have hwanted : ∀ identity, identity ∈ (events.filter fun entry ↦ ofTask uid entry.2).map own →
      ∃ entry ∈ events, ofTask uid entry.2 ∧ own entry = identity := by
    intro identity hidentity
    obtain ⟨entry, hentry, rfl⟩ := List.mem_map.mp hidentity
    obtain ⟨hmem, htask⟩ := List.mem_filter.mp hentry
    exact ⟨entry, hmem, htask, rfl⟩
  refine ⟨?_, fun entry hentry htask ↦ ?_, fun identity hidentity ↦ ?_⟩
  · refine List.Nodup.map_on (fun entry hentry other hother heq ↦ ?_) (hnodup.filter _)
    have hmem := List.mem_of_mem_filter hother
    exact (hone entry (List.mem_of_mem_filter hentry) other hmem (heq ▸ hown other hmem)).symm
  · refine ⟨own entry, ⟨List.mem_map_of_mem (List.mem_filter.mpr ⟨hentry, htask⟩), hown entry hentry⟩, ?_⟩
    rintro identity ⟨hidentity, hanswers⟩
    obtain ⟨other, hother, _, rfl⟩ := hwanted identity hidentity
    rw [hone other hother entry hentry hanswers]
  · obtain ⟨entry, hentry, htask, rfl⟩ := hwanted identity hidentity
    exact ⟨entry, hentry, htask, hown entry hentry, fun other hother ↦ hone entry hentry other hother⟩

theorem head_of_matchesLine {accepts : List Char → Bool} (good : Char → Prop)
    (haccepts : ∀ text, accepts text → ∃ c, text.head? = some c ∧ good c) {text : String}
    (h : matchesLine accepts text) : ∃ c, text.toList.head? = some c ∧ good c := by
  unfold matchesLine at h
  rcases Bool.or_eq_true_iff.mp h with h | h
  · exact haccepts _ h
  · obtain ⟨c, hc, hgood⟩ := haccepts _ ((Bool.and_eq_true ..).mp h).2
    refine ⟨c, ?_, hgood⟩
    cases hlist : text.toList with
    | nil => simp [hlist] at hc
    | cons first rest =>
        rw [hlist] at hc
        cases rest with
        | nil => cases hc
        | cons second rest => exact hc

/-- No event identity is a numbered identity of one of the kinds. -/
theorem uuid_ne_numbered {name : String} {digits : ℕ} {own legacy : String}
    (hown : matchesLine (fits uuidShape) own) (hlegacy : matchesLine (isNumberedText name.toList digits) legacy)
    (hname : ∃ c, name.toList.head? = some c ∧ Store.isLowerHex c = false) : own ≠ legacy := by
  rintro rfl
  obtain ⟨c, hc, hhex⟩ := head_of_matchesLine (fun c ↦ Store.isLowerHex c) (fun text h ↦ by
    cases text with
    | nil => exact absurd h (by decide)
    | cons c rest =>
        refine ⟨c, rfl, ?_⟩
        have hshape : uuidShape = Store.isLowerHex :: uuidShape.tail := rfl
        rw [hshape] at h
        exact ((Bool.and_eq_true ..).mp h).1) hown
  obtain ⟨first, hfirst, hnot⟩ := hname
  obtain ⟨d, hd, rfl⟩ := head_of_matchesLine (fun d ↦ d = first) (fun text h ↦ by
    unfold isNumberedText at h
    rw [Bool.and_eq_true, Bool.and_eq_true, beq_iff_eq] at h
    refine ⟨first, ?_, rfl⟩
    rw [← h.1.1] at hfirst
    cases text with
    | nil => simp at hfirst
    | cons c rest =>
        cases hlength : name.toList.length with
        | zero =>
            rw [hlength] at hfirst
            cases hfirst
        | succ n =>
            rw [hlength] at hfirst
            exact hfirst) hlegacy
  rw [hc, Option.some.injEq] at hd
  subst hd
  rw [hnot] at hhex
  cases hhex

end Naming

/-- The deletion that names every event of a task by its event identity. -/
def deletionOf (uid : String) (entries : List Entry) : StreamDeletion where
  activityIds := ((entries.filter fun entry ↦ entry.1 = .activity).filter fun entry ↦ ofTask uid entry.2).map ownUid
  planningIds := ((entries.filter fun entry ↦ entry.1 = .planningStatus).filter fun entry ↦ ofTask uid entry.2).map ownUid
  worklogEntries := ((entries.filter (isWork "entry")).filter fun entry ↦ ofTask uid entry.2).map fun entry ↦
    (ownUid entry, textOf "work_date" entry)
  worklogSessions := ((entries.filter (isWork "session")).filter fun entry ↦ ofTask uid entry.2).map fun entry ↦
    (ownUid entry, textOf "work_date" entry, textOf "session_id" entry)
where
  textOf (key : String) (entry : Entry) : String := (entry.2.text? key).getD ""
  ownUid (entry : Entry) : String := textOf "event_uid" entry

section Every

variable {R : StreamRules} {entries : List Entry} {uid : String}

theorem textOf_eq {key text : String} {entry : Entry} (h : entry.2.find key = .str text) :
    deletionOf.textOf key entry = text := by
  rw [deletionOf.textOf, Event.text?_eq_some_iff.mpr h, Option.getD_some]

theorem ValidOrder.nodup (horder : ValidOrder R entries) : entries.Nodup :=
  horder.uids.of_map _

/-- Events with the same event identity are the same. -/
theorem ValidOrder.eq_of_uid (horder : ValidOrder R entries) {entry other : Entry} (hentry : entry ∈ entries)
    (hother : other ∈ entries) (h : other.2.text? "event_uid" = entry.2.text? "event_uid") : other = entry :=
  List.inj_on_of_nodup_map horder.uids hother hentry h

theorem ownUid_mem {entry : Entry} (hcontract : meetsContract R entry.1 entry.2) :
    ∃ own, entry.2.text? "event_uid" = some own ∧ matchesLine (fits uuidShape) own ∧ deletionOf.ownUid entry = own := by
  obtain ⟨own, hget, hshape⟩ := eventUid_of_meetsContract hcontract
  have hown : entry.2.find "event_uid" = .str own := Event.find_eq_of_get hget
  exact ⟨own, Event.text?_eq_some_iff.mpr hown, hshape, textOf_eq hown⟩

theorem ValidOrder.eq_of_ownUid (horder : ValidOrder R entries) {entry other : Entry} (hentry : entry ∈ entries)
    (hother : other ∈ entries) (h : deletionOf.ownUid entry = deletionOf.ownUid other) : other = entry := by
  obtain ⟨own, hown, _, heq⟩ := ownUid_mem (horder.contract entry hentry).1
  obtain ⟨own', hown', _, heq'⟩ := ownUid_mem (horder.contract other hother).1
  rw [heq, heq'] at h
  exact horder.eq_of_uid hentry hother (by rw [hown', hown, h])

/-- Among events whose other identity is numbered, every event answers to its event identity alone. -/
theorem names_ownUid (name : String) (digits : ℕ) (horder : ValidOrder R entries) {counts : Entry → Bool} {key : String}
    (hlegacy : ∀ entry ∈ entries, counts entry → ∃ legacy, entry.2.text? key = some legacy ∧
      matchesLine (isNumberedText name.toList digits) legacy)
    (hname : ∃ c, name.toList.head? = some c ∧ Store.isLowerHex c = false) :
    Names (((entries.filter counts).filter fun entry ↦ ofTask uid entry.2).map deletionOf.ownUid) (textAnswers key) uid
      (entries.filter counts) := by
  refine names_of_own (horder.nodup.filter _) (fun entry hentry ↦ ?_) fun entry hentry other hother hanswers ↦ ?_
  · obtain ⟨own, hown, _, heq⟩ := ownUid_mem (horder.contract entry (List.mem_of_mem_filter hentry)).1
    rw [textAnswers, hown, heq]
    exact List.mem_append_right _ (List.mem_singleton_self _)
  · obtain ⟨hmem, _⟩ := List.mem_filter.mp hentry
    obtain ⟨hmemOther, hcounts⟩ := List.mem_filter.mp hother
    obtain ⟨own, hown, hshape, heq⟩ := ownUid_mem (horder.contract entry hmem).1
    obtain ⟨own', hown', _, _⟩ := ownUid_mem (horder.contract other hmemOther).1
    obtain ⟨legacy, htext, hnumbered⟩ := hlegacy other hmemOther hcounts
    rw [textAnswers, htext, hown', heq] at hanswers
    have hsame : own = own' := by
      rcases List.mem_append.mp hanswers with hmemLegacy | hmemOwn
      · exact absurd (List.mem_singleton.mp hmemLegacy) (uuid_ne_numbered hshape hnumbered hname)
      · exact List.mem_singleton.mp hmemOwn
    exact horder.eq_of_uid hmem hmemOther (by rw [hown', hown, hsame])

/-- Every task has a deletion that names its events. -/
theorem namesTask_deletionOf (horder : ValidOrder R entries) (uid : String) :
    NamesTask (deletionOf uid entries) uid entries := by
  have hcontract := fun entry hentry ↦ (horder.contract entry hentry).1
  constructor
  · refine names_ownUid "E-" 6 horder (fun entry hentry hkind ↦ ?_) ⟨'E', rfl, by decide⟩
    obtain ⟨found, hget, hadmits⟩ := Event.admits_of_meets (variant_of_meetsContract
      (of_decide_eq_true hkind ▸ hcontract entry hentry) rfl
      (required "legacy_event_id" (Value.isNumbered "E-" 6)) (by simp [activityEvent]))
    obtain ⟨text, rfl, hnumbered⟩ := exists_text_of_isText hadmits
    exact ⟨text, Event.text?_eq_some_iff.mpr (Event.find_eq_of_get hget), hnumbered⟩
  · refine names_ownUid "PS-" 6 horder (fun entry hentry hkind ↦ ?_) ⟨'P', rfl, by decide⟩
    obtain ⟨found, hget, hadmits⟩ := planning_field "legacy_fact_id" (Value.isNumbered "PS-" 6)
      (of_decide_eq_true hkind ▸ hcontract entry hentry) (by simp [planningStatusEvent])
    obtain ⟨text, rfl, hnumbered⟩ := exists_text_of_isText hadmits
    exact ⟨text, Event.text?_eq_some_iff.mpr (Event.find_eq_of_get hget), hnumbered⟩
  · have hanswers : ∀ entry ∈ entries.filter (isWork "entry"),
        entryAnswers entry.2 = [(deletionOf.ownUid entry, deletionOf.textOf "work_date" entry)] := by
      intro entry hentry
      obtain ⟨hmem, hsort⟩ := List.mem_filter.mp hentry
      obtain ⟨own, hget, _⟩ := eventUid_of_meetsContract (hcontract entry hmem)
      obtain ⟨date, hdate, _⟩ := text_of_meets "work_date" (fun text ↦ R.isDate text && matchesLine (fits dateShape) text)
        (worklogEntry_of_isWork hsort (hcontract entry hmem)) (by simp [worklogEntry, isDateValue])
      have hown : entry.2.find "event_uid" = .str own := Event.find_eq_of_get hget
      rw [entryAnswers, Event.text?_eq_some_iff.mpr hown, Event.text?_eq_some_iff.mpr hdate, deletionOf.ownUid,
        textOf_eq hown, textOf_eq hdate]
      rfl
    refine names_of_own (horder.nodup.filter _) (fun entry hentry ↦ ?_) fun entry hentry other hother hmem ↦ ?_
    · rw [hanswers entry hentry]
      exact List.mem_singleton_self _
    · rw [hanswers other hother, List.mem_singleton, Prod.mk.injEq] at hmem
      exact horder.eq_of_ownUid (List.mem_of_mem_filter hentry) (List.mem_of_mem_filter hother) hmem.1
  · have hanswers : ∀ entry ∈ entries.filter (isWork "session"), sessionAnswers entry.2 =
        [(deletionOf.ownUid entry, deletionOf.textOf "work_date" entry, deletionOf.textOf "session_id" entry)] := by
      intro entry hentry
      obtain ⟨hmem, hsort⟩ := List.mem_filter.mp hentry
      have hmeets := workSession_of_isWork hsort (hcontract entry hmem)
      obtain ⟨own, hget, _⟩ := eventUid_of_meetsContract (hcontract entry hmem)
      obtain ⟨date, hdate, _⟩ := text_of_meets "work_date" (fun text ↦ R.isDate text && matchesLine (fits dateShape) text)
        hmeets (by simp [workSession, isDateValue])
      obtain ⟨session, hsession, _⟩ := text_of_meets "session_id" (matchesLine (isNumberedText "WS-".toList 6)) hmeets
        (by simp [workSession, Value.isNumbered])
      have hown : entry.2.find "event_uid" = .str own := Event.find_eq_of_get hget
      rw [sessionAnswers, Event.text?_eq_some_iff.mpr hown, Event.text?_eq_some_iff.mpr hdate,
        Event.text?_eq_some_iff.mpr hsession, deletionOf.ownUid, textOf_eq hown, textOf_eq hdate, textOf_eq hsession]
      rfl
    refine names_of_own (horder.nodup.filter _) (fun entry hentry ↦ ?_) fun entry hentry other hother hmem ↦ ?_
    · rw [hanswers entry hentry]
      exact List.mem_singleton_self _
    · rw [hanswers other hother, List.mem_singleton, Prod.mk.injEq] at hmem
      exact horder.eq_of_ownUid (List.mem_of_mem_filter hentry) (List.mem_of_mem_filter hother) hmem.1

/-- No event is of a task without an identity. -/
theorem ofTask_empty {entry : Entry} (hcontract : meetsContract R entry.1 entry.2) : ofTask "" entry.2 = false := by
  have hne : ∀ (admits : Json → Bool) {found : Json}, (∀ text, admits (.str text) → matchesLine (fits uuidShape) text) →
      entry.2.get "task_uid" = some found → admits found → ofTask "" entry.2 = false := by
    intro admits found hshape hget hadmits
    unfold ofTask
    rw [beq_eq_false_iff_ne]
    intro htext
    have hfind := Event.text?_eq_some_iff.mp htext
    rw [Event.find_eq_of_get hget] at hfind
    rw [hfind] at hadmits
    exact uuid_ne_empty (hshape "" hadmits) rfl
  by_contra htask
  rw [Bool.not_eq_false] at htask
  have hidentity : ∀ {properties : List Property}, taskIdentity ⊆ properties →
      (∀ p ∈ properties, entry.2.meets p) → ofTask "" entry.2 = false := by
    intro properties hsub hmeets
    obtain ⟨found, hget, hadmits⟩ := Event.admits_of_meets (hmeets _ (hsub
      (show required "task_uid" Value.isUuid ∈ taskIdentity by simp [taskIdentity])))
    exact hne _ (fun _ h ↦ h) hget hadmits
  have hfalse : ofTask "" entry.2 = false := by
    rcases sorts_of_ofTask hcontract htask with hkind | hkind | hsort | hsort
    · obtain ⟨found, hget, hadmits⟩ := Event.admits_of_meets (variant_of_meetsContract (hkind ▸ hcontract) rfl
        (required "task_uid" (Value.orNull Value.isUuid)) (by simp [activityEvent]))
      refine hne _ (fun text h ↦ ?_) hget hadmits
      exact (eq_null_or_of_orNull h).resolve_left (by simp)
    · obtain ⟨text, hget, hshape⟩ := taskUid_of_meetsContract (hkind ▸ hcontract)
      exact hne Value.isUuid (fun _ h ↦ h) hget hshape
    · exact hidentity (List.subset_append_left _ _) (worklogEntry_of_isWork hsort hcontract)
    · exact hidentity (List.subset_append_left _ _) (workSession_of_isWork hsort hcontract)
  rw [hfalse] at htask
  cases htask

theorem namesTask_empty (hcontract : ∀ entry ∈ entries, meetsContract R entry.1 entry.2) :
    NamesTask ⟨[], [], [], []⟩ "" entries := by
  have hnames : ∀ {κ : Type} (answers : Event → List κ) (counts : Entry → Bool),
      Names [] answers "" (entries.filter counts) := by
    intro κ answers counts
    refine ⟨List.nodup_nil, fun entry hentry htask ↦ ?_, fun _ hmem ↦ by cases hmem⟩
    rw [ofTask_empty (hcontract entry (List.mem_of_mem_filter hentry))] at htask
    cases htask
  exact ⟨hnames _ _, hnames _ _, hnames _ _, hnames _ _⟩

end Every

/-! ## The deletion -/

/-- A deletion that names nothing. -/
def emptyDeletion : StreamDeletion := ⟨[], [], [], []⟩

section Deletion

variable {R : StreamRules} {files : StreamFiles} {entries : List Entry} {records : Records}
  {workspaceUid : Option String} {authorityUids : List String} {deletion : StreamDeletion} {uid : String}

theorem chained_of_isChained (horder : ValidOrder R entries) (h : ∀ entry ∈ entries, isChained entry.2) :
    (eventSealing R).Chained 1 none entries := by
  rcases horder.digests with hnone | hchained
  · cases entries with
    | nil => trivial
    | cons entry rest =>
        have hfirst := h entry (List.mem_cons_self ..)
        rw [hnone entry (List.mem_cons_self ..)] at hfirst
        cases hfirst
  · exact hchained

/-- What the rewrite makes of a valid directory with digests: the events that are not of the task, linked
and sealed again, and the targets that lead there. -/
theorem rewrite_ok (hvalid : ValidStreams R files records workspaceUid authorityUids entries)
    (hchained : (eventSealing R).Chained 1 none entries) (hnames : NamesTask deletion uid entries) :
    ∃ targets done, rewriteV4DeletionStreams R (readStreams files) deletion (fileDigests R.sha256 files) = .ok targets ∧
      (targets.map WriteSession.JournalTarget.artifact).Nodup ∧
      (∀ target, target ∈ targets ↔ ∃ file ∈ files.items,
        segmentTarget R (filePath file) file.2 (segmentEvents done (filePath file)) = some target) ∧
      List.Forall₂ (Rewrote R) (entries.filter fun entry ↦ !ofTask uid entry.2) done ∧ Fits files done ∧
      (eventSealing R).Chained 1 none done ∧ ValidOrder R done := by
  have hcontract := fun entry hentry ↦ (hvalid.order.contract entry hentry).1
  obtain ⟨selected, hselected, hremaining⟩ := selected_eq hcontract hvalid.order.nodup hnames
  obtain ⟨repaired, done, hrepaired, hdone, hrel, hchained', horder'⟩ := repair_and_rechain
    (fun entry ↦ !ofTask uid entry.2) (fun other ↦ decide (other ≠ uid)) hvalid.order hchained
    fun entry hentry other hsubject ↦ by
      have htext : entry.2.text? "task_uid" = some other := by
        unfold planningThreads at hsubject
        dsimp only at hsubject
        split at hsubject
        · exact hsubject
        · cases hsubject
      unfold ofTask
      rw [htext, Bool.eq_iff_iff]
      simp
  have hfits := fits_of_rewrote hvalid.eachFile hvalid.perm hvalid.order hrel
  obtain ⟨targets, htargets, hnodup, hmem⟩ := segmentTargets_ok hvalid.eachFile hvalid.perm hvalid.order hfits
  refine ⟨targets, done, ?_, hnodup, hmem, hrel, hfits, hchained', horder'⟩
  have hrewritten : rewriteEntries R entries deletion = .ok done := by
    unfold rewriteEntries
    rw [normalizedDeletion_eq hcontract hnames]
    change (selectedIndexes entries deletion >>= _) = _
    rw [hselected]
    change (repairPlanning 1 [] (remainingEntries selected 0 entries) >>= _) = _
    rw [hremaining, hrepaired]
    exact hdone
  unfold rewriteV4DeletionStreams
  rw [orderedExisting_eq hvalid.perm hvalid.order hchained]
  change (rewriteEntries R entries deletion >>= _) = _
  rw [hrewritten]
  exact htargets

/-- A deletion that names nothing has no targets. -/
theorem rewrite_emptyDeletion (hvalid : ValidStreams R files records workspaceUid authorityUids entries)
    (hchained : (eventSealing R).Chained 1 none entries) :
    rewriteV4DeletionStreams R (readStreams files) emptyDeletion (fileDigests R.sha256 files) = .ok [] := by
  have hcontract := fun entry hentry ↦ (hvalid.order.contract entry hentry).1
  obtain ⟨targets, done, hok, _, hmem, hrel, _, hchained', horder'⟩ :=
    rewrite_ok hvalid hchained (namesTask_empty hcontract)
  have hall : (entries.filter fun entry ↦ !ofTask "" entry.2) = entries :=
    List.filter_eq_self.mpr fun entry hentry ↦ by rw [ofTask_empty (hcontract entry hentry)]; rfl
  rw [hall] at hrel
  have hsame := sameFields_of_rewrote hrel hvalid.order hchained horder' hchained'
  have hbody : ∀ artifact, segmentBody (segmentEvents entries artifact) = segmentBody (segmentEvents done artifact) := by
    intro artifact
    have hsegment := segmentEvents_rel (fun entry other (h : SameFields entry other) ↦ by
      rw [pathOf, pathOf, h.1, monthOf_congr (h.2 _)]) hsame artifact
    unfold segmentBody segmentEvents
    rw [List.flatMap_map, List.flatMap_map]
    refine congrArg List.flatten (map_eq_of_forall₂ (fun entry other h ↦ ?_) hsegment)
    rw [Event.bytes_eq h.2]
  have hnone : targets = [] := by
    rw [List.eq_nil_iff_forall_not_mem]
    intro target htarget
    obtain ⟨file, hfile, hsegment⟩ := (hmem target).mp htarget
    unfold segmentTarget at hsegment
    rw [← hbody, segmentEvents_eq hvalid.eachFile hvalid.perm hvalid.order hfile, if_pos rfl] at hsegment
    cases hsegment
  rw [← hnone]
  exact hok

end Deletion

/-! ## A directory with one planning fact -/

/-- The rules with the real digest; the formats are told by their lengths. -/
def sampleRules : StreamRules where
  sha256 := Sha256.digest
  isDateTime text := text.length == 20
  isDate text := text.length == 10

def sampleWorkspace : String := "0f0f0f0f-0000-4000-8000-000000000000"

/-- The identity of the task and of its planning fact. -/
def sampleIdentity : String := "0a0a0a0a-0000-4000-8000-00000000000a"

/-- The first planning fact of the task, with its digest or without it. -/
def sampleFact (digest : Option String) : Event :=
  ⟨[("format", .str "workstack.planning-status-event"), ("schema_version", .int 1),
    ("workspace_uid", .str sampleWorkspace), ("event_uid", .str sampleIdentity), ("sequence", .int 1),
    ("record_uid", .str sampleIdentity), ("created_at", .str "2026-07-01T00:00:00Z"), ("actor", .str "human"),
    ("provenance", .str "native"), ("legacy_fact_id", .str "PS-000001"), ("task_uid", .str sampleIdentity),
    ("task_display_id", .str "T-0001"), ("previous_event_uid", .null), ("previous_legacy_fact_id", .null),
    ("prior_revision", .null), ("new_revision", .int 0), ("prior_status", .null), ("status", .str "open")] ++
    (digest.map fun text ↦ ("event_digest", .str text)).toList, by cases digest <;> simp [Dict.keys]⟩

def sampleRecords : Records
  | .tasks => Mapping.set sampleIdentity
      ⟨[("display_id", .str "T-0001"), ("revision", .int 0)], by decide⟩ Mapping.empty
  | _ => Mapping.empty

def sampleFiles (digest : Option String) : StreamFiles :=
  Mapping.set (.planningStatus, "2026-07") [sampleFact digest] Mapping.empty

def sampleDigest : String := "sha256:9db7b32c5486632ab4a246f761760dbdcf47d161d7a25d65564adb7a678cd87b"

theorem validOrder_of_sample {digest : Option String} (hvalid : streamIssues sampleRules (sampleFiles digest) sampleRecords
    (some sampleWorkspace) [] = []) : ValidOrder sampleRules (entriesOf (sampleFiles digest)) := by
  obtain ⟨entries, hstreams⟩ := streamIssues_eq_nil_iff.mp hvalid
  have hentries : entriesOf (sampleFiles digest) = entries :=
    List.singleton_perm.mp hstreams.perm
  exact hentries ▸ hstreams.order

end WorkStack.Streams
