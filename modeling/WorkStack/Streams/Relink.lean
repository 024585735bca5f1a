import WorkStack.Streams.Order
import WorkStack.Streams.Rewrite
import WorkStack.Streams.Sizes

/-!
# Rewritten events

What the rewrite changes in an event: its place in the log, its digests, and in a planning fact its
number and the number of the fact before it. Such an event still meets its contract and is not longer
than it was.
-/

open WorkStack.Python WorkStack.Effect

namespace WorkStack.Streams

/-! ## Contracts -/

/-- The keys that are written again when an event is sealed. -/
def sealKeys : List String := ["sequence", "previous_event_digest", "event_digest"]

/-- The keys that are written again when a planning fact is numbered and linked. -/
def linkKeys : List String := ["legacy_fact_id", "previous_legacy_fact_id"]

/-- The keys that the rewrite may change in an event of a kind. -/
def rewrittenKeys (kind : StreamKind) : List String :=
  if kind = .planningStatus then sealKeys ++ linkKeys else sealKeys

section Contract

variable {R : StreamRules} {kind : StreamKind} {event event' : Event}

/-- No variant of another kind names a key that the rewrite may change. -/
theorem name_not_mem_rewrittenKeys (hkind : kind ≠ .planningStatus) :
    ∀ variant ∈ variants R kind, ∀ p ∈ variant, p.name ∉ rewrittenKeys kind := by
  cases kind with
  | planningStatus => exact absurd rfl hkind
  | activity =>
      simp [variants, activityEvent, required, optional, rewrittenKeys, sealKeys]
  | worklog =>
      simp [variants, checkIn, worklogEntry, workSession, taskIdentity, required, optional, rewrittenKeys, sealKeys]

/-- A change under the rewritten keys keeps the contract when the new values are admitted. -/
theorem meetsContract_of_rewritten (h : meetsContract R kind event)
    (hget : ∀ key ∉ rewrittenKeys kind, event'.get key = event.get key)
    (henvelope : ∀ p ∈ envelope R kind, p.name ∈ sealKeys → event'.meets p)
    (hplanning : kind = .planningStatus → ∀ p ∈ planningStatusEvent R, p.name ∈ linkKeys → event'.meets p) :
    meetsContract R kind event' := by
  have hmeets : ∀ p ∈ envelope R kind, event'.meets p := by
    intro p hp
    by_cases hname : p.name ∈ sealKeys
    · exact henvelope p hp hname
    · have hlink : p.name ∉ linkKeys := by
        have hnames : ∀ p ∈ envelope R kind, p.name ∉ linkKeys := by
          simp [envelope, required, optional, linkKeys]
        exact hnames p hp
      have hnot : p.name ∉ rewrittenKeys kind := by
        unfold rewrittenKeys
        split
        · exact fun hmem ↦ (List.mem_append.mp hmem).elim hname hlink
        · exact hname
      rw [Event.meets_congr (hget _ hnot)]
      exact envelope_of_meetsContract h hp
  have hvariant : ∀ variant ∈ variants R kind, variant.all event'.meets = variant.all event.meets := by
    intro variant hvariant
    by_cases hkind : kind = .planningStatus
    · subst hkind
      have hone : variant = planningStatusEvent R := List.mem_singleton.mp hvariant
      subst hone
      rw [List.all_eq_true.mpr (planning_of_meetsContract h), List.all_eq_true]
      intro p hp
      by_cases hname : p.name ∈ linkKeys
      · exact hplanning rfl p hp hname
      · have hseal : p.name ∉ sealKeys := by
          have hnames : ∀ p ∈ planningStatusEvent R, p.name ∉ sealKeys := by
            simp [planningStatusEvent, required, optional, sealKeys]
          exact hnames p hp
        rw [Event.meets_congr (hget _ fun hmem ↦ (List.mem_append.mp hmem).elim hseal hname)]
        exact planning_of_meetsContract h p hp
    · rw [Bool.eq_iff_iff, List.all_eq_true, List.all_eq_true]
      refine forall₂_congr fun p hp ↦ ?_
      rw [Event.meets_congr (hget _ (name_not_mem_rewrittenKeys hkind variant hvariant p hp))]
  have hmet : variantsMet R kind event' = variantsMet R kind event := List.filter_congr hvariant
  have hall := h
  unfold meetsContract at hall ⊢
  simp only [Bool.and_eq_true, List.all_eq_true, List.contains_iff_mem] at hall ⊢
  rw [hmet]
  refine ⟨⟨hmeets, hall.1.2⟩, fun key hkey ↦ ?_⟩
  by_cases hname : key ∈ sealKeys
  · rw [List.map_append, List.mem_append]
    left
    simp [envelope, required, optional, sealKeys] at hname ⊢
    rcases hname with rfl | rfl | rfl <;> simp
  · by_cases hlink : kind = .planningStatus ∧ key ∈ linkKeys
    · obtain ⟨rfl, hlink⟩ := hlink
      have hplan : variantsMet R .planningStatus event = [planningStatusEvent R] := by
        unfold variantsMet variants
        exact List.filter_eq_self.mpr fun variant hmem ↦ by
          rw [List.mem_singleton.mp hmem, List.all_eq_true]
          exact planning_of_meetsContract h
      rw [hplan, List.map_append, List.mem_append]
      right
      simp [planningStatusEvent, required, optional, linkKeys] at hlink ⊢
      rcases hlink with rfl | rfl <;> simp
    · have hnot : key ∉ rewrittenKeys kind := by
        unfold rewrittenKeys
        split
        · rename_i hkind
          exact fun hmem ↦ (List.mem_append.mp hmem).elim hname fun hmem ↦ hlink ⟨hkind, hmem⟩
        · exact hname
      apply hall.2
      rw [Mapping.mem_keys] at hkey ⊢
      rw [← hget _ hnot]
      exact hkey

end Contract

/-! ## Texts that are written again -/

theorem fits_replicate {test : Char → Bool} {n : ℕ} {text : List Char} (h : fits (List.replicate n test) text) :
    text.length = n ∧ ∀ c ∈ text, test c := by
  induction n generalizing text with
  | zero =>
      cases text with
      | nil => exact ⟨rfl, fun _ h ↦ by cases h⟩
      | cons c text => cases h
  | succ n ih =>
      cases text with
      | nil => cases h
      | cons c text =>
          rw [List.replicate_succ, fits, Bool.and_eq_true] at h
          obtain ⟨hlength, hall⟩ := ih h.2
          exact ⟨by rw [List.length_cons, hlength], List.forall_mem_cons.mpr ⟨h.1, hall⟩⟩

/-- A text that fits has one character for each test, and each is accepted by one of them. -/
theorem of_fits {tests : List (Char → Bool)} {text : List Char} (h : fits tests text = true) :
    text.length = tests.length ∧ ∀ c ∈ text, ∃ test ∈ tests, test c = true := by
  induction tests generalizing text with
  | nil =>
      cases text with
      | nil => exact ⟨rfl, fun _ h ↦ by cases h⟩
      | cons c text => cases h
  | cons test tests ih =>
      cases text with
      | nil => cases h
      | cons c text =>
          rw [fits, Bool.and_eq_true] at h
          obtain ⟨hlength, hall⟩ := ih h.2
          refine ⟨by rw [List.length_cons, hlength, List.length_cons], ?_⟩
          intro d hd
          rcases List.mem_cons.mp hd with rfl | hd
          · exact ⟨test, List.mem_cons_self .., h.1⟩
          · obtain ⟨other, hmem, hother⟩ := hall d hd
            exact ⟨other, List.mem_cons_of_mem _ hmem, hother⟩

theorem fits_of_forall {test : Char → Bool} {text : List Char} (h : ∀ c ∈ text, test c) :
    fits (List.replicate text.length test) text := by
  induction text with
  | nil => rfl
  | cons c text ih =>
      obtain ⟨hc, htext⟩ := List.forall_mem_cons.mp h
      rw [List.length_cons, List.replicate_succ, fits, hc, ih htext]
      rfl

theorem isPlain_of_isLowerHex {c : Char} (h : Store.isLowerHex c) : Json.IsPlain c := by
  have hc : 48 ≤ c.toNat ∧ c.toNat ≤ 57 ∨ 97 ≤ c.toNat ∧ c.toNat ≤ 102 := by
    simp only [Store.isLowerHex, Bool.or_eq_true, Bool.and_eq_true, decide_eq_true_eq, Char.le_def,
      UInt32.le_iff_toNat_le] at h
    exact h
  have hne : ∀ d : Char, d.toNat < 48 ∨ 57 < d.toNat ∧ d.toNat < 97 → c ≠ d := by
    rintro d hd rfl
    omega
  exact ⟨by omega, by omega, hne _ (by decide), hne _ (by decide)⟩

/-- The texts of digests have one length. -/
theorem size_of_isDigestText {text : String} (h : isDigestText text) : (Json.str text).size = 73 := by
  unfold isDigestText at h
  rw [Bool.and_eq_true, beq_iff_eq] at h
  obtain ⟨hstart, hrest⟩ := h
  obtain ⟨hlength, hall⟩ := fits_replicate hrest
  have hsplit : text.toList = "sha256:".toList ++ text.toList.drop 7 := by
    rw [← hstart, List.take_append_drop]
  have hplain : ∀ c ∈ text.toList, Json.IsPlain c := by
    intro c hc
    rw [hsplit, List.mem_append] at hc
    rcases hc with hc | hc
    · have hstart : ∀ c ∈ "sha256:".toList, Json.IsPlain c := by simp [Json.IsPlain]
      exact hstart c hc
    · exact isPlain_of_isLowerHex (hall c hc)
  rw [Json.size_str_of_plain hplain, ← String.length_toList, hsplit, List.length_append, hlength]
  rfl

theorem isDigestText_text (digest : Store.Digest) : isDigestText digest.text := by
  obtain ⟨hlength, hall⟩ := digest.wellFormed
  have htext : digest.text.toList = "sha256:".toList ++ digest.hex.toList := by
    rw [Store.Digest.text, String.toList_append]
  have hfits : fits (isHexRun 64) digest.hex.toList := by
    rw [isHexRun, ← hlength, ← String.length_toList]
    exact fits_of_forall (List.all_eq_true.mp hall)
  unfold isDigestText
  rw [htext, Bool.and_eq_true, beq_iff_eq]
  exact ⟨rfl, hfits⟩

theorem isSha256_of_isDigestText {text : String} (h : isDigestText text) : Value.isSha256 (.str text) := by
  unfold Value.isSha256 Value.isText matchesLine
  exact Bool.or_eq_true_iff.mpr (Or.inl h)

theorem toList_planningFactId (n : ℕ) : (planningFactId n).toList = "PS-".toList ++ zeroPadded 6 n :=
  String.toList_ofList

theorem isDigit_of_mem_factNumber {n : ℕ} {c : Char} (h : c ∈ (planningFactId n).toList) :
    c ∈ "PS-".toList ∨ c.isDigit := by
  rw [toList_planningFactId, List.mem_append] at h
  exact h.imp_right isDigit_of_mem_zeroPadded

theorem size_planningFactId (n : ℕ) : (Json.str (planningFactId n)).size = 5 + (zeroPadded 6 n).length := by
  have hplain : ∀ c ∈ (planningFactId n).toList, Json.IsPlain c := by
    intro c hc
    rcases isDigit_of_mem_factNumber hc with hstart | hdigit
    · have hname : ∀ c ∈ "PS-".toList, Json.IsPlain c := by simp [Json.IsPlain]
      exact hname c hstart
    · exact Json.isPlain_of_isDigit hdigit
  rw [Json.size_str_of_plain hplain, planningFactId, String.length_ofList, List.length_append]
  have hname : "PS-".toList.length = 3 := rfl
  omega

theorem size_planningFactId_mono {m n : ℕ} (h : m ≤ n) :
    (Json.str (planningFactId m)).size ≤ (Json.str (planningFactId n)).size := by
  rw [size_planningFactId, size_planningFactId]
  exact Nat.add_le_add_left (length_zeroPadded_mono 6 h) 5

theorem isNumbered_planningFactId (n : ℕ) : Value.isNumbered "PS-" 6 (.str (planningFactId n)) := by
  have hnumbered : isNumberedText "PS-".toList 6 (planningFactId n).toList := by
    rw [isNumberedText, toList_planningFactId, List.take_left, List.drop_left, Bool.and_eq_true,
      Bool.and_eq_true, beq_iff_eq, decide_eq_true_eq, List.all_eq_true]
    exact ⟨⟨rfl, le_length_zeroPadded 6 n⟩, fun c hc ↦ isDigit_of_mem_zeroPadded hc⟩
  unfold Value.isNumbered Value.isText matchesLine
  exact Bool.or_eq_true_iff.mpr (Or.inl hnumbered)

/-! ## Planning facts, numbered and linked again -/

/-- An entry after the planning facts were repaired. -/
structure Relinked (R : StreamRules) (entry done : Entry) : Prop where
  kind : done.1 = entry.1
  get : ∀ key, ¬(entry.1 = .planningStatus ∧ key ∈ linkKeys) → done.2.get key = entry.2.get key
  original : meetsContract R entry.1 entry.2
  contract : meetsContract R done.1 done.2 ∧ done.2.isCanonical
  narrower : ∀ key, width (done.2.get key) ≤ width (entry.2.get key)

section Planning

variable {R : StreamRules}

theorem relinked_self {entry : Entry} (h : meetsContract R entry.1 entry.2 ∧ entry.2.isCanonical) :
    Relinked R entry entry :=
  ⟨rfl, fun _ _ ↦ rfl, h.1, h, fun _ ↦ le_rfl⟩

theorem Relinked.subject_eq {entry done : Entry} (h : Relinked R entry done) :
    planningThreads.subject done = planningThreads.subject entry := by
  have htask : done.2.text? "task_uid" = entry.2.text? "task_uid" :=
    Event.text?_congr (h.get _ fun hmem ↦ absurd hmem.2 (by decide))
  simp only [planningThreads, h.kind, htask]

theorem eq_null_or_of_orNull {admits : Json → Bool} {value : Json} (h : Value.orNull admits value) :
    value = .null ∨ admits value := by
  unfold Value.orNull at h
  cases hadmits : admits value with
  | true => exact Or.inr rfl
  | false =>
      rw [hadmits] at h
      exact Or.inl (isNull_eq_true.mp (by simpa using h))

theorem exists_int_of_isIntegerWithin {minimum : ℤ} {maximum : Option ℤ} {value : Json}
    (h : Value.isIntegerWithin minimum maximum value) : ∃ n, value = .int n := by
  cases value with
  | int n => exact ⟨n, rfl⟩
  | _ => cases h

/-- A required field of a planning fact is there, with a value its property admits. -/
theorem planning_field {value : Event} (name : String) (admits : Json → Bool)
    (h : meetsContract R .planningStatus value) (hp : required name admits ∈ planningStatusEvent R) :
    ∃ found, value.get name = some found ∧ admits found :=
  Event.admits_of_meets (planning_of_meetsContract h _ hp)

theorem legacy_of_planning {value : Event} (h : meetsContract R .planningStatus value) :
    ∃ text, value.find "legacy_fact_id" = .str text := by
  obtain ⟨found, hget, hadmits⟩ := planning_field "legacy_fact_id" (Value.isNumbered "PS-" 6) h
    (by simp [planningStatusEvent])
  obtain ⟨text, rfl, _⟩ := exists_text_of_isText hadmits
  exact ⟨text, Event.find_eq_of_get hget⟩

theorem newRevision_of_planning {value : Event} (h : meetsContract R .planningStatus value) :
    ∃ n, value.find "new_revision" = .int n := by
  obtain ⟨found, hget, hadmits⟩ := planning_field "new_revision"
    (Value.isIntegerWithin 0 (some Json.maxCanonicalInteger)) h (by simp [planningStatusEvent])
  obtain ⟨n, rfl⟩ := exists_int_of_isIntegerWithin hadmits
  exact ⟨n, Event.find_eq_of_get hget⟩

theorem bootstrapField_of_planning {value : Event} (h : meetsContract R .planningStatus value) {key : String}
    (hkey : key ∈ bootstrapFields) : value.get key = some (value.find key) := by
  have hrequired : ∃ admits, required key admits ∈ planningStatusEvent R := by
    simp only [bootstrapFields, List.mem_cons, List.not_mem_nil, or_false] at hkey
    rcases hkey with rfl | rfl | rfl | rfl
    · exact ⟨Value.orNull Value.isUuid, by simp [planningStatusEvent]⟩
    · exact ⟨Value.orNull (Value.isNumbered "PS-" 6), by simp [planningStatusEvent]⟩
    · exact ⟨Value.orNull (Value.isIntegerWithin 0 (some Json.maxCanonicalInteger)), by simp [planningStatusEvent]⟩
    · exact ⟨Value.orNull (Value.isEnum planningStatuses), by simp [planningStatusEvent]⟩
  obtain ⟨admits, hmem⟩ := hrequired
  obtain ⟨found, hget, _⟩ := planning_field _ _ h hmem
  rw [Event.find_eq_of_get hget, hget]

theorem get_applyBootstrap (event : Event) (key : String) :
    (applyBootstrap event).get key = if key ∈ bootstrapFields then some .null else event.get key := by
  unfold applyBootstrap bootstrapFields
  simp only [List.foldl_cons, List.foldl_nil, Mapping.get_set, List.mem_cons, List.not_mem_nil, or_false]
  by_cases h1 : key = "prior_status"
  · simp [h1]
  · by_cases h2 : key = "prior_revision"
    · simp [h2]
    · by_cases h3 : key = "previous_legacy_fact_id"
      · simp [h3]
      · by_cases h4 : key = "previous_event_uid"
        · simp [h4]
        · simp [h1, h2, h3, h4, Ne.symm h1, Ne.symm h2, Ne.symm h3, Ne.symm h4]

/-- The event with the number it gets, linked after a fact of its task. -/
def linkedAfter (n : ℕ) (event previous : Event) : Event :=
  ((event.set "legacy_fact_id" (.str (planningFactId n))).set "previous_event_uid" (previous.find "event_uid")).set
    "previous_legacy_fact_id" (previous.find "legacy_fact_id")

theorem get_linkedAfter (n : ℕ) (event previous : Event) (key : String) :
    (linkedAfter n event previous).get key =
      if key = "previous_legacy_fact_id" then some (previous.find "legacy_fact_id")
      else if key = "previous_event_uid" then some (previous.find "event_uid")
      else if key = "legacy_fact_id" then some (.str (planningFactId n)) else event.get key := by
  unfold linkedAfter
  simp only [Mapping.get_set, eq_comm]

/-- The contract of a planning fact with another number and another fact before it. -/
theorem relinked_of_get {entry : Entry} {done : Event} {m n : ℕ} (hkind : entry.1 = .planningStatus)
    (hnm : n ≤ m) (h : meetsContract R entry.1 entry.2 ∧ entry.2.isCanonical)
    (hlegacy : entry.2.find "legacy_fact_id" = .str (planningFactId m))
    (hget : ∀ key ∉ linkKeys, done.get key = entry.2.get key)
    (hnumber : done.get "legacy_fact_id" = some (.str (planningFactId n))) {value : Json}
    (hprevious : done.get "previous_legacy_fact_id" = some value) (hvalue : value.isCanonical)
    (hadmits : Value.orNull (Value.isNumbered "PS-" 6) value)
    (hwidth : width (some value) ≤ width (entry.2.get "previous_legacy_fact_id")) :
    Relinked R entry (entry.1, done) := by
  have hlinks : ∀ key ∈ linkKeys, key = "legacy_fact_id" ∨ key = "previous_legacy_fact_id" := by
    simp [linkKeys]
  refine ⟨rfl, fun key hkey ↦ hget key fun hmem ↦ hkey ⟨hkind, hmem⟩, h.1, ⟨?_, ?_⟩, fun key ↦ ?_⟩
  · refine meetsContract_of_rewritten h.1 ?_ ?_ ?_
    · intro key hkey
      apply hget
      intro hmem
      apply hkey
      rw [rewrittenKeys, if_pos hkind]
      exact List.mem_append_right _ hmem
    · intro p hp hname
      have hnot : p.name ∉ linkKeys := by
        intro hmem
        have hdisjoint : ∀ key ∈ linkKeys, key ∉ sealKeys := by decide
        exact hdisjoint _ hmem hname
      rw [Event.meets_congr (hget _ hnot)]
      exact envelope_of_meetsContract h.1 hp
    · intro _ p hp hname
      simp only [planningStatusEvent, List.mem_cons, List.not_mem_nil, or_false] at hp
      rcases hp with rfl | rfl | rfl | rfl | rfl | rfl | rfl | rfl | rfl | rfl | rfl <;>
        simp [required, optional, linkKeys] at hname
      · unfold Event.meets
        simp only [required, hnumber]
        exact isNumbered_planningFactId n
      · unfold Event.meets
        simp only [required, hprevious]
        exact hadmits
  · rw [Event.isCanonical_eq_true]
    intro key found hfound
    by_cases hmem : key ∈ linkKeys
    · rcases hlinks key hmem with rfl | rfl
      · rw [hnumber] at hfound
        rw [← Option.some.inj hfound]
        rfl
      · rw [hprevious] at hfound
        rw [← Option.some.inj hfound]
        exact hvalue
    · rw [hget key hmem] at hfound
      exact (Event.isCanonical_eq_true _).mp h.2 key found hfound
  · by_cases hmem : key ∈ linkKeys
    · rcases hlinks key hmem with rfl | rfl
      · rw [hnumber, Event.get_of_find_str hlegacy]
        exact Nat.succ_le_succ (size_planningFactId_mono hnm)
      · rw [hprevious]
        exact hwidth
    · rw [hget key hmem]

end Planning

/-- One planning fact of `_repair_planning`, after the last one of its task. -/
def relinkEntry (n : ℕ) (prior : Option Entry) (entry : Entry) : Rewritten Entry :=
  let numbered := entry.2.set "legacy_fact_id" (.str (planningFactId n))
  match prior with
  | none => .ok (entry.1, applyBootstrap numbered)
  | some previous => (applyTransition numbered previous.2).map fun event ↦ (entry.1, event)

section Relinking

variable {R : StreamRules} {entry : Entry} {m n : ℕ}

theorem relinkEntry_bootstrap (hkind : entry.1 = .planningStatus) (hnm : n ≤ m)
    (h : meetsContract R entry.1 entry.2 ∧ entry.2.isCanonical) (hlink : planningThreads.Link m none entry) :
    ∃ done, relinkEntry n none entry = .ok done ∧ planningThreads.Link n none done ∧ Relinked R entry done := by
  obtain ⟨hlegacy, hnull⟩ := hlink
  have hplanning : meetsContract R .planningStatus entry.2 := hkind ▸ h.1
  have hfield : ∀ key ∈ bootstrapFields, entry.2.get key = some .null := by
    intro key hkey
    rw [bootstrapField_of_planning hplanning hkey, hnull key hkey]
  have hget := get_applyBootstrap (entry.2.set "legacy_fact_id" (.str (planningFactId n)))
  have hnumber : (applyBootstrap (entry.2.set "legacy_fact_id" (.str (planningFactId n)))).get "legacy_fact_id" =
      some (.str (planningFactId n)) := by
    rw [hget, if_neg (by decide), Mapping.get_set_self]
  refine ⟨_, rfl, ⟨Event.find_eq_of_get hnumber, ?_⟩, ?_⟩
  · intro key hkey
    exact Event.find_eq_of_get ((hget key).trans (if_pos hkey))
  · refine relinked_of_get hkind hnm h hlegacy ?_ hnumber ((hget _).trans (if_pos (by decide))) rfl rfl ?_
    · intro key hkey
      rw [hget]
      split
      · rename_i hmem
        rw [hfield key hmem]
      · exact Mapping.get_set_of_ne _ (by rintro rfl; exact hkey (by decide)) _
    · rw [hfield _ (by decide)]

/-- The repair of a transition finds the status and the revision already right. -/
theorem applyTransition_eq {event previous : Event} {priorRevision previousRevision : ℤ} {text : String}
    (huid : previous.find "event_uid" = .str text) {number : String}
    (hnumber : previous.find "legacy_fact_id" = .str number)
    (hstatus : (event.find "prior_status").same (previous.find "status"))
    (hprior : event.find "prior_revision" = .int priorRevision)
    (hnew : event.find "new_revision" = .int (priorRevision + 1))
    (hprevious : previous.find "new_revision" = .int previousRevision) (hle : previousRevision ≤ priorRevision)
    (hchanged : (event.find "status").same (previous.find "status") = false) :
    applyTransition (event.set "legacy_fact_id" (.str (planningFactId n))) previous =
      .ok (linkedAfter n event previous) := by
  have hfind : ∀ key, key ≠ "previous_legacy_fact_id" → key ≠ "previous_event_uid" → key ≠ "legacy_fact_id" →
      Event.find (linkedAfter n event previous) key = event.find key := by
    intro key h1 h2 h3
    exact Event.find_congr (by rw [get_linkedAfter, if_neg h1, if_neg h2, if_neg h3])
  have hrepairStatus : repairStatus previous (linkedAfter n event previous) = linkedAfter n event previous := by
    unfold repairStatus
    rw [hfind _ (by decide) (by decide) (by decide), if_pos hstatus]
  have hrepairRevision : repairRevision previous (linkedAfter n event previous) = .ok (linkedAfter n event previous) := by
    unfold repairRevision
    rw [hfind _ (by decide) (by decide) (by decide), hfind _ (by decide) (by decide) (by decide), hprior, hprevious,
      hnew]
    by_cases hsame : priorRevision = previousRevision
    · rw [if_pos (by simp [Json.same, Json.int?, hsame])]
    · rw [if_neg (by simp [Json.same, Json.int?]; omega)]
      simp only [Json.int?]
      rw [if_neg (by simp [Json.same, Json.int?]; omega)]
  have hrequire : requireTransition (linkedAfter n event previous) previous = .ok () := by
    have hexact : exactRevisionsFollow (linkedAfter n event previous) previous := by
      have h1 : Event.exactInt? (linkedAfter n event previous) "prior_revision" = some priorRevision :=
        Event.exactInt?_eq_some_iff.mpr ((hfind _ (by decide) (by decide) (by decide)).trans hprior)
      have h2 : Event.exactInt? (linkedAfter n event previous) "new_revision" = some (priorRevision + 1) :=
        Event.exactInt?_eq_some_iff.mpr ((hfind _ (by decide) (by decide) (by decide)).trans hnew)
      unfold exactRevisionsFollow
      rw [h1, h2, Event.exactInt?_eq_some_iff.mpr hprevious]
      simpa using hle
    have hnames : transitionFields.all fun field ↦
        ((linkedAfter n event previous).find field.1).same (previous.find field.2) := by
      have hlegacy : Event.find (linkedAfter n event previous) "previous_legacy_fact_id" = .str number := by
        rw [← hnumber]
        exact Event.find_eq_of_get (by rw [get_linkedAfter, if_pos rfl])
      have hbefore : Event.find (linkedAfter n event previous) "previous_event_uid" = .str text := by
        rw [← huid]
        exact Event.find_eq_of_get (by rw [get_linkedAfter, if_neg (by decide), if_pos rfl])
      simp only [transitionFields, List.all_cons, List.all_nil, Bool.and_true, Bool.and_eq_true]
      rw [hbefore, hlegacy, huid, hnumber, hfind _ (by decide) (by decide) (by decide), same_text, same_text]
      exact ⟨rfl, rfl, hstatus⟩
    unfold requireTransition require
    rw [hnames, hexact, hfind _ (by decide) (by decide) (by decide), hchanged]
    rfl
  unfold applyTransition
  change (repairRevision previous (repairStatus previous (linkedAfter n event previous)) >>= _) = _
  rw [hrepairStatus, hrepairRevision]
  change (requireTransition (linkedAfter n event previous) previous >>= _) = _
  rw [hrequire]
  rfl

theorem relinkEntry_transition {prior prior' : Entry} (hkind : entry.1 = .planningStatus) (hnm : n ≤ m)
    (h : meetsContract R entry.1 entry.2 ∧ entry.2.isCanonical) (hrel : Relinked R prior prior')
    (hlink : planningThreads.Link m (some prior) entry) :
    ∃ done, relinkEntry n (some prior') entry = .ok done ∧ planningThreads.Link n (some prior') done ∧
      Relinked R entry done := by
  obtain ⟨hlegacy, hprior, hfields, hrevisions, hchanged⟩ := hlink
  have hplanning : meetsContract R .planningStatus entry.2 := hkind ▸ h.1
  have hkept : ∀ key ∉ linkKeys, prior'.2.find key = prior.2.find key :=
    fun key hkey ↦ Event.find_congr (hrel.get key fun hmem ↦ hkey hmem.2)
  have hprior' : meetsContract R .planningStatus prior'.2 := by
    have hcontract := hrel.contract.1
    rwa [hrel.kind, hprior] at hcontract
  obtain ⟨uid, hgetUid, _⟩ := eventUid_of_meetsContract hprior'
  have huid : prior'.2.find "event_uid" = .str uid := Event.find_eq_of_get hgetUid
  obtain ⟨number, hnumber⟩ := legacy_of_planning hprior'
  obtain ⟨previousRevision, hprevious⟩ := newRevision_of_planning hprior'
  obtain ⟨newRevision, hnew⟩ := newRevision_of_planning hplanning
  have hstatus := hfields ("prior_status", "status") (by decide)
  rw [← hkept _ (by decide)] at hstatus hchanged
  have hbefore : entry.2.find "previous_event_uid" = .str uid := by
    have hsame := hfields ("previous_event_uid", "event_uid") (by decide)
    rw [← hkept _ (by decide), huid] at hsame
    exact same_text.mp hsame
  have hrevision : ∃ priorRevision, entry.2.find "prior_revision" = .int priorRevision ∧
      newRevision = priorRevision + 1 ∧ previousRevision ≤ priorRevision := by
    have hadmits : ∃ found, entry.2.get "prior_revision" = some found ∧
        Value.orNull (Value.isIntegerWithin 0 (some Json.maxCanonicalInteger)) found :=
      planning_field _ _ hplanning (by simp [planningStatusEvent])
    obtain ⟨found, hget, hfound⟩ := hadmits
    unfold revisionsFollow at hrevisions
    rw [Event.find_eq_of_get hget, hnew, ← hkept _ (by decide), hprevious] at hrevisions
    rcases eq_null_or_of_orNull hfound with rfl | hint
    · simp [Json.int?] at hrevisions
    · obtain ⟨priorRevision, rfl⟩ := exists_int_of_isIntegerWithin hint
      simp only [Json.int?, Bool.and_eq_true, beq_iff_eq, decide_eq_true_eq] at hrevisions
      exact ⟨priorRevision, Event.find_eq_of_get hget, hrevisions.1, hrevisions.2⟩
  obtain ⟨priorRevision, hpriorRevision, rfl, hle⟩ := hrevision
  have hdone := applyTransition_eq (n := n) huid hnumber hstatus hpriorRevision hnew hprevious hle hchanged
  have hget := get_linkedAfter n entry.2 prior'.2
  have hfind : ∀ key, key ≠ "previous_legacy_fact_id" → key ≠ "previous_event_uid" → key ≠ "legacy_fact_id" →
      Event.find (linkedAfter n entry.2 prior'.2) key = entry.2.find key := by
    intro key h1 h2 h3
    exact Event.find_congr (by rw [hget, if_neg h1, if_neg h2, if_neg h3])
  have hnumbered : (linkedAfter n entry.2 prior'.2).get "legacy_fact_id" = some (.str (planningFactId n)) := by
    rw [hget, if_neg (by decide), if_neg (by decide), if_pos rfl]
  have hprevLegacy : (linkedAfter n entry.2 prior'.2).get "previous_legacy_fact_id" = some (.str number) := by
    rw [hget, if_pos rfl, hnumber]
  refine ⟨(entry.1, linkedAfter n entry.2 prior'.2), ?_, ⟨Event.find_eq_of_get hnumbered, ?_⟩, ?_⟩
  · change (applyTransition _ prior'.2).map _ = _
    rw [hdone]
    rfl
  · refine ⟨hrel.kind.trans hprior, ?_, ?_, ?_⟩
    · intro names hnames
      simp only [transitionFields, List.mem_cons, List.not_mem_nil, or_false] at hnames
      rcases hnames with rfl | rfl | rfl
      · rw [huid, same_text]
        exact Event.find_eq_of_get (by rw [hget, if_neg (by decide), if_pos rfl, huid])
      · rw [hnumber, same_text]
        exact Event.find_eq_of_get hprevLegacy
      · rw [hfind _ (by decide) (by decide) (by decide)]
        exact hstatus
    · unfold revisionsFollow
      rw [hfind _ (by decide) (by decide) (by decide), hfind _ (by decide) (by decide) (by decide), hpriorRevision, hnew,
        hprevious]
      simpa [Json.int?] using hle
    · rw [hfind _ (by decide) (by decide) (by decide)]
      exact hchanged
  · have hnumberAdmits : Value.isNumbered "PS-" 6 (.str number) := by
      obtain ⟨found, hgetFound, hadmits⟩ := planning_field "legacy_fact_id" (Value.isNumbered "PS-" 6) hprior'
        (by simp [planningStatusEvent])
      rw [Event.find_eq_of_get hgetFound] at hnumber
      rwa [hnumber] at hadmits
    refine relinked_of_get hkind hnm h hlegacy ?_ hnumbered hprevLegacy rfl ?_ ?_
    · intro key hkey
      rw [hget]
      by_cases h1 : key = "previous_legacy_fact_id"
      · exact absurd (h1 ▸ (by decide : "previous_legacy_fact_id" ∈ linkKeys)) hkey
      · by_cases h3 : key = "legacy_fact_id"
        · exact absurd (h3 ▸ (by decide : "legacy_fact_id" ∈ linkKeys)) hkey
        · rw [if_neg h1, if_neg h3]
          split
          · rename_i h2
            rw [h2, huid, Event.get_of_find_str hbefore]
          · rfl
    · unfold Value.orNull
      rw [hnumberAdmits]
      rfl
    · have hsame := hfields ("previous_legacy_fact_id", "legacy_fact_id") (by decide)
      obtain ⟨text, htext⟩ := legacy_of_planning (hprior ▸ hrel.original : meetsContract R .planningStatus prior.2)
      rw [htext] at hsame
      have hwidth := hrel.narrower "legacy_fact_id"
      rw [Event.get_of_find_str hnumber, Event.get_of_find_str htext] at hwidth
      rw [Event.get_of_find_str (same_text.mp hsame)]
      exact hwidth

theorem relinkEntry_ok {prior prior' : Option Entry} (hkind : entry.1 = .planningStatus) (hnm : n ≤ m)
    (h : meetsContract R entry.1 entry.2 ∧ entry.2.isCanonical) (hrel : Option.Rel (Relinked R) prior prior')
    (hlink : planningThreads.Link m prior entry) :
    ∃ done, relinkEntry n prior' entry = .ok done ∧ planningThreads.Link n prior' done ∧ Relinked R entry done := by
  cases hrel with
  | none => exact relinkEntry_bootstrap hkind hnm h hlink
  | some hrel => exact relinkEntry_transition hkind hnm h hrel hlink

end Relinking

/-! ## Events, sealed again -/

/-- An entry after it was sealed again. -/
structure Resealed (R : StreamRules) (entry done : Entry) : Prop where
  kind : done.1 = entry.1
  get : ∀ key ∉ sealKeys, done.2.get key = entry.2.get key
  contract : meetsContract R done.1 done.2 ∧ done.2.isCanonical
  narrower : ∀ key, width (done.2.get key) ≤ width (entry.2.get key)

section Sealing

variable {R : StreamRules} {entry : Entry} {n : ℕ} {previous : Option String}

theorem get_unsealed (n : ℕ) (previous : Option String) (event : Event) (key : String) :
    (unsealed n previous event).get key =
      if key = "previous_event_digest" then previous.map .str
      else if key = "sequence" then some (.int n)
      else if key = "event_digest" then none else event.get key := by
  cases previous with
  | none =>
      simp only [unsealed, Mapping.get_set, Mapping.get_erase, eq_comm (a := key), Option.map_none]
      by_cases h : "previous_event_digest" = key
      · subst h
        simp
      · simp [h]
  | some digest =>
      simp only [unsealed, Mapping.get_set, Mapping.get_erase, eq_comm (a := key), Option.map_some]
      by_cases h : "previous_event_digest" = key
      · simp [h]
      · simp [h]

/-- What sealing needs of an entry that comes to stand at a position after a digest. -/
structure Sealable (R : StreamRules) (n : ℕ) (previous : Option String) (entry : Entry) : Prop where
  contract : meetsContract R entry.1 entry.2 ∧ entry.2.isCanonical
  positive : 1 ≤ n
  sequence : ∃ k : ℕ, entry.2.find "sequence" = .int k ∧ n ≤ k ∧ (k : ℤ) ≤ Json.maxCanonicalInteger
  claimed : ∃ text, entry.2.find "event_digest" = .str text ∧ isDigestText text
  digest : ∀ text ∈ previous, isDigestText text
  before : previous.isSome → ∃ text, entry.2.find "previous_event_digest" = .str text ∧ isDigestText text

theorem Sealable.canonical_unsealed (h : Sealable R n previous entry) :
    Event.isCanonical (unsealed n previous entry.2) := by
  obtain ⟨k, _, hnk, hmax⟩ := h.sequence
  rw [Event.isCanonical_eq_true]
  intro key value hvalue
  rw [get_unsealed] at hvalue
  split at hvalue
  · obtain ⟨text, _, rfl⟩ := Option.map_eq_some_iff.mp hvalue
    rfl
  · split at hvalue
    · rw [← Option.some.inj hvalue]
      unfold Json.isCanonical
      rw [Bool.and_eq_true, decide_eq_true_eq, decide_eq_true_eq]
      unfold Json.maxCanonicalInteger at hmax ⊢
      omega
    · split at hvalue
      · cases hvalue
      · exact (Event.isCanonical_eq_true _).mp h.contract.2 key value hvalue

/-- The event of `sealEvent`, with its digest. -/
def sealedEvent (R : StreamRules) (n : ℕ) (previous : Option String) (event : Event) : Event :=
  (unsealed n previous event).set "event_digest" (.str (R.sha256 (Event.bytes (unsealed n previous event))).text)

theorem get_sealedEvent_of_ne {key : String} (hkey : key ≠ "event_digest") (event : Event) :
    (sealedEvent R n previous event).get key = (unsealed n previous event).get key :=
  Mapping.get_set_of_ne _ (Ne.symm hkey) _

theorem get_sealedEvent_of_notMem {key : String} (hkey : key ∉ sealKeys) (event : Event) :
    (sealedEvent R n previous event).get key = event.get key := by
  simp only [sealKeys, List.mem_cons, List.not_mem_nil, or_false, not_or] at hkey
  rw [get_sealedEvent_of_ne hkey.2.2, get_unsealed, if_neg hkey.2.1, if_neg hkey.1, if_neg hkey.2.2]

theorem payloadDigest_sealedEvent (h : Sealable R n previous entry) :
    payloadDigest R (sealedEvent R n previous entry.2) =
      some (R.sha256 (Event.bytes (unsealed n previous entry.2))).text := by
  have hget : ∀ key, Mapping.get (Mapping.erase "event_digest" (sealedEvent R n previous entry.2)) key =
      (unsealed n previous entry.2).get key := by
    intro key
    rw [Mapping.get_erase]
    by_cases hkey : "event_digest" = key
    · rw [if_pos hkey, ← hkey, get_unsealed]
      rfl
    · rw [if_neg hkey, get_sealedEvent_of_ne (Ne.symm hkey)]
  unfold payloadDigest canonicalJsonBytes
  rw [Event.isCanonical_eq hget, if_pos h.canonical_unsealed, Option.map_some, Event.bytes_eq hget]

theorem Sealable.resealed (h : Sealable R n previous entry) :
    Resealed R entry (entry.1, sealedEvent R n previous entry.2) := by
  obtain ⟨k, hsequence, hnk, hmax⟩ := h.sequence
  obtain ⟨claimed, hclaimed, hclaimedText⟩ := h.claimed
  have hdigest : (sealedEvent R n previous entry.2).get "event_digest" =
      some (.str (R.sha256 (Event.bytes (unsealed n previous entry.2))).text) := Mapping.get_set_self ..
  have hnumber : (sealedEvent R n previous entry.2).get "sequence" = some (.int n) := by
    rw [get_sealedEvent_of_ne (by decide), get_unsealed, if_neg (by decide), if_pos rfl]
  have hbefore : (sealedEvent R n previous entry.2).get "previous_event_digest" = previous.map .str := by
    rw [get_sealedEvent_of_ne (by decide), get_unsealed, if_pos rfl]
  refine ⟨rfl, fun key hkey ↦ get_sealedEvent_of_notMem hkey _, ⟨?_, ?_⟩, fun key ↦ ?_⟩
  · refine meetsContract_of_rewritten h.contract.1 ?_ ?_ ?_
    · intro key hkey
      apply get_sealedEvent_of_notMem
      intro hmem
      apply hkey
      unfold rewrittenKeys
      split
      · exact List.mem_append_left _ hmem
      · exact hmem
    · intro p hp hname
      simp only [envelope, List.mem_cons, List.not_mem_nil, or_false] at hp
      rcases hp with rfl | rfl | rfl | rfl | rfl | rfl | rfl | rfl | rfl | rfl | rfl <;>
        simp [required, optional, sealKeys] at hname
      · unfold Event.meets
        simp only [required, hnumber]
        have hpositive := h.positive
        simp only [Value.isIntegerWithin, Option.all_some, Bool.and_eq_true, decide_eq_true_eq]
        omega
      · unfold Event.meets
        simp only [optional, hbefore]
        cases hprevious : previous with
        | none => rfl
        | some text => exact isSha256_of_isDigestText (h.digest text hprevious)
      · unfold Event.meets
        simp only [optional, hdigest]
        exact isSha256_of_isDigestText (isDigestText_text _)
    · intro hkind p hp hname
      have hdisjoint : ∀ key ∈ linkKeys, key ∉ sealKeys := by decide
      rw [Event.meets_congr (get_sealedEvent_of_notMem (hdisjoint _ hname) _)]
      exact planning_of_meetsContract (hkind ▸ h.contract.1) p hp
  · rw [Event.isCanonical_eq_true]
    intro key value hvalue
    by_cases hkey : key = "event_digest"
    · subst hkey
      rw [hdigest] at hvalue
      rw [← Option.some.inj hvalue]
      rfl
    · rw [get_sealedEvent_of_ne hkey] at hvalue
      exact (Event.isCanonical_eq_true _).mp h.canonical_unsealed key value hvalue
  · by_cases hmem : key ∈ sealKeys
    · simp only [sealKeys, List.mem_cons, List.not_mem_nil, or_false] at hmem
      rcases hmem with rfl | rfl | rfl
      · have hget : entry.2.get "sequence" = some (.int k) := by
          obtain ⟨found, hget, _⟩ := sequence_of_meetsContract h.contract.1
          rw [Event.find_eq_of_get hget] at hsequence
          rw [hget, hsequence]
        rw [hnumber, hget]
        exact Nat.succ_le_succ (Json.size_int_mono hnk)
      · rw [hbefore]
        cases hprevious : previous with
        | none => exact Nat.zero_le _
        | some text =>
            obtain ⟨other, hother, hotherText⟩ := h.before (by rw [hprevious]; rfl)
            rw [Option.map_some, Event.get_of_find_str hother]
            change (Json.str text).size + 1 ≤ (Json.str other).size + 1
            rw [size_of_isDigestText (h.digest text hprevious), size_of_isDigestText hotherText]
      · rw [hdigest, Event.get_of_find_str hclaimed]
        change (Json.str _).size + 1 ≤ (Json.str claimed).size + 1
        rw [size_of_isDigestText (isDigestText_text _), size_of_isDigestText hclaimedText]
    · rw [get_sealedEvent_of_notMem hmem]

theorem sealEvent_ok (h : Sealable R n previous entry) :
    sealEvent R n previous entry = .ok (sealedEvent R n previous entry.2) := by
  have hresealed := h.resealed
  have hformat := format_of_meetsContract hresealed.contract.1
  have hvalid : validEventContract R entry.1 (sealedEvent R n previous entry.2) := by
    unfold validEventContract
    rw [Event.get_of_find_str hformat, Option.any_some, hresealed.contract.1, hresealed.contract.2]
    simp [Value.isConst, Value.isText]
  unfold sealEvent canonicalJsonBytes
  simp only [if_pos h.canonical_unsealed]
  exact if_pos hvalid

/-- A sealed event stands where it was sealed. -/
theorem sealed_sealedEvent (h : Sealable R n previous entry) :
    (eventSealing R).Sealed n previous (entry.1, sealedEvent R n previous entry.2) := by
  refine ⟨Event.exactInt?_eq_some_iff.mpr (Event.find_eq_of_get ?_), ?_,
    _, payloadDigest_sealedEvent h, Event.find_eq_of_get (Mapping.get_set_self ..)⟩
  · rw [get_sealedEvent_of_ne (by decide), get_unsealed, if_neg (by decide), if_pos rfl]
  · change ((sealedEvent R n previous entry.2).get "previous_event_digest").getD .null = _
    rw [get_sealedEvent_of_ne (by decide), get_unsealed, if_pos rfl]
    cases previous <;> rfl

end Sealing

end WorkStack.Streams
