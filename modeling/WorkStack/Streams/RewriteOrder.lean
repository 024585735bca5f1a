import Mathlib
import WorkStack.Streams.Relink

/-!
# The order after a rewrite

Leaving out every event of some tasks, repairing the planning facts and sealing again turns a valid
order into a valid order of exactly the events that are left.
-/

open WorkStack.Python WorkStack.Effect

namespace WorkStack.Streams

/-- An event that is left, as the rewrite puts it down. -/
structure Rewrote (R : StreamRules) (entry done : Entry) : Prop where
  kind : done.1 = entry.1
  get : ∀ key ∉ rewrittenKeys entry.1, done.2.get key = entry.2.get key
  original : meetsContract R entry.1 entry.2
  contract : meetsContract R done.1 done.2 ∧ done.2.isCanonical
  narrower : ∀ key, width (done.2.get key) ≤ width (entry.2.get key)

section Loops

variable {R : StreamRules}

/-- The heads of the model's loop, as entries. -/
def headEntries (heads : Dict String Event) (uid : String) : Option Entry :=
  (heads.get uid).map fun value ↦ (.planningStatus, value)

theorem headEntries_set (heads : Dict String Event) (uid : String) (value : Event) :
    headEntries (heads.set uid value) = Function.update (headEntries heads) uid (some (.planningStatus, value)) := by
  funext other
  unfold headEntries
  rw [Dict.get_set]
  by_cases h : other = uid
  · subst h
    rw [Function.update_self, if_pos rfl, Option.map_some]
  · rw [Function.update_of_ne h, if_neg (Ne.symm h)]

theorem requireText_ok {value : Json} {text : String} (h : value = .str text) (hne : text ≠ "") :
    requireText value = .ok text := by
  subst h
  exact if_neg hne

theorem uuid_ne_empty {uid : String} (h : matchesLine (fits uuidShape) uid) : uid ≠ "" := by
  rintro rfl
  exact absurd h (by decide)

theorem repairEvent_eq {n : ℕ} {heads : Dict String Event} {entry : Entry} {uid : String}
    (huid : entry.2.find "task_uid" = .str uid) (hne : uid ≠ "") :
    (repairEvent n heads entry.2).map (fun step ↦ (step.1, (entry.1, step.2))) =
      (relinkEntry n (headEntries heads uid) entry).map fun done ↦ (uid, done) := by
  have hfind : Event.find (entry.2.set "legacy_fact_id" (.str (planningFactId n))) "task_uid" = .str uid := by
    rw [← huid]
    exact Event.find_congr (Mapping.get_set_of_ne _ (by decide) _)
  unfold repairEvent headEntries relinkEntry
  dsimp only
  rw [requireText_ok hfind hne]
  have hread {step : String → Rewritten (String × Event)} : (Except.ok uid >>= step) = step uid := rfl
  rw [hread]
  cases heads.get uid with
  | none => rfl
  | some previous =>
      change Except.map _ (applyTransition _ previous >>= _) = Except.map _ (Except.map _ (applyTransition _ previous))
      cases applyTransition (entry.2.set "legacy_fact_id" (.str (planningFactId n))) previous <;> rfl

/-- The loop over the planning facts, as the general one. -/
theorem repairPlanning_eq {n : ℕ} {heads : Dict String Event} {entries : List Entry}
    (h : ∀ entry ∈ entries, meetsContract R entry.1 entry.2) :
    repairPlanning n heads entries = planningThreads.relinkAll relinkEntry n (headEntries heads) entries := by
  induction entries generalizing n heads with
  | nil => rfl
  | cons entry entries ih =>
      have hrest := fun other hother ↦ h other (List.mem_cons_of_mem entry hother)
      by_cases hkind : entry.1 = .planningStatus
      · have hcontract := h entry (List.mem_cons_self ..)
        rw [hkind] at hcontract
        obtain ⟨uid, hget, hshape⟩ := taskUid_of_meetsContract hcontract
        have huid : entry.2.find "task_uid" = .str uid := Event.find_eq_of_get hget
        have hsubject : planningThreads.subject entry = some uid := by
          simp only [planningThreads, hkind, if_true]
          exact Event.text?_eq_some_iff.mpr huid
        have hstep := @repairEvent_eq n heads _ _ huid (uuid_ne_empty hshape)
        rw [repairPlanning, if_pos hkind, Threads.relinkAll, hsubject]
        dsimp only
        cases hrepair : repairEvent n heads entry.2 with
        | error e =>
            rw [hrepair] at hstep
            cases hrelink : relinkEntry n (headEntries heads uid) entry with
            | ok done =>
                rw [hrelink] at hstep
                cases hstep
            | error e' =>
                rw [hrelink] at hstep
                cases hstep
                rfl
        | ok step =>
            rw [hrepair] at hstep
            cases hrelink : relinkEntry n (headEntries heads uid) entry with
            | error e' =>
                rw [hrelink] at hstep
                cases hstep
            | ok done =>
                rw [hrelink] at hstep
                obtain ⟨rfl, rfl⟩ := Prod.mk.inj (Except.ok.inj hstep)
                change (repairPlanning (n + 1) (heads.set step.1 step.2) entries >>= _) =
                  (planningThreads.relinkAll relinkEntry (n + 1)
                    (Function.update (headEntries heads) step.1 (some (entry.1, step.2))) entries >>= _)
                rw [ih hrest, headEntries_set, hkind]
      · have hsubject : planningThreads.subject entry = none := by
          simp [planningThreads, hkind]
        rw [repairPlanning, if_neg hkind, Threads.relinkAll, hsubject, ih hrest]
        dsimp only
        cases planningThreads.relinkAll relinkEntry n (headEntries heads) entries <;> rfl

/-- The turn of `_rechain`, with the kind of the entry. -/
def resealEntry (R : StreamRules) (n : ℕ) (previous : Option String) (entry : Entry) : Rewritten Entry :=
  (sealEvent R n previous entry).map fun event ↦ (entry.1, event)

/-- The loop over all entries, as the general one. -/
theorem rechain_eq (n : ℕ) (previous : Option String) (entries : List Entry) :
    rechain R n previous entries = (eventSealing R).sealAll (resealEntry R) n previous entries := by
  induction entries generalizing n previous with
  | nil => rfl
  | cons entry entries ih =>
      rw [rechain, Sealing.sealAll, resealEntry]
      cases sealEvent R n previous entry with
      | error e => rfl
      | ok event =>
          change (rechain R (n + 1) (event.text? "event_digest") entries >>= _) =
            ((eventSealing R).sealAll (resealEntry R) (n + 1) (event.text? "event_digest") entries >>= _)
          rw [ih]

end Loops

/-! ## The events that are left -/

section Left

variable {R : StreamRules} {entries : List Entry}

/-- What the digest chain says of the entry at a position. -/
theorem sealed_at {n : ℕ} {previous : Option String} (h : (eventSealing R).Chained n previous entries)
    (hprevious : ∀ text ∈ previous, isDigestText text) {i : ℕ} {entry : Entry} (hentry : entries[i]? = some entry) :
    entry.2.find "sequence" = .int (n + i : ℕ) ∧
    (∃ text, entry.2.find "event_digest" = .str text ∧ isDigestText text) ∧
    (1 ≤ i ∨ previous.isSome → ∃ text, entry.2.find "previous_event_digest" = .str text ∧ isDigestText text) := by
  induction entries generalizing n previous i with
  | nil => simp at hentry
  | cons first entries ih =>
      obtain ⟨⟨hsequence, hbefore, digest, hdigest, hclaimed⟩, hrest⟩ := h
      have hdigestText : isDigestText digest := by
        unfold payloadDigest at hdigest
        obtain ⟨body, _, rfl⟩ := Option.map_eq_some_iff.mp hdigest
        exact isDigestText_text _
      have hhandsOn : (eventSealing R).digest first = some digest := Event.text?_eq_some_iff.mpr hclaimed
      cases i with
      | zero =>
          rw [List.getElem?_cons_zero, Option.some.injEq] at hentry
          subst hentry
          refine ⟨Event.exactInt?_eq_some_iff.mp hsequence, ⟨digest, hclaimed, hdigestText⟩, ?_⟩
          rintro (hle | hsome)
          · omega
          · obtain ⟨text, rfl⟩ := Option.isSome_iff_exists.mp hsome
            exact ⟨text, hbefore, hprevious text rfl⟩
      | succ i =>
          rw [List.getElem?_cons_succ] at hentry
          rw [hhandsOn] at hrest
          obtain ⟨hnumber, hown, hprior⟩ := ih hrest (by rintro _ ⟨⟩; exact hdigestText) hentry
          refine ⟨?_, hown, fun _ ↦ hprior (Or.inr rfl)⟩
          rw [hnumber]
          congr 2
          omega

/-- An entry of a filtered list stood at least as far back before. -/
theorem getElem?_of_filter {p : Entry → Bool} {i : ℕ} {entry : Entry} (h : (entries.filter p)[i]? = some entry) :
    ∃ j, i ≤ j ∧ entries[j]? = some entry := by
  obtain ⟨f, hf⟩ := List.sublist_iff_exists_orderEmbedding_getElem?_eq.mp (List.filter_sublist (p := p) (l := entries))
  exact ⟨f i, f.strictMono.le_apply, (hf i).symm.trans h⟩

theorem rewrote_of {entry relinked done : Entry} (hrelinked : Relinked R entry relinked)
    (hresealed : Resealed R relinked done) : Rewrote R entry done := by
  refine ⟨hresealed.kind.trans hrelinked.kind, fun key hkey ↦ ?_, hrelinked.original, hresealed.contract,
    fun key ↦ (hresealed.narrower key).trans (hrelinked.narrower key)⟩
  have hseal : key ∉ sealKeys := by
    intro hmem
    apply hkey
    unfold rewrittenKeys
    split
    · exact List.mem_append_left _ hmem
    · exact hmem
  rw [hresealed.get key hseal]
  apply hrelinked.get
  rintro ⟨hkind, hmem⟩
  apply hkey
  rw [rewrittenKeys, if_pos hkind]
  exact List.mem_append_right _ hmem

theorem linked_of_resealed {k : ℕ} {prior prior' : Option Entry} {entry done : Entry}
    (hresealed : Resealed R entry done) (hrel : Option.Rel (Resealed R) prior prior')
    (hlink : planningThreads.Link k prior entry) : planningThreads.Link k prior' done := by
  have hfind : ∀ key ∉ sealKeys, done.2.find key = entry.2.find key :=
    fun key hkey ↦ Event.find_congr (hresealed.get key hkey)
  refine ⟨(hfind _ (by decide)).trans hlink.1, ?_⟩
  cases hrel with
  | none =>
      intro key hkey
      have hnot : ∀ key ∈ bootstrapFields, key ∉ sealKeys := by decide
      rw [hfind key (hnot key hkey)]
      exact hlink.2 key hkey
  | some hprior =>
      obtain ⟨hkind, hfields, hrevisions, hstatus⟩ := hlink.2
      have hfind' := fun key hkey ↦ Event.find_congr (hprior.get key hkey)
      refine ⟨hprior.kind.trans hkind, fun names hnames ↦ ?_, ?_, ?_⟩
      · have hnot : ∀ names ∈ transitionFields, names.1 ∉ sealKeys ∧ names.2 ∉ sealKeys := by decide
        rw [hfind _ (hnot names hnames).1, hfind' _ (hnot names hnames).2]
        exact hfields names hnames
      · unfold revisionsFollow at hrevisions ⊢
        rw [hfind _ (by decide), hfind _ (by decide), hfind' _ (by decide)]
        exact hrevisions
      · rw [hfind _ (by decide), hfind' _ (by decide)]
        exact hstatus

theorem subject_of_resealed {entry done : Entry} (h : Resealed R entry done) :
    planningThreads.subject done = planningThreads.subject entry := by
  have htask : done.2.text? "task_uid" = entry.2.text? "task_uid" := Event.text?_congr (h.get _ (by decide))
  simp only [planningThreads, h.kind, htask]

theorem map_sequence_of_chained {n : ℕ} {previous : Option String} (h : (eventSealing R).Chained n previous entries) :
    entries.map (fun entry ↦ entry.2.exactInt? "sequence") =
      (List.range' n entries.length).map fun k : ℕ ↦ some (k : ℤ) := by
  induction entries generalizing n previous with
  | nil => rfl
  | cons entry entries ih =>
      rw [List.map_cons, List.length_cons, List.range'_succ, List.map_cons, ih h.2, h.1.1]

/-- What is left of a valid order can be repaired and sealed again, and is a valid order then. -/
theorem repair_and_rechain (kept : Entry → Bool) (keep : String → Bool) (horder : ValidOrder R entries)
    (hchained : (eventSealing R).Chained 1 none entries)
    (hkept : ∀ entry ∈ entries, ∀ uid, planningThreads.subject entry = some uid → kept entry = keep uid) :
    ∃ repaired done, repairPlanning 1 [] (entries.filter kept) = .ok repaired ∧
      rechain R 1 none repaired = .ok done ∧ List.Forall₂ (Rewrote R) (entries.filter kept) done ∧
      (eventSealing R).Chained 1 none done ∧ ValidOrder R done := by
  have hleft : ∀ entry ∈ entries.filter kept, meetsContract R entry.1 entry.2 ∧ entry.2.isCanonical :=
    fun entry h ↦ horder.contract entry (List.mem_of_mem_filter h)
  have hrelinkAll : ∃ repaired, planningThreads.relinkAll relinkEntry 1 (fun _ ↦ none) (entries.filter kept) =
        .ok repaired ∧ planningThreads.Threaded 1 (fun _ ↦ none) repaired ∧
        List.Forall₂ (Relinked R) (entries.filter kept) repaired := Threads.relinkAll_ok horder.planning le_rfl
    (fun _ _ ↦ Option.Rel.none) hkept (fun entry h _ ↦ relinked_self (horder.contract entry h))
    (fun _ _ h ↦ h.subject_eq) (fun m n prior prior' entry hnm hentry hsubject hrel hlink ↦ by
      have hkind : entry.1 = .planningStatus := by
        by_contra hne
        simp [planningThreads, hne] at hsubject
      exact relinkEntry_ok hkind hnm (horder.contract entry hentry) hrel hlink)
  obtain ⟨repaired, hrepaired, hthreaded, hrelinked⟩ := hrelinkAll
  have hsealable : ∀ i entry digest, repaired[i]? = some entry →
      (∀ text ∈ digest, isDigestText text) ∧ (1 + i = 1 → digest = none) → Sealable R (1 + i) digest entry := by
    intro i relinked digest hentry hgood
    obtain ⟨hlength, hget⟩ := List.forall₂_iff_get.mp hrelinked
    obtain ⟨hi, rfl⟩ := List.getElem?_eq_some_iff.mp hentry
    have hleftLength : i < (entries.filter kept).length := hlength ▸ hi
    have hrel : Relinked R (entries.filter kept)[i] repaired[i] := hget i hleftLength hi
    obtain ⟨j, hij, hj⟩ := getElem?_of_filter (List.getElem?_eq_getElem hleftLength)
    obtain ⟨hsequence, hclaimed, hbefore⟩ := sealed_at hchained (by rintro _ ⟨⟩) hj
    have hfind : ∀ key ∉ linkKeys, repaired[i].2.find key = (entries.filter kept)[i].2.find key :=
      fun key hkey ↦ Event.find_congr (hrel.get key fun h ↦ hkey h.2)
    obtain ⟨number, hnumber, _, hmax⟩ := sequence_of_meetsContract hrel.original
    rw [Event.find_eq_of_get hnumber, Json.int.injEq] at hsequence
    refine ⟨hrel.contract, by omega, ⟨1 + j, ?_, by omega, ?_⟩, ?_, hgood.1, ?_⟩
    · rw [hfind _ (by decide), Event.find_eq_of_get hnumber, hsequence]
    · rw [← hsequence]
      exact hmax
    · rw [hfind _ (by decide)]
      exact hclaimed
    · intro hsome
      rw [hfind _ (by decide)]
      apply hbefore
      left
      by_contra hzero
      rw [hgood.2 (by omega)] at hsome
      cases hsome
  have hsealAll : ∃ done, (eventSealing R).sealAll (resealEntry R) 1 none repaired = .ok done ∧
      (eventSealing R).Chained 1 none done ∧ List.Forall₂ (Resealed R) repaired done := Sealing.sealAll_ok
    (fun k digest ↦ (∀ text ∈ digest, isDigestText text) ∧ (k = 1 → digest = none)) ⟨by rintro _ ⟨⟩, fun _ ↦ rfl⟩
    (fun i entry digest hentry hgood ↦ by
      have hseal := hsealable i entry digest hentry hgood
      refine ⟨(entry.1, sealedEvent R (1 + i) digest entry.2), ?_, sealed_sealedEvent hseal, ⟨?_, by omega⟩, hseal.resealed⟩
      · rw [resealEntry, sealEvent_ok hseal]
        rfl
      · intro text htext
        have hown : (eventSealing R).digest (entry.1, sealedEvent R (1 + i) digest entry.2) =
            some (R.sha256 (Event.bytes (unsealed (1 + i) digest entry.2))).text :=
          Event.text?_eq_some_iff.mpr (Event.find_eq_of_get (Mapping.get_set_self ..))
        rw [hown, Option.mem_some_iff] at htext
        rw [← htext]
        exact isDigestText_text _)
  obtain ⟨done, hdone, hsealed, hresealed⟩ := hsealAll
  have hrewrote : List.Forall₂ (Rewrote R) (entries.filter kept) done := by
    apply forall₂_trans _ hrelinked hresealed
    intro entry relinked sealedEntry hrel hseal
    exact rewrote_of hrel hseal
  refine ⟨repaired, done, ?_, ?_, hrewrote, hsealed, ?_⟩
  · rw [repairPlanning_eq fun entry h ↦ (hleft entry h).1]
    exact hrepaired
  · rw [rechain_eq]
    exact hdone
  · have hcontract : ∀ entry ∈ done, meetsContract R entry.1 entry.2 ∧ entry.2.isCanonical := by
      intro entry hentry
      obtain ⟨original, _, hrel⟩ := exists_of_forall₂_right hrewrote hentry
      exact hrel.contract
    have huids : done.map (fun entry ↦ entry.2.text? "event_uid") =
        (entries.filter kept).map fun entry ↦ entry.2.text? "event_uid" := by
      refine (map_eq_of_forall₂ (fun entry other hrel ↦ ?_) hrewrote).symm
      exact Event.text?_congr (hrel.get _ (by unfold rewrittenKeys; split <;> decide)).symm
    refine ⟨hcontract, ?_, ?_, Or.inr hsealed, ?_⟩
    · rw [map_sequence_of_chained hsealed, sequenceRun, List.map_map, List.range'_eq_map_range, List.map_map]
      refine List.map_congr_left fun k _ ↦ ?_
      simp [add_comm]
    · rw [huids]
      exact horder.uids.sublist (List.filter_sublist.map _)
    · exact hthreaded.of_forall₂ (fun _ ↦ Option.Rel.none) hresealed (fun _ _ ↦ subject_of_resealed)
        fun _ _ _ _ _ hsame hrel hlink ↦ linked_of_resealed hsame hrel hlink

end Left

end WorkStack.Streams
