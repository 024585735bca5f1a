import WorkStack.Streams.RewriteOrder

/-!
# The checks before a rewrite

The rewrite accepts a valid directory whose events carry their digests, and selects exactly the
events that a deletion names.
-/

open WorkStack.Python WorkStack.Effect

namespace WorkStack.Streams

/-! ## Lists -/

/-- A list is what its elements with each key are together. -/
theorem flatMap_filter_perm {α κ : Type} [DecidableEq κ] (key : α → κ) {keys : List κ} (hkeys : keys.Nodup)
    (items : List α) (h : ∀ item ∈ items, key item ∈ keys) :
    (keys.flatMap fun k ↦ items.filter fun item ↦ key item = k).Perm items := by
  induction keys generalizing items with
  | nil =>
      cases items with
      | nil => exact List.Perm.refl _
      | cons item items => exact absurd (h item (List.mem_cons_self ..)) List.not_mem_nil
  | cons k keys ih =>
      obtain ⟨hk, hnodup⟩ := List.nodup_cons.mp hkeys
      have hrest : ∀ item ∈ items.filter (fun item ↦ !decide (key item = k)), key item ∈ keys := by
        intro item hitem
        obtain ⟨hmem, hne⟩ := List.mem_filter.mp hitem
        exact (List.mem_cons.mp (h item hmem)).resolve_left (by simpa using hne)
      have hperm := ih hnodup _ hrest
      have hsame : keys.flatMap (fun k' ↦ (items.filter fun item ↦ !decide (key item = k)).filter
          fun item ↦ key item = k') = keys.flatMap fun k' ↦ items.filter fun item ↦ key item = k' := by
        refine List.flatMap_congr fun k' hk' ↦ ?_
        rw [List.filter_filter]
        refine List.filter_congr fun item _ ↦ ?_
        by_cases hitem : key item = k'
        · have hne : key item ≠ k := by
            rintro rfl
            exact hk (hitem ▸ hk')
          simp [hitem, hitem ▸ hne]
        · simp [hitem]
      rw [hsame] at hperm
      rw [List.flatMap_cons]
      exact (List.Perm.append_left _ hperm).trans (List.filter_append_perm _ items)

theorem mapM_ok {α β ε : Type} {f : α → Except ε β} {g : α → β} {items : List α}
    (h : ∀ item ∈ items, f item = .ok (g item)) : items.mapM f = .ok (items.map g) := by
  induction items with
  | nil => rfl
  | cons item items ih =>
      rw [List.mapM_cons, h item (List.mem_cons_self ..), ih fun other hother ↦ h other (List.mem_cons_of_mem _ hother)]
      rfl

/-! ## The existing streams -/

variable {entry : Entry} {value : Event}

section Existing

variable {R : StreamRules} {files : StreamFiles} {entries : List Entry}

/-- The events of a kind are those of its files. -/
theorem map_kindValues (kind : StreamKind) : (kindValues files kind).map (fun value ↦ (kind, value)) =
    (entriesOf files).filter fun entry ↦ entry.1 = kind := by
  rw [kindValues, entriesOf, List.filter_flatMap, List.map_flatMap]
  induction files.items with
  | nil => rfl
  | cons file items ih =>
      by_cases hkind : file.1.1 = kind
      · rw [List.filter_cons_of_pos (by simpa using hkind), List.flatMap_cons, List.flatMap_cons, ih]
        congr 1
        rw [List.filter_eq_self.mpr fun entry hentry ↦ by
          obtain ⟨value, _, rfl⟩ := List.mem_map.mp hentry
          simpa using hkind, hkind]
      · rw [List.filter_cons_of_neg (by simpa using hkind), List.flatMap_cons, ih]
        have hnone : ((file.2.map fun value ↦ (file.1.1, value)).filter fun entry : Entry ↦ entry.1 = kind) = [] := by
          rw [List.filter_eq_nil_iff]
          intro entry hentry
          obtain ⟨value, _, rfl⟩ := List.mem_map.mp hentry
          simpa using hkind
        rw [hnone, List.nil_append]

theorem kindEntries_readStreams : kindEntries (readStreams files) =
    streamKinds.flatMap fun kind ↦ (entriesOf files).filter fun entry ↦ entry.1 = kind := by
  unfold kindEntries
  refine List.flatMap_congr fun kind _ ↦ ?_
  have hget : (readStreams files).get kind.text = some (kindValues files kind) := by
    cases kind <;> rfl
  rw [hget, Option.getD_some, map_kindValues]

theorem kindEntries_perm (h : (entriesOf files).Perm entries) : (kindEntries (readStreams files)).Perm entries := by
  rw [kindEntries_readStreams]
  refine (flatMap_filter_perm Prod.fst (by decide) _ fun entry _ ↦ ?_).trans h
  cases entry.1 <;> decide

theorem require_ok {condition : Bool} (h : condition = true) : require condition = .ok () := if_pos h

theorem sequence_at (h : ValidOrder R entries) {i : ℕ} (hentry : entries[i]? = some entry) :
    entry.2.find "sequence" = .int (i + 1 : ℕ) := by
  have hsequence := congrArg (fun numbers ↦ numbers[i]?) h.sequence
  simp only [sequenceRun, List.map_map, List.getElem?_map, hentry, Option.map_some] at hsequence
  obtain ⟨hi, _⟩ := List.getElem?_eq_some_iff.mp hentry
  rw [List.getElem?_range hi, Option.map_some, Option.some.injEq] at hsequence
  exact Event.exactInt?_eq_some_iff.mp (by simpa using hsequence)

theorem find_sequence (h : ValidOrder R entries) (hentry : entry ∈ entries) :
    ∃ n : ℕ, entry.2.find "sequence" = .int n ∧ 1 ≤ n := by
  obtain ⟨i, hi⟩ := List.getElem?_of_mem hentry
  exact ⟨i + 1, sequence_at h hi, by omega⟩

/-- The sequence number of an event, as `sortEntries` compares it. -/
def positionOf (entry : Entry) : ℤ := (entry.2.find "sequence").int?.getD 0

theorem increasing_of_validOrder (h : ValidOrder R entries) :
    entries.Pairwise fun a b ↦ positionOf a < positionOf b := by
  rw [List.pairwise_iff_getElem]
  intro i j hi hj hij
  unfold positionOf
  rw [sequence_at h (List.getElem?_eq_getElem hi), sequence_at h (List.getElem?_eq_getElem hj)]
  simp only [Json.int?, Option.getD_some]
  omega

theorem collectEntries_eq (hperm : (entriesOf files).Perm entries) (h : ValidOrder R entries) :
    collectEntries R (readStreams files) = .ok entries := by
  have hkinds := kindEntries_perm hperm
  have hunknown : unknownKinds (readStreams files) = .ok () := rfl
  have hcontracts : (kindEntries (readStreams files)).all fun entry ↦ validEventContract R entry.1 entry.2 := by
    rw [List.all_eq_true]
    intro entry hentry
    obtain ⟨hcontract, hcanonical⟩ := h.contract entry (hkinds.mem_iff.mp hentry)
    unfold validEventContract
    rw [Event.get_of_find_str (format_of_meetsContract hcontract), Option.any_some, hcontract, hcanonical]
    simp [Value.isConst, Value.isText]
  have hnumbered : (kindEntries (readStreams files)).mapM numberedEntry =
      .ok ((kindEntries (readStreams files)).map fun entry ↦ (positionOf entry, entry)) := by
    refine mapM_ok fun entry hentry ↦ ?_
    obtain ⟨n, hn, hpositive⟩ := find_sequence h (hkinds.mem_iff.mp hentry)
    unfold numberedEntry sequenceOf positionOf
    rw [Event.exactInt?_eq_some_iff.mpr hn, hn]
    simp only [Json.int?, Option.getD_some]
    rw [if_pos (by omega)]
    rfl
  have hsort : sortEntries ((kindEntries (readStreams files)).map fun entry ↦ (positionOf entry, entry)) = entries := by
    unfold sortEntries
    have hpairs := insertionSort_eq_of_perm Prod.fst
      (hkinds.map fun entry ↦ (positionOf entry, entry)) (by
        rw [List.pairwise_map]
        exact increasing_of_validOrder h)
    rw [hpairs, List.map_map]
    exact List.map_id _
  unfold collectEntries
  rw [hunknown]
  change (require _ >>= _) = _
  rw [require_ok hcontracts]
  change (List.mapM numberedEntry _ >>= _) = _
  rw [hnumbered]
  change Except.ok _ = _
  rw [hsort]

theorem requireContiguous_eq (h : ValidOrder R entries) : requireContiguous entries = .ok () := by
  unfold requireContiguous
  rw [h.sequence]
  exact require_ok (beq_self_eq_true _)

theorem requireDigestChain_eq {n : ℕ} {seen : List String} {previous : Option String}
    (hchained : (eventSealing R).Chained n previous entries)
    (hcontract : ∀ entry ∈ entries, meetsContract R entry.1 entry.2)
    (huids : (entries.map fun entry ↦ entry.2.text? "event_uid").Nodup)
    (hseen : ∀ uid ∈ seen, some uid ∉ entries.map fun entry ↦ entry.2.text? "event_uid") :
    requireDigestChain R seen previous entries = .ok () := by
  induction entries generalizing n seen previous with
  | nil => rfl
  | cons entry entries ih =>
      obtain ⟨⟨_, hbefore, digest, hdigest, hclaimed⟩, hrest⟩ := hchained
      obtain ⟨uid, hget, hshape⟩ := eventUid_of_meetsContract (hcontract entry (List.mem_cons_self ..))
      have huid : entry.2.text? "event_uid" = some uid := Event.text?_eq_some_iff.mpr (Event.find_eq_of_get hget)
      have hnew : uid ∉ seen := by
        intro hmem
        apply hseen uid hmem
        rw [List.map_cons, huid]
        exact List.mem_cons_self ..
      have hdigestText : isDigestText digest := by
        unfold payloadDigest at hdigest
        obtain ⟨body, _, rfl⟩ := Option.map_eq_some_iff.mp hdigest
        exact isDigestText_text _
      have hclaim : claimedDigest entry.2 = .ok digest := by
        unfold claimedDigest
        rw [Event.text?_eq_some_iff.mpr hclaimed]
        exact if_pos hdigestText
      have hstep : requireDigest R seen previous entry.2 = .ok (uid, digest) := by
        unfold requireDigest
        rw [requireText_ok (Event.find_eq_of_get hget) (uuid_ne_empty hshape)]
        change (require (!seen.contains uid) >>= _) = _
        rw [require_ok (by simpa using hnew)]
        change (claimedDigest entry.2 >>= _) = _
        rw [hclaim]
        change (require _ >>= _) = _
        rw [require_ok (same_textOrNull.mpr hbefore)]
        change (require _ >>= _) = _
        rw [require_ok (beq_iff_eq.mpr hdigest)]
        rfl
      rw [List.map_cons, huid] at huids
      obtain ⟨hnotMem, hnodup⟩ := List.nodup_cons.mp huids
      have hhandsOn : (eventSealing R).digest entry = some digest := Event.text?_eq_some_iff.mpr hclaimed
      rw [hhandsOn] at hrest
      rw [requireDigestChain, hstep]
      refine ih hrest (fun other hother ↦ hcontract other (List.mem_cons_of_mem _ hother)) hnodup ?_
      intro other hother
      rcases List.mem_cons.mp hother with rfl | hmem
      · exact hnotMem
      · have hnot := hseen other hmem
        rw [List.map_cons] at hnot
        exact fun h ↦ hnot (List.mem_cons_of_mem _ h)

theorem requireLink_eq {heads : Dict String Event} {uid : String} (hcontract : meetsContract R .planningStatus value)
    (hheads : ∀ uid prior, heads.get uid = some prior → meetsContract R .planningStatus prior)
    (hlink : Linked (headEntries heads uid) value) : requireLink heads uid value = .ok () := by
  unfold headEntries at hlink
  unfold requireLink
  cases hprior : heads.get uid with
  | none =>
      rw [hprior] at hlink
      refine require_ok (List.all_eq_true.mpr fun key hkey ↦ ?_)
      rw [hlink key hkey]
      rfl
  | some prior =>
      rw [hprior] at hlink
      obtain ⟨_, hfields, hrevisions, hstatus⟩ := hlink
      obtain ⟨newRevision, hnew⟩ := newRevision_of_planning hcontract
      obtain ⟨previousRevision, hprevious⟩ := newRevision_of_planning (hheads uid prior hprior)
      have hexact : exactRevisionsFollow value prior := by
        obtain ⟨found, hget, hfound⟩ := planning_field "prior_revision"
          (Value.orNull (Value.isIntegerWithin 0 (some Json.maxCanonicalInteger))) hcontract
          (by simp [planningStatusEvent])
        unfold revisionsFollow at hrevisions
        unfold exactRevisionsFollow
        rw [Event.find_eq_of_get hget, hnew, hprevious] at hrevisions
        rcases eq_null_or_of_orNull hfound with rfl | hint
        · simp [Json.int?] at hrevisions
        · obtain ⟨priorRevision, rfl⟩ := exists_int_of_isIntegerWithin hint
          rw [Event.exactInt?_eq_some_iff.mpr (Event.find_eq_of_get hget), Event.exactInt?_eq_some_iff.mpr hnew,
            Event.exactInt?_eq_some_iff.mpr hprevious]
          simpa [Json.int?] using hrevisions
      refine require_ok ?_
      rw [Bool.and_eq_true, Bool.and_eq_true, List.all_eq_true]
      exact ⟨⟨hfields, hexact⟩, by rw [hstatus]; rfl⟩

theorem requirePlanningChain_eq {n : ℕ} {heads : Dict String Event} {seenLegacy : List String}
    (hthreaded : planningThreads.Threaded n (headEntries heads) entries)
    (hcontract : ∀ entry ∈ entries, meetsContract R entry.1 entry.2)
    (hheads : ∀ uid prior, heads.get uid = some prior → meetsContract R .planningStatus prior)
    (hseen : ∀ m, n ≤ m → planningFactId m ∉ seenLegacy) :
    requirePlanningChain n heads seenLegacy (planningEvents entries) = .ok () := by
  induction entries generalizing n heads seenLegacy with
  | nil => rfl
  | cons entry entries ih =>
      have hrest := fun other hother ↦ hcontract other (List.mem_cons_of_mem entry hother)
      have hown := hcontract entry (List.mem_cons_self ..)
      by_cases hkind : entry.1 = .planningStatus
      · obtain ⟨uid, hsubject⟩ := subject_of_planning hkind hown
        have huid : entry.2.text? "task_uid" = some uid := by
          simpa [planningThreads, hkind] using hsubject
        rw [hkind] at hown
        obtain ⟨uid', hget, hshape⟩ := taskUid_of_meetsContract hown
        have hsame : uid' = uid := by
          have hfind := Event.text?_eq_some_iff.mp huid
          rw [Event.find_eq_of_get hget, Json.str.injEq] at hfind
          exact hfind
        subst hsame
        obtain ⟨⟨hlegacy, hlink⟩, hthread⟩ := (Threads.threaded_cons_of_some hsubject).mp hthreaded
        have hne : planningFactId n ≠ "" := by
          intro hempty
          have hchars := congrArg String.toList hempty
          rw [toList_planningFactId] at hchars
          simp at hchars
        have hstep : requirePlanning n heads seenLegacy entry.2 = .ok (planningFactId n, uid') := by
          unfold requirePlanning
          rw [requireText_ok hlegacy hne]
          change (require (!seenLegacy.contains (planningFactId n)) >>= _) = _
          rw [require_ok (by simpa using hseen n le_rfl)]
          change (require (planningFactId n == planningFactId n) >>= _) = _
          rw [require_ok (beq_self_eq_true _)]
          change (requireText _ >>= _) = _
          rw [requireText_ok (Event.find_eq_of_get hget) (uuid_ne_empty hshape)]
          change (requireLink heads uid' entry.2 >>= _) = _
          rw [requireLink_eq hown hheads hlink]
          rfl
        have hevents : planningEvents (entry :: entries) = entry.2 :: planningEvents entries := by
          unfold planningEvents
          rw [List.filter_cons_of_pos (by simpa using hkind), List.map_cons]
        rw [hevents, requirePlanningChain, hstep]
        refine ih ?_ hrest ?_ ?_
        · rw [headEntries_set]
          have hentry : entry = (.planningStatus, entry.2) := Prod.ext hkind rfl
          rw [hentry] at hthread
          exact hthread
        · intro other prior hprior
          rw [Dict.get_set] at hprior
          split at hprior
          · rw [← Option.some.inj hprior]
            exact hown
          · exact hheads other prior hprior
        · intro m hm hmem
          rcases List.mem_cons.mp hmem with heq | hold
          · exact absurd (planningFactId_injective heq) (by omega)
          · exact hseen m (by omega) hold
      · have hsubject : planningThreads.subject entry = none := by
          simp [planningThreads, hkind]
        have hevents : planningEvents (entry :: entries) = planningEvents entries := by
          unfold planningEvents
          rw [List.filter_cons_of_neg (by simpa using hkind)]
        rw [hevents]
        exact ih ((Threads.threaded_cons_of_none hsubject).mp hthreaded) hrest hheads hseen

/-- The rewrite accepts a valid directory with digests, in its global order. -/
theorem orderedExisting_eq (hperm : (entriesOf files).Perm entries) (h : ValidOrder R entries)
    (hchained : (eventSealing R).Chained 1 none entries) :
    orderedExisting R (readStreams files) = .ok entries := by
  have hcontract := fun entry hentry ↦ (h.contract entry hentry).1
  unfold orderedExisting
  rw [collectEntries_eq hperm h]
  change (requireContiguous entries >>= _) = _
  rw [requireContiguous_eq h]
  change (requireDigestChain R [] none entries >>= _) = _
  rw [requireDigestChain_eq hchained hcontract h.uids fun _ hmem ↦ by cases hmem]
  change (requirePlanningChain 1 [] [] (planningEvents entries) >>= _) = _
  have hheads : headEntries [] = fun _ ↦ none := rfl
  rw [requirePlanningChain_eq (hheads ▸ h.planning) hcontract (fun _ _ hprior ↦ by cases hprior) fun _ _ hmem ↦ by cases hmem]
  rfl

/-- The rewrite refuses a directory with events that carry no digests. -/
theorem orderedExisting_of_unchained (hperm : (entriesOf files).Perm entries) (h : ValidOrder R entries)
    (hunchained : ∀ entry ∈ entries, isChained entry.2 = false) (hne : entries ≠ []) :
    orderedExisting R (readStreams files) = .error .invalidStream := by
  obtain ⟨entry, rest, rfl⟩ := List.exists_cons_of_ne_nil hne
  have hnone := hunchained entry (List.mem_cons_self ..)
  unfold isChained at hnone
  rw [Bool.or_eq_false_iff] at hnone
  have hclaim : claimedDigest entry.2 = .error .invalidStream := by
    have hget : entry.2.get "event_digest" = none := by
      simpa [Mapping.has] using hnone.1
    unfold claimedDigest Event.text? Event.find
    rw [hget]
    rfl
  obtain ⟨uid, hget, hshape⟩ := eventUid_of_meetsContract (h.contract entry (List.mem_cons_self ..)).1
  have hstep : requireDigest R [] none entry.2 = .error .invalidStream := by
    unfold requireDigest
    rw [requireText_ok (Event.find_eq_of_get hget) (uuid_ne_empty hshape)]
    change (claimedDigest entry.2 >>= _) = _
    rw [hclaim]
    rfl
  unfold orderedExisting
  rw [collectEntries_eq hperm h]
  change (requireContiguous (entry :: rest) >>= _) = _
  rw [requireContiguous_eq h]
  change (requireDigestChain R [] none (entry :: rest) >>= _) = _
  rw [requireDigestChain, hstep]
  rfl

end Existing

/-! ## The events of a task -/

/-- Whether an event is an event of a task. -/
def ofTask (uid : String) (value : Event) : Bool := value.text? "task_uid" == some uid

/-- The identities that an activity event or a planning fact answers to. -/
def textAnswers (key : String) (value : Event) : List String :=
  (value.text? key).toList ++ (value.text? "event_uid").toList

/-- The identity that a worklog entry answers to. -/
def entryAnswers (value : Event) : List (String × String) :=
  ((value.text? "event_uid").bind fun uid ↦ (value.text? "work_date").map fun date ↦ (uid, date)).toList

/-- The identity that a work session answers to. -/
def sessionAnswers (value : Event) : List (String × String × String) :=
  ((value.text? "event_uid").bind fun uid ↦ (value.text? "work_date").bind fun date ↦
    (value.text? "session_id").map fun session ↦ (uid, date, session)).toList

/-- The identities name the events of a task: every event of the task answers to one of them, and
every one of them is answered by one event, which is an event of the task. -/
structure Names {κ : Type} (wanted : List κ) (answers : Event → List κ) (uid : String)
    (events : List Entry) : Prop where
  nodup : wanted.Nodup
  each : ∀ entry ∈ events, ofTask uid entry.2 → ∃! identity, identity ∈ wanted ∧ identity ∈ answers entry.2
  one : ∀ identity ∈ wanted, ∃ entry ∈ events, ofTask uid entry.2 ∧ identity ∈ answers entry.2 ∧
    ∀ other ∈ events, identity ∈ answers other.2 → other = entry

/-- A deletion names the events of a task. -/
structure NamesTask (deletion : StreamDeletion) (uid : String) (entries : List Entry) : Prop where
  activity : Names deletion.activityIds (textAnswers "legacy_event_id") uid
    (entries.filter fun entry ↦ entry.1 = .activity)
  planning : Names deletion.planningIds (textAnswers "legacy_fact_id") uid
    (entries.filter fun entry ↦ entry.1 = .planningStatus)
  work : Names deletion.worklogEntries entryAnswers uid (entries.filter (isWork "entry"))
  sessions : Names deletion.worklogSessions sessionAnswers uid (entries.filter (isWork "session"))

/-! ## Marking them -/

/-- The places of the entries that satisfy a predicate. -/
def placesWhere (p : Entry → Bool) : ℕ → List Entry → List ℕ
  | _, [] => []
  | index, entry :: entries => if p entry then index :: placesWhere p (index + 1) entries
      else placesWhere p (index + 1) entries

theorem mem_placesWhere {p : Entry → Bool} {index k : ℕ} {entries : List Entry} :
    k ∈ placesWhere p index entries ↔ ∃ i entry, k = index + i ∧ entries[i]? = some entry ∧ p entry := by
  induction entries generalizing index with
  | nil => simp [placesWhere]
  | cons first entries ih =>
      have hrest : k ∈ placesWhere p (index + 1) entries ↔
          ∃ i entry, k = index + (i + 1) ∧ (first :: entries)[i + 1]? = some entry ∧ p entry := by
        rw [ih]
        refine exists_congr fun i ↦ exists_congr fun entry ↦ ?_
        rw [List.getElem?_cons_succ, Nat.add_assoc, Nat.add_comm 1 i]
      have hsplit : (∃ i entry, k = index + i ∧ (first :: entries)[i]? = some entry ∧ p entry) ↔
          (k = index ∧ p first) ∨ k ∈ placesWhere p (index + 1) entries := by
        rw [hrest]
        constructor
        · rintro ⟨i, entry, hk, hentry, hp⟩
          cases i with
          | zero =>
              rw [List.getElem?_cons_zero, Option.some.injEq] at hentry
              exact Or.inl ⟨hk, hentry ▸ hp⟩
          | succ i => exact Or.inr ⟨i, entry, hk, hentry, hp⟩
        · rintro (⟨hk, hp⟩ | ⟨i, entry, hk, hentry, hp⟩)
          · exact ⟨0, first, hk, rfl, hp⟩
          · exact ⟨i + 1, entry, hk, hentry, hp⟩
      rw [hsplit, placesWhere]
      split
      · rename_i hp
        rw [List.mem_cons]
        simp [hp]
      · rename_i hp
        simp [hp]

section Marking

variable {κ : Type} [DecidableEq κ] {counts : Entry → Bool} {identities : Event → Rewritten (List κ)}
  {answers : Event → List κ} {uid : String}

/-- Marking finds exactly the entries of the task among those that count. -/
theorem markLoop_eq {index : ℕ} {remaining : List κ} {entries : List Entry} (hnodup : entries.Nodup)
    (hidentities : ∀ entry ∈ entries, counts entry →
      ∃ names, identities entry.2 = .ok names ∧ ∀ identity, identity ∈ names ↔ identity ∈ answers entry.2)
    (hnames : Names remaining answers uid (entries.filter counts)) :
    markLoop counts identities index remaining entries =
      .ok (placesWhere (fun entry ↦ counts entry && ofTask uid entry.2) index entries, []) := by
  induction entries generalizing index remaining with
  | nil =>
      have hempty : remaining = [] := by
        rw [List.eq_nil_iff_forall_not_mem]
        intro identity hmem
        obtain ⟨entry, hentry, _⟩ := hnames.one identity hmem
        cases hentry
      rw [hempty]
      rfl
  | cons first entries ih =>
      obtain ⟨hfirst, hrest⟩ := List.nodup_cons.mp hnodup
      have hidentities' := fun entry hentry ↦ hidentities entry (List.mem_cons_of_mem first hentry)
      by_cases hcounts : counts first
      · rw [List.filter_cons_of_pos hcounts] at hnames
        obtain ⟨names, hok, hmem⟩ := hidentities first (List.mem_cons_self ..) hcounts
        have hmatched : remaining.filter (fun identity ↦ names.contains identity) =
            remaining.filter fun identity ↦ (answers first.2).contains identity := by
          refine List.filter_congr fun identity _ ↦ ?_
          rw [Bool.eq_iff_iff, List.contains_iff_mem, List.contains_iff_mem, hmem]
        have hnotRest : first ∉ entries.filter counts := fun h ↦ hfirst (List.mem_of_mem_filter h)
        by_cases htask : ofTask uid first.2
        · obtain ⟨own, ⟨hownWanted, hownAnswers⟩, hunique⟩ := hnames.each first (List.mem_cons_self ..) htask
          have hone : remaining.filter (fun identity ↦ (answers first.2).contains identity) = [own] := by
            have hsub : ∀ identity, identity ∈ remaining.filter
                (fun identity ↦ (answers first.2).contains identity) ↔ identity = own := by
              intro identity
              rw [List.mem_filter, List.contains_iff_mem]
              constructor
              · exact hunique identity
              · rintro rfl
                exact ⟨hownWanted, hownAnswers⟩
            have hperm : (remaining.filter fun identity ↦ (answers first.2).contains identity).Perm [own] := by
              rw [List.perm_ext_iff_of_nodup (hnames.nodup.filter _) (List.nodup_singleton own)]
              intro identity
              rw [hsub, List.mem_singleton]
            exact List.perm_singleton.mp hperm
          have hleft : Names (remaining.filter fun identity ↦ !([own].contains identity)) answers uid
              (entries.filter counts) := by
            refine ⟨hnames.nodup.filter _, fun entry hentry htask' ↦ ?_, fun identity hidentity ↦ ?_⟩
            · obtain ⟨identity, ⟨hwanted, hanswers⟩, huniq⟩ := hnames.each entry (List.mem_cons_of_mem _ hentry) htask'
              have hne : identity ≠ own := by
                rintro rfl
                obtain ⟨only, _, _, _, honly⟩ := hnames.one identity hwanted
                have hsame := (honly entry (List.mem_cons_of_mem _ hentry) hanswers).trans
                  (honly first (List.mem_cons_self ..) hownAnswers).symm
                exact hnotRest (hsame ▸ hentry)
              refine ⟨identity, ⟨List.mem_filter.mpr ⟨hwanted, by simpa using hne⟩, hanswers⟩, ?_⟩
              exact fun other hother ↦ huniq other ⟨List.mem_of_mem_filter hother.1, hother.2⟩
            · obtain ⟨hwanted, hne⟩ := List.mem_filter.mp hidentity
              obtain ⟨entry, hentry, htask', hanswers, honly⟩ := hnames.one identity hwanted
              rcases List.mem_cons.mp hentry with rfl | hentry
              · have hown := hunique identity ⟨hwanted, hanswers⟩
                simp [hown] at hne
              · exact ⟨entry, hentry, htask', hanswers,
                  fun other hother ↦ honly other (List.mem_cons_of_mem _ hother)⟩
          rw [markLoop, if_pos hcounts, hok]
          change (if remaining.filter (fun identity ↦ names.contains identity) = [] then _ else _) = _
          rw [hmatched, hone, if_neg (List.cons_ne_nil _ _)]
          change (markLoop counts identities (index + 1)
            (remaining.filter fun identity ↦ !([own].contains identity)) entries >>= _) = _
          rw [ih hrest hidentities' hleft, placesWhere, if_pos (by simp [hcounts, htask])]
          rfl
        · have hnone : remaining.filter (fun identity ↦ (answers first.2).contains identity) = [] := by
            rw [List.filter_eq_nil_iff]
            intro identity hwanted hcontains
            obtain ⟨entry, _, htask', _, honly⟩ := hnames.one identity hwanted
            have hsame := honly first (List.mem_cons_self ..) (List.contains_iff_mem.mp hcontains)
            exact htask (hsame ▸ htask')
          have hleft : Names remaining answers uid (entries.filter counts) := by
            refine ⟨hnames.nodup, fun entry hentry ↦ hnames.each entry (List.mem_cons_of_mem _ hentry),
              fun identity hwanted ↦ ?_⟩
            obtain ⟨entry, hentry, htask', hanswers, honly⟩ := hnames.one identity hwanted
            rcases List.mem_cons.mp hentry with rfl | hentry
            · exact absurd htask' htask
            · exact ⟨entry, hentry, htask', hanswers, fun other hother ↦ honly other (List.mem_cons_of_mem _ hother)⟩
          rw [markLoop, if_pos hcounts, hok]
          change (if remaining.filter (fun identity ↦ names.contains identity) = [] then _ else _) = _
          rw [hmatched, hnone, if_pos rfl, ih hrest hidentities' hleft, placesWhere, if_neg (by simp [htask])]
      · rw [List.filter_cons_of_neg hcounts] at hnames
        rw [markLoop, if_neg hcounts, ih hrest hidentities' hnames, placesWhere, if_neg (by simp [hcounts])]

theorem markAll_eq {wanted : List κ} {entries : List Entry} (hnodup : entries.Nodup)
    (hidentities : ∀ entry ∈ entries, counts entry →
      ∃ names, identities entry.2 = .ok names ∧ ∀ identity, identity ∈ names ↔ identity ∈ answers entry.2)
    (hnames : Names wanted answers uid (entries.filter counts)) :
    markAll counts identities wanted entries =
      .ok (placesWhere (fun entry ↦ counts entry && ofTask uid entry.2) 0 entries) := by
  unfold markAll
  rw [markLoop_eq hnodup hidentities hnames]
  rfl

end Marking

/-! ## The selection -/

section Selection

variable {R : StreamRules} {entries : List Entry} {uid : String} {deletion : StreamDeletion}

theorem isNumbered_ne_empty (name : String) {digits : ℕ} {text : String} (hname : name.toList ≠ [])
    (h : Value.isNumbered name digits (.str text)) : text ≠ "" := by
  rintro rfl
  have hmatch : matchesLine (isNumberedText name.toList digits) "" := h
  unfold matchesLine isNumberedText at hmatch
  cases hlist : name.toList with
  | nil => exact hname hlist
  | cons c rest => simp [hlist] at hmatch

theorem activity_of_meetsContract (h : meetsContract R .activity value) :
    ∃ legacy, value.find "legacy_event_id" = .str legacy ∧ legacy ≠ "" := by
  obtain ⟨found, hget, hadmits⟩ := Event.admits_of_meets (variant_of_meetsContract h rfl
    (required "legacy_event_id" (Value.isNumbered "E-" 6)) (by simp [activityEvent]))
  obtain ⟨text, rfl, _⟩ := exists_text_of_isText hadmits
  exact ⟨text, Event.find_eq_of_get hget, isNumbered_ne_empty _ (by decide) hadmits⟩

theorem legacyIdentity_eq {key : String} {legacy own : String} (hlegacy : value.find key = .str legacy)
    (hne : legacy ≠ "") (hown : value.find "event_uid" = .str own) (hownNe : own ≠ "") :
    ∃ names, legacyIdentity key value = .ok names ∧
      ∀ identity, identity ∈ names ↔ identity ∈ textAnswers key value := by
  have htext : value.text? key = some legacy := Event.text?_eq_some_iff.mpr hlegacy
  have hownText : value.text? "event_uid" = some own := Event.text?_eq_some_iff.mpr hown
  refine ⟨[legacy, own].dedup, ?_, fun identity ↦ ?_⟩
  · unfold legacyIdentity
    rw [requireText_ok hown hownNe, htext]
    simp only [Option.toList_some]
    rw [List.filter_cons_of_pos (by simpa using hne)]
    rfl
  · rw [List.mem_dedup, textAnswers, htext, hownText]
    rfl

/-- A worklog event meets one of its three variants. -/
theorem worklog_cases (h : meetsContract R .worklog value) :
    ((∀ p ∈ checkIn R, value.meets p) ∧ value.text? "task_uid" = none) ∨
      (∀ p ∈ worklogEntry R, value.meets p) ∨ ∀ p ∈ workSession R, value.meets p := by
  have hall := h
  unfold meetsContract at hall
  simp only [Bool.and_eq_true, beq_iff_eq, List.all_eq_true, List.contains_iff_mem] at hall
  obtain ⟨variant, hmet⟩ := List.length_eq_one_iff.mp hall.1.2
  have hmem : variant ∈ variantsMet R .worklog value := hmet ▸ List.mem_singleton_self _
  obtain ⟨hvariant, hmeets⟩ := List.mem_filter.mp hmem
  rw [List.all_eq_true] at hmeets
  simp only [variants, List.mem_cons, List.not_mem_nil, or_false] at hvariant
  rcases hvariant with rfl | rfl | rfl
  · left
    refine ⟨hmeets, ?_⟩
    have hkey : "task_uid" ∉ value.keys := by
      intro hkey
      have hname := hall.2 _ hkey
      rw [hmet] at hname
      simp [envelope, checkIn, required, optional] at hname
    have hnone : value.get "task_uid" = none := by
      rw [Mapping.mem_keys] at hkey
      simpa using hkey
    unfold Event.text? Event.find
    rw [hnone]
    rfl
  · exact Or.inr (Or.inl hmeets)
  · exact Or.inr (Or.inr hmeets)

theorem kind_of_meets (sort : String) {properties : List Property} (h : ∀ p ∈ properties, value.meets p)
    (hp : required "kind" (Value.isConst sort) ∈ properties) : value.find "kind" = .str sort := by
  obtain ⟨found, hget, hadmits⟩ := Event.admits_of_meets (h _ hp)
  obtain ⟨text, rfl, haccepts⟩ := exists_text_of_isText hadmits
  rw [Event.find_eq_of_get hget, beq_iff_eq.mp haccepts]

theorem text_of_meets (name : String) (accepts : String → Bool) {properties : List Property}
    (h : ∀ p ∈ properties, value.meets p) (hp : required name (Value.isText accepts) ∈ properties) :
    ∃ text, value.find name = .str text ∧ accepts text := by
  obtain ⟨found, hget, hadmits⟩ := Event.admits_of_meets (h _ hp)
  obtain ⟨text, rfl, haccepts⟩ := exists_text_of_isText hadmits
  exact ⟨text, Event.find_eq_of_get hget, haccepts⟩

theorem work_of_isWork {sort : String} (h : isWork sort entry) :
    entry.1 = .worklog ∧ entry.2.find "kind" = .str sort := by
  unfold isWork at h
  rw [Bool.and_eq_true, decide_eq_true_eq, same_text] at h
  exact h

theorem worklogEntry_of_isWork (h : isWork "entry" entry) (hcontract : meetsContract R entry.1 entry.2) :
    ∀ p ∈ worklogEntry R, entry.2.meets p := by
  obtain ⟨hkind, hsort⟩ := work_of_isWork h
  rw [hkind] at hcontract
  rcases worklog_cases hcontract with ⟨hmeets, _⟩ | hmeets | hmeets
  · rw [kind_of_meets "check-in" hmeets (by simp [checkIn])] at hsort
    simp at hsort
  · exact hmeets
  · rw [kind_of_meets "session" hmeets (by simp [workSession])] at hsort
    simp at hsort

theorem workSession_of_isWork (h : isWork "session" entry) (hcontract : meetsContract R entry.1 entry.2) :
    ∀ p ∈ workSession R, entry.2.meets p := by
  obtain ⟨hkind, hsort⟩ := work_of_isWork h
  rw [hkind] at hcontract
  rcases worklog_cases hcontract with ⟨hmeets, _⟩ | hmeets | hmeets
  · rw [kind_of_meets "check-in" hmeets (by simp [checkIn])] at hsort
    simp at hsort
  · rw [kind_of_meets "entry" hmeets (by simp [worklogEntry])] at hsort
    simp at hsort
  · exact hmeets

theorem date_ne_empty {text : String} (h : (R.isDate text && matchesLine (fits dateShape) text) = true) : text ≠ "" := by
  rintro rfl
  rw [Bool.and_eq_true] at h
  exact absurd h.2 (by decide)

theorem entryIdentity_eq (h : isWork "entry" entry) (hcontract : meetsContract R entry.1 entry.2) :
    ∃ own date, own ≠ "" ∧ date ≠ "" ∧ entryIdentity entry.2 = .ok [(own, date)] ∧
      entryAnswers entry.2 = [(own, date)] := by
  obtain ⟨own, hget, hshape⟩ := eventUid_of_meetsContract hcontract
  have hown : entry.2.find "event_uid" = .str own := Event.find_eq_of_get hget
  obtain ⟨date, hdate, haccepts⟩ := text_of_meets "work_date"
    (fun text ↦ R.isDate text && matchesLine (fits dateShape) text) (worklogEntry_of_isWork h hcontract)
    (by simp [worklogEntry, isDateValue])
  refine ⟨own, date, uuid_ne_empty hshape, date_ne_empty haccepts, ?_, ?_⟩
  · unfold entryIdentity
    rw [requireText_ok hown (uuid_ne_empty hshape)]
    change (requireText _ >>= _) = _
    rw [requireText_ok hdate (date_ne_empty haccepts)]
    rfl
  · unfold entryAnswers
    rw [Event.text?_eq_some_iff.mpr hown, Event.text?_eq_some_iff.mpr hdate]
    rfl

theorem sessionIdentity_eq (h : isWork "session" entry) (hcontract : meetsContract R entry.1 entry.2) :
    ∃ own date session, own ≠ "" ∧ date ≠ "" ∧ session ≠ "" ∧
      sessionIdentity entry.2 = .ok [(own, date, session)] ∧ sessionAnswers entry.2 = [(own, date, session)] := by
  have hmeets := workSession_of_isWork h hcontract
  obtain ⟨own, hget, hshape⟩ := eventUid_of_meetsContract hcontract
  have hown : entry.2.find "event_uid" = .str own := Event.find_eq_of_get hget
  obtain ⟨date, hdate, haccepts⟩ := text_of_meets "work_date"
    (fun text ↦ R.isDate text && matchesLine (fits dateShape) text) hmeets (by simp [workSession, isDateValue])
  obtain ⟨session, hsession, hnumbered⟩ := text_of_meets "session_id"
    (matchesLine (isNumberedText "WS-".toList 6)) hmeets (by simp [workSession, Value.isNumbered])
  have hsessionNe : session ≠ "" := isNumbered_ne_empty "WS-" (by decide) hnumbered
  refine ⟨own, date, session, uuid_ne_empty hshape, date_ne_empty haccepts, hsessionNe, ?_, ?_⟩
  · unfold sessionIdentity
    rw [requireText_ok hown (uuid_ne_empty hshape)]
    change (requireText _ >>= _) = _
    rw [requireText_ok hdate (date_ne_empty haccepts)]
    change (requireText _ >>= _) = _
    rw [requireText_ok hsession hsessionNe]
    rfl
  · unfold sessionAnswers
    rw [Event.text?_eq_some_iff.mpr hown, Event.text?_eq_some_iff.mpr hdate, Event.text?_eq_some_iff.mpr hsession]
    rfl

theorem activityIdentity_ok (h : ∀ entry ∈ entries, meetsContract R entry.1 entry.2) :
    ∀ entry ∈ entries, decide (entry.1 = .activity) → ∃ names, legacyIdentity "legacy_event_id" entry.2 = .ok names ∧
      ∀ identity, identity ∈ names ↔ identity ∈ textAnswers "legacy_event_id" entry.2 := by
  intro entry hentry hkind
  obtain ⟨own, hget, hshape⟩ := eventUid_of_meetsContract (h entry hentry)
  obtain ⟨legacy, hlegacy, hne⟩ := activity_of_meetsContract (of_decide_eq_true hkind ▸ h entry hentry)
  exact legacyIdentity_eq hlegacy hne (Event.find_eq_of_get hget) (uuid_ne_empty hshape)

theorem planningIdentity_ok (h : ∀ entry ∈ entries, meetsContract R entry.1 entry.2) :
    ∀ entry ∈ entries, decide (entry.1 = .planningStatus) →
      ∃ names, legacyIdentity "legacy_fact_id" entry.2 = .ok names ∧
        ∀ identity, identity ∈ names ↔ identity ∈ textAnswers "legacy_fact_id" entry.2 := by
  intro entry hentry hkind
  obtain ⟨own, hget, hshape⟩ := eventUid_of_meetsContract (h entry hentry)
  obtain ⟨found, hfound, hadmits⟩ := planning_field "legacy_fact_id" (Value.isNumbered "PS-" 6)
    (of_decide_eq_true hkind ▸ h entry hentry) (by simp [planningStatusEvent])
  obtain ⟨legacy, rfl, _⟩ := exists_text_of_isText hadmits
  exact legacyIdentity_eq (Event.find_eq_of_get hfound) (isNumbered_ne_empty _ (by decide) hadmits)
    (Event.find_eq_of_get hget) (uuid_ne_empty hshape)

/-- The events of a task are of one of the four sorts that a deletion can name. -/
theorem sorts_of_ofTask (h : meetsContract R entry.1 entry.2) (htask : ofTask uid entry.2) :
    entry.1 = .activity ∨ entry.1 = .planningStatus ∨ isWork "entry" entry ∨ isWork "session" entry := by
  cases hkind : entry.1 with
  | activity => exact Or.inl rfl
  | planningStatus => exact Or.inr (Or.inl rfl)
  | worklog =>
      rw [hkind] at h
      have hwork : ∀ {sort : String}, entry.2.find "kind" = .str sort → isWork sort entry := by
        intro sort hsort
        unfold isWork
        rw [hkind, hsort, Json.same_str]
        simp
      rcases worklog_cases h with ⟨_, hnone⟩ | hmeets | hmeets
      · unfold ofTask at htask
        rw [hnone] at htask
        cases htask
      · exact Or.inr (Or.inr (Or.inl (hwork (kind_of_meets _ hmeets (by simp [worklogEntry])))))
      · exact Or.inr (Or.inr (Or.inr (hwork (kind_of_meets _ hmeets (by simp [workSession])))))

theorem disjoint_placesWhere {p q : Entry → Bool} (h : ∀ entry ∈ entries, p entry → q entry = false) :
    ∀ k ∈ placesWhere q 0 entries, k ∉ placesWhere p 0 entries := by
  intro k hq hp
  obtain ⟨i, entry, hi, hentry, hqe⟩ := mem_placesWhere.mp hq
  obtain ⟨j, other, hj, hother, hpe⟩ := mem_placesWhere.mp hp
  have hij : i = j := by omega
  subst hij
  rw [hentry, Option.some.injEq] at hother
  subst hother
  rw [h entry (List.mem_of_getElem? hentry) hpe] at hqe
  cases hqe

theorem remainingEntries_eq {selected : List ℕ} {index : ℕ} {q : Entry → Bool}
    (h : ∀ i entry, entries[i]? = some entry → selected.contains (index + i) = q entry) :
    remainingEntries selected index entries = entries.filter fun entry ↦ !q entry := by
  induction entries generalizing index with
  | nil => rfl
  | cons first entries ih =>
      have hfirst : selected.contains index = q first := h 0 first rfl
      have hrest := @ih (index + 1) fun i entry hentry ↦ by
        rw [Nat.add_assoc, Nat.add_comm 1 i]
        exact h (i + 1) entry hentry
      rw [remainingEntries, hfirst, hrest]
      cases hq : q first <;> simp [hq]

theorem normalizedDeletion_eq (h : ∀ entry ∈ entries, meetsContract R entry.1 entry.2)
    (hnames : NamesTask deletion uid entries) : normalizedDeletion deletion = .ok () := by
  have hof : ∀ {κ : Type} [DecidableEq κ] {wanted : List κ} {answers : Event → List κ} {counts : Entry → Bool}
      (texts : κ → List String), Names wanted answers uid (entries.filter counts) →
      (∀ entry ∈ entries, counts entry → ∀ identity ∈ answers entry.2, ∀ text ∈ texts identity, text ≠ "") →
      requireUnique texts wanted = .ok () := by
    intro κ _ wanted answers counts texts hnamed hnonempty
    refine require_ok ?_
    rw [Bool.and_eq_true, decide_eq_true_eq, List.all_eq_true]
    refine ⟨fun identity hidentity ↦ List.all_eq_true.mpr fun text htext ↦ ?_, hnamed.nodup⟩
    obtain ⟨entry, hentry, _, hanswers, _⟩ := hnamed.one identity hidentity
    obtain ⟨hmem, hcounts⟩ := List.mem_filter.mp hentry
    simpa using hnonempty entry hmem hcounts identity hanswers text htext
  have hactivity : requireUnique (fun text ↦ [text]) deletion.activityIds = .ok () := by
    refine hof _ hnames.activity fun entry hentry hkind identity hidentity text htext ↦ ?_
    rw [List.mem_singleton.mp htext]
    obtain ⟨own, hget, hshape⟩ := eventUid_of_meetsContract (h entry hentry)
    obtain ⟨legacy, hlegacy, hne⟩ := activity_of_meetsContract (of_decide_eq_true hkind ▸ h entry hentry)
    rw [textAnswers, Event.text?_eq_some_iff.mpr hlegacy,
      Event.text?_eq_some_iff.mpr (Event.find_eq_of_get hget)] at hidentity
    rcases List.mem_append.mp hidentity with hmem | hmem
    · rw [List.mem_singleton.mp hmem]
      exact hne
    · rw [List.mem_singleton.mp hmem]
      exact uuid_ne_empty hshape
  have hplanning : requireUnique (fun text ↦ [text]) deletion.planningIds = .ok () := by
    refine hof _ hnames.planning fun entry hentry hkind identity hidentity text htext ↦ ?_
    rw [List.mem_singleton.mp htext]
    obtain ⟨own, hget, hshape⟩ := eventUid_of_meetsContract (h entry hentry)
    obtain ⟨found, hfound, hadmits⟩ := planning_field "legacy_fact_id" (Value.isNumbered "PS-" 6)
      (of_decide_eq_true hkind ▸ h entry hentry) (by simp [planningStatusEvent])
    obtain ⟨legacy, rfl, _⟩ := exists_text_of_isText hadmits
    rw [textAnswers, Event.text?_eq_some_iff.mpr (Event.find_eq_of_get hfound),
      Event.text?_eq_some_iff.mpr (Event.find_eq_of_get hget)] at hidentity
    rcases List.mem_append.mp hidentity with hmem | hmem
    · rw [List.mem_singleton.mp hmem]
      exact isNumbered_ne_empty _ (by decide) hadmits
    · rw [List.mem_singleton.mp hmem]
      exact uuid_ne_empty hshape
  have hwork : requireUnique (fun pair : String × String ↦ [pair.1, pair.2]) deletion.worklogEntries = .ok () := by
    refine hof _ hnames.work fun entry hentry hcounts identity hidentity text htext ↦ ?_
    obtain ⟨own, date, hown, hdate, _, hanswers⟩ := entryIdentity_eq hcounts (h entry hentry)
    rw [hanswers, List.mem_singleton] at hidentity
    subst hidentity
    simp only [List.mem_cons, List.not_mem_nil, or_false] at htext
    rcases htext with rfl | rfl
    · exact hown
    · exact hdate
  have hsessions : requireUnique (fun triple : String × String × String ↦ [triple.1, triple.2.1, triple.2.2])
      deletion.worklogSessions = .ok () := by
    refine hof _ hnames.sessions fun entry hentry hcounts identity hidentity text htext ↦ ?_
    obtain ⟨own, date, session, hown, hdate, hsession, _, hanswers⟩ := sessionIdentity_eq hcounts (h entry hentry)
    rw [hanswers, List.mem_singleton] at hidentity
    subst hidentity
    simp only [List.mem_cons, List.not_mem_nil, or_false] at htext
    rcases htext with rfl | rfl | rfl
    · exact hown
    · exact hdate
    · exact hsession
  unfold normalizedDeletion
  rw [hactivity]
  change (requireUnique _ deletion.planningIds >>= _) = _
  rw [hplanning]
  change (requireUnique _ deletion.worklogEntries >>= _) = _
  rw [hwork]
  exact hsessions

/-- What is left of the entries when the deletion names the events of a task. -/
theorem selected_eq (hcontract : ∀ entry ∈ entries, meetsContract R entry.1 entry.2) (hnodup : entries.Nodup)
    (hnames : NamesTask deletion uid entries) : ∃ selected, selectedIndexes entries deletion = .ok selected ∧
      remainingEntries selected 0 entries = entries.filter fun entry ↦ !ofTask uid entry.2 := by
  have hactivity := markAll_eq hnodup (activityIdentity_ok hcontract) hnames.activity
  have hplanning := markAll_eq hnodup (planningIdentity_ok hcontract) hnames.planning
  have hwork : markAll (isWork "entry") entryIdentity deletion.worklogEntries entries =
      .ok (placesWhere (fun entry ↦ isWork "entry" entry && ofTask uid entry.2) 0 entries) :=
    markAll_eq hnodup (fun entry hentry hcounts ↦ by
      obtain ⟨own, date, _, _, hok, hanswers⟩ := entryIdentity_eq hcounts (hcontract entry hentry)
      exact ⟨_, hok, fun identity ↦ by rw [hanswers]⟩) hnames.work
  have hsessions : markAll (isWork "session") sessionIdentity deletion.worklogSessions entries =
      .ok (placesWhere (fun entry ↦ isWork "session" entry && ofTask uid entry.2) 0 entries) :=
    markAll_eq hnodup (fun entry hentry hcounts ↦ by
      obtain ⟨own, date, session, _, _, _, hok, hanswers⟩ := sessionIdentity_eq hcounts (hcontract entry hentry)
      exact ⟨_, hok, fun identity ↦ by rw [hanswers]⟩) hnames.sessions
  have hdisjoint : ∀ {p q : Entry → Bool}, (∀ entry, p entry → q entry = false) →
      ∀ k ∈ placesWhere (fun entry ↦ q entry && ofTask uid entry.2) 0 entries,
        k ∉ placesWhere (fun entry ↦ p entry && ofTask uid entry.2) 0 entries := by
    intro p q hpq
    refine disjoint_placesWhere fun entry _ hp ↦ ?_
    rw [Bool.and_eq_true] at hp
    rw [hpq entry hp.1, Bool.false_and]
  have hkinds : ∀ {kind kind' : StreamKind}, kind ≠ kind' →
      ∀ entry : Entry, decide (entry.1 = kind) → decide (entry.1 = kind') = false := by
    intro kind kind' hne entry hkind
    rw [of_decide_eq_true hkind]
    exact decide_eq_false hne
  have hworkKind : ∀ (kind : StreamKind) {sort : String}, kind ≠ .worklog →
      ∀ entry : Entry, decide (entry.1 = kind) → isWork sort entry = false := by
    intro kind sort hne entry hkind
    unfold isWork
    rw [of_decide_eq_true hkind, decide_eq_false hne, Bool.false_and]
  have hsorts : ∀ entry : Entry, isWork "entry" entry → isWork "session" entry = false := by
    intro entry hentry
    unfold isWork
    rw [(work_of_isWork hentry).2, Json.same_str]
    simp
  refine ⟨placesWhere (fun entry ↦ decide (entry.1 = .activity) && ofTask uid entry.2) 0 entries ++
    placesWhere (fun entry ↦ decide (entry.1 = .planningStatus) && ofTask uid entry.2) 0 entries ++
    placesWhere (fun entry ↦ isWork "entry" entry && ofTask uid entry.2) 0 entries ++
    placesWhere (fun entry ↦ isWork "session" entry && ofTask uid entry.2) 0 entries, ?_, ?_⟩
  · unfold selectedIndexes markKind markWorklogEntries markWorklogSessions
    rw [hactivity]
    change (markAll _ (legacyIdentity "legacy_fact_id") deletion.planningIds entries >>= _) = _
    rw [hplanning]
    change (require (disjoint _ _) >>= _) = _
    rw [require_ok (by
      rw [disjoint, List.all_eq_true]
      exact fun k hk ↦ by simpa using hdisjoint (hkinds (by decide)) k hk)]
    change (markAll (isWork "entry") entryIdentity deletion.worklogEntries entries >>= _) = _
    rw [hwork]
    change (require (disjoint _ _) >>= _) = _
    rw [require_ok (by
      rw [disjoint, List.all_eq_true]
      intro k hk
      have h1 := hdisjoint (hworkKind .activity (by decide)) k hk
      have h2 := hdisjoint (hworkKind .planningStatus (by decide)) k hk
      simpa [List.mem_append] using ⟨h1, h2⟩)]
    change (markAll (isWork "session") sessionIdentity deletion.worklogSessions entries >>= _) = _
    rw [hsessions]
    change (require (disjoint _ _) >>= _) = _
    rw [require_ok (by
      rw [disjoint, List.all_eq_true]
      intro k hk
      have h1 := hdisjoint (hworkKind .activity (by decide)) k hk
      have h2 := hdisjoint (hworkKind .planningStatus (by decide)) k hk
      have h3 := hdisjoint hsorts k hk
      simpa [List.mem_append] using ⟨h1, h2, h3⟩)]
    rfl
  · refine remainingEntries_eq fun i entry hentry ↦ ?_
    have hmem : ∀ p : Entry → Bool, 0 + i ∈ placesWhere (fun entry ↦ p entry && ofTask uid entry.2) 0 entries ↔
        p entry ∧ ofTask uid entry.2 := by
      intro p
      rw [mem_placesWhere]
      constructor
      · rintro ⟨j, other, hj, hother, hp⟩
        have hij : j = i := by omega
        subst hij
        rw [hentry, Option.some.injEq] at hother
        subst hother
        exact (Bool.and_eq_true ..).mp hp
      · exact fun hp ↦ ⟨i, entry, rfl, hentry, (Bool.and_eq_true ..).mpr hp⟩
    rw [Bool.eq_iff_iff, List.contains_iff_mem, List.mem_append, List.mem_append, List.mem_append, hmem, hmem, hmem,
      hmem]
    constructor
    · rintro (((h | h) | h) | h) <;> exact h.2
    · intro htask
      rcases sorts_of_ofTask (hcontract entry (List.mem_of_getElem? hentry)) htask with h | h | h | h
      · exact Or.inl (Or.inl (Or.inl ⟨decide_eq_true h, htask⟩))
      · exact Or.inl (Or.inl (Or.inr ⟨decide_eq_true h, htask⟩))
      · exact Or.inl (Or.inr ⟨h, htask⟩)
      · exact Or.inr ⟨h, htask⟩

end Selection

end WorkStack.Streams
