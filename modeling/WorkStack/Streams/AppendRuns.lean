import WorkStack.Effect.Refusing
import WorkStack.Streams.Appends

/-!
# Runs of appends

The events that the staging accepts are a log: sealed one after the other, each under its own uid. It
stages a continuation of that log, and as files the old ones with the new events at their ends. So
streams that hold the staged segments are accepted again, and this carries over to any number of
appends, whatever the months of their events.
-/

open WorkStack.Python WorkStack.Effect

namespace WorkStack.Streams.Append

/-! ## Checks -/

section Checks

variable {R : StreamRules} {name : String} {event : Event} {kind : StreamKind}

theorem check_eq_ok {condition : Bool} {code : String} {u : Unit} : check condition code = .ok u ↔ condition = true := by
  unfold check refuse
  cases condition <;> simp

theorem kindNamed_eq_some : kindNamed name = some kind ↔ kind.text = name := by
  unfold kindNamed
  constructor
  · intro h
    have hname := List.find?_some h
    exact of_decide_eq_true hname
  · rintro rfl
    cases kind <;> decide

theorem validateEvent_eq_ok :
    validateEvent R name event = .ok kind ↔ kindNamed name = some kind ∧ meetsContract R kind event ∧ event.isCanonical := by
  unfold validateEvent
  cases hkind : kindNamed name with
  | none => simp [refuse]
  | some found =>
      simp only [Refusing.bind_eq_ok, check_eq_ok, Refusing.pure_eq_ok, Bool.and_eq_true, Option.some.injEq,
        exists_and_left, exists_const]
      constructor
      · rintro ⟨-, hcontract, rfl⟩
        exact ⟨rfl, hcontract⟩
      · rintro ⟨rfl, hcontract⟩
        refine ⟨?_, hcontract, rfl⟩
        rw [format_of_meetsContract hcontract.1, Json.same_str, beq_self_eq_true]

end Checks

/-! ## Logs -/

def uidOf (entry : Entry) : String := textOf entry.2 "event_uid"

/-- Events in their global order, as the staging accepts them. -/
structure Log (R : StreamRules) (entries : List Entry) : Prop where
  contract : ∀ entry ∈ entries, meetsContract R entry.1 entry.2 ∧ entry.2.isCanonical
  chained : (eventSealing R).Chained 1 none entries
  uids : (entries.map uidOf).Nodup

/-- The events of the streams, each with its kind. -/
def entriesIn (streams : StreamMap) : List Entry :=
  streams.items.flatMap fun item ↦ (kindNamed item.1).toList.flatMap fun kind ↦ item.2.map fun event ↦ (kind, event)

variable {previous : Option String}

section Existing

variable {R : StreamRules} {entries : List Entry}

theorem readKind_eq_ok {item : String × List Event} : readKind R item = .ok entries ↔
    (kindNamed item.1).isSome ∧
      entries = ((kindNamed item.1).toList.flatMap fun kind ↦ item.2.map fun event ↦ (kind, event)) ∧
      ∀ entry ∈ entries, meetsContract R entry.1 entry.2 ∧ entry.2.isCanonical := by
  unfold readKind
  cases hkind : kindNamed item.1 with
  | none => simp [refuse]
  | some kind =>
      rw [Refusing.mapM_eq_ok]
      have hentry : ∀ event entry, readEntry R item.1 event = .ok entry ↔
          entry = (kind, event) ∧ meetsContract R entry.1 entry.2 ∧ entry.2.isCanonical := by
        intro event entry
        unfold readEntry
        simp only [Refusing.bind_eq_ok, validateEvent_eq_ok, hkind, Refusing.pure_eq_ok, Option.some.injEq]
        constructor
        · rintro ⟨_, ⟨rfl, hcontract⟩, rfl⟩
          exact ⟨rfl, hcontract⟩
        · rintro ⟨rfl, hcontract⟩
          exact ⟨kind, ⟨rfl, hcontract⟩, rfl⟩
      simp only [hentry, Option.isSome_some, Option.toList_some, List.flatMap_cons, List.flatMap_nil, List.append_nil,
        true_and]
      constructor
      · intro h
        constructor
        · have hmap := h.imp fun event entry hboth ↦ hboth.1.symm
          rw [← List.forall₂_map_left_iff (f := fun event ↦ (kind, event)) (R := Eq), List.forall₂_eq_eq_eq] at hmap
          exact hmap.symm
        · intro entry hmem
          obtain ⟨event, _, hboth⟩ := exists_of_forall₂_right h hmem
          exact hboth.2
      · rintro ⟨rfl, hcontract⟩
        rw [List.forall₂_map_right_iff, List.forall₂_same]
        exact fun event hmem ↦ ⟨rfl, hcontract _ (List.mem_map_of_mem hmem)⟩

/-- The numbers of a log run from its place on. -/
theorem sequence_of_chained {n : ℕ} (h : (eventSealing R).Chained n previous entries) :
    entries.map (fun entry ↦ entry.2.exactInt? "sequence") =
      (List.range' n entries.length).map fun k : ℕ ↦ some (k : ℤ) := by
  induction entries generalizing n previous with
  | nil => rfl
  | cons entry entries ih =>
      rw [List.map_cons, List.length_cons, List.range'_succ, List.map_cons, ih h.2, h.1.1]

theorem sequenceRun_eq (n : ℕ) : (sequenceRun n).map some = (List.range' 1 n).map fun k : ℕ ↦ some (k : ℤ) := by
  rw [sequenceRun, List.map_map, List.range'_eq_map_range, List.map_map]
  apply List.map_congr_left
  intro k _
  simp [add_comm]

theorem positionOf_eq {entry : Entry} {n : ℤ} (h : entry.2.exactInt? "sequence" = some n) : positionOf entry = n := by
  unfold positionOf
  rw [Event.exactInt?_eq_some_iff.mp h]
  rfl

theorem le_positionOf {n : ℕ} (h : (eventSealing R).Chained n previous entries) :
    ∀ entry ∈ entries, (n : ℤ) ≤ positionOf entry := by
  induction entries generalizing n previous with
  | nil => simp
  | cons entry entries ih =>
      intro other hother
      rcases List.mem_cons.mp hother with rfl | hrest
      · rw [positionOf_eq h.1.1]
      · have hle := ih h.2 other hrest
        omega

/-- In a log the events stand in the order of their numbers. -/
theorem increasing_of_chained {n : ℕ} (h : (eventSealing R).Chained n previous entries) :
    entries.Pairwise fun a b ↦ positionOf a < positionOf b := by
  induction entries generalizing n previous with
  | nil => exact List.Pairwise.nil
  | cons entry entries ih =>
      apply List.Pairwise.cons
      · intro other hother
        have hle := le_positionOf h.2 other hother
        rw [positionOf_eq h.1.1]
        omega
      · exact ih h.2

/-- Every event of a log claims a digest. -/
theorem digest_of_chained {n : ℕ} (h : (eventSealing R).Chained n previous entries) :
    ∀ entry ∈ entries, (eventSealing R).digest entry = some (textOf entry.2 "event_digest") := by
  induction entries generalizing n previous with
  | nil => simp
  | cons entry entries ih =>
      intro other hother
      rcases List.mem_cons.mp hother with rfl | hrest
      · obtain ⟨digest, _, hclaimed⟩ := h.1.2.2
        change other.2.text? "event_digest" = _
        unfold textOf
        rw [Event.text?_eq_some_iff.mpr hclaimed]
        rfl
      · exact ih h.2 other hrest

theorem claimedDigest_eq_ok {event : Event} {claimed : String} :
    claimedDigest event = .ok claimed ↔ event.find "event_digest" = .str claimed ∧ isDigestText claimed := by
  unfold claimedDigest refuse
  cases htext : event.text? "event_digest" with
  | none =>
      constructor
      · intro h
        cases h
      · rintro ⟨hclaimed, -⟩
        rw [Event.text?_eq_some_iff.mpr hclaimed] at htext
        cases htext
  | some text =>
      rw [← Event.text?_eq_some_iff, htext, Option.some.injEq]
      by_cases hdigest : isDigestText text
      · simp only [if_pos hdigest, Except.ok.injEq]
        constructor
        · rintro rfl
          exact ⟨rfl, hdigest⟩
        · exact And.left
      · simp only [if_neg hdigest, reduceCtorEq, false_iff, not_and]
        rintro rfl
        exact hdigest

theorem checkLink_eq_ok {seen : List String} {event : Event} {claimed : String} :
    checkLink R seen previous event = .ok claimed ↔ textOf event "event_uid" ∉ seen ∧
      event.find "event_digest" = .str claimed ∧ event.find "previous_event_digest" = textOrNull previous ∧
      payloadDigest R event = some claimed := by
  unfold checkLink
  simp only [Refusing.bind_eq_ok, check_eq_ok, claimedDigest_eq_ok, Refusing.pure_eq_ok, exists_and_left, exists_const,
    same_textOrNull, beq_iff_eq, Bool.not_eq_true', List.contains_eq_mem, decide_eq_false_iff_not]
  constructor
  · rintro ⟨hseen, found, ⟨hclaimed, -⟩, hprevious, hpayload, rfl⟩
    exact ⟨hseen, hclaimed, hprevious, hpayload⟩
  · rintro ⟨hseen, hclaimed, hprevious, hpayload⟩
    refine ⟨hseen, claimed, ⟨hclaimed, ?_⟩, hprevious, hpayload, rfl⟩
    obtain ⟨body, _, rfl⟩ := Option.map_eq_some_iff.mp hpayload
    exact isDigestText_text _

/-- The loop accepts a log, numbered as it is, and nothing else. -/
theorem checkLinks_eq_ok {n : ℕ} {seen : List String}
    (hsequence : entries.map (fun entry ↦ entry.2.exactInt? "sequence") =
      (List.range' n entries.length).map fun k : ℕ ↦ some (k : ℤ)) :
    checkLinks R seen previous entries = .ok () ↔ (eventSealing R).Chained n previous entries ∧
      (entries.map uidOf).Nodup ∧ ∀ uid ∈ entries.map uidOf, uid ∉ seen := by
  induction entries generalizing n seen previous with
  | nil => simp [checkLinks, Sealing.Chained]
  | cons entry entries ih =>
      rw [List.map_cons, List.length_cons, List.range'_succ, List.map_cons, List.cons.injEq] at hsequence
      rw [checkLinks, Refusing.bind_eq_ok, List.map_cons, List.nodup_cons, List.forall_mem_cons]
      simp only [checkLink_eq_ok, ih hsequence.2, Sealing.Chained, List.mem_cons, not_or]
      constructor
      · rintro ⟨claimed, ⟨hseen, hclaimed, hprevious, hpayload⟩, hchained, hnodup, hfresh⟩
        have hdigest : (eventSealing R).digest entry = some claimed := Event.text?_eq_some_iff.mpr hclaimed
        refine ⟨⟨⟨hsequence.1, hprevious, claimed, hpayload, hclaimed⟩, hdigest ▸ hchained⟩, ⟨?_, hnodup⟩, hseen, ?_⟩
        · exact fun hmem ↦ (hfresh _ hmem).1 rfl
        · exact fun uid huid ↦ (hfresh uid huid).2
      · rintro ⟨⟨⟨_, hprevious, claimed, hpayload, hclaimed⟩, hchained⟩, ⟨hnotMem, hnodup⟩, hseen, hfresh⟩
        have hdigest : (eventSealing R).digest entry = some claimed := Event.text?_eq_some_iff.mpr hclaimed
        refine ⟨claimed, ⟨hseen, hclaimed, hprevious, hpayload⟩, hdigest ▸ hchained, hnodup, fun uid huid ↦ ⟨?_, ?_⟩⟩
        · rintro rfl
          exact hnotMem huid
        · exact hfresh uid huid

theorem mapM_readKind {items : List (String × List Event)} {kinds : List (List Entry)} :
    items.mapM (readKind R) = .ok kinds ↔ (∀ item ∈ items, (kindNamed item.1).isSome) ∧
      kinds = (items.map fun item ↦
        (kindNamed item.1).toList.flatMap fun kind ↦ item.2.map fun event ↦ (kind, event)) ∧
      ∀ entry ∈ kinds.flatten, meetsContract R entry.1 entry.2 ∧ entry.2.isCanonical := by
  rw [Refusing.mapM_eq_ok]
  simp only [readKind_eq_ok]
  rw [List.forall₂_and_left]
  refine and_congr_right fun _ ↦ ?_
  constructor
  · intro h
    constructor
    · have hmap := h.imp fun item events hboth ↦ hboth.1.symm
      rw [← List.forall₂_map_left_iff (R := Eq), List.forall₂_eq_eq_eq] at hmap
      exact hmap.symm
    · intro entry hentry
      obtain ⟨events, hevents, hmem⟩ := List.mem_flatten.mp hentry
      obtain ⟨item, _, hboth⟩ := exists_of_forall₂_right h hevents
      exact hboth.2 entry hmem
  · rintro ⟨rfl, hcontract⟩
    rw [List.forall₂_map_right_iff, List.forall₂_same]
    intro item hitem
    constructor
    · rfl
    · intro entry hentry
      exact hcontract entry (List.mem_flatten.mpr ⟨_, List.mem_map_of_mem hitem, hentry⟩)

/-- The staging accepts streams whose events are a log in some order, and finds the log. -/
theorem orderedExisting_eq_ok {streams : StreamMap} : orderedExisting R streams = .ok entries ↔
    (∀ item ∈ streams.items, (kindNamed item.1).isSome) ∧ (entriesIn streams).Perm entries ∧ Log R entries := by
  have hentries : (streams.items.map fun item ↦
      (kindNamed item.1).toList.flatMap fun kind ↦ item.2.map fun event ↦ (kind, event)).flatten = entriesIn streams :=
    (List.flatMap_def ..).symm
  unfold orderedExisting
  simp only [Refusing.bind_eq_ok, mapM_readKind, check_eq_ok, beq_iff_eq, Refusing.pure_eq_ok, sequenceRun_eq]
  constructor
  · rintro ⟨_, ⟨hknown, rfl, hcontract⟩, _, hsequence, _, hlinks, rfl⟩
    rw [hentries] at hcontract hsequence hlinks ⊢
    have hperm : (entriesIn streams).Perm (sortBySequence (entriesIn streams)) := (List.perm_insertionSort ..).symm
    obtain ⟨hchained, huids, -⟩ := (checkLinks_eq_ok hsequence).mp hlinks
    exact ⟨hknown, hperm, fun entry hentry ↦ hcontract entry (hperm.mem_iff.mpr hentry), hchained, huids⟩
  · rintro ⟨hknown, hperm, hlog⟩
    have hsort : sortBySequence (entriesIn streams) = entries :=
      insertionSort_eq_of_perm positionOf hperm (increasing_of_chained hlog.chained)
    have hsequence := sequence_of_chained hlog.chained
    refine ⟨_, ⟨hknown, rfl, ?_⟩, (), ?_, (), ?_, ?_⟩
    · rw [hentries]
      exact fun entry hentry ↦ hlog.contract entry (hperm.mem_iff.mp hentry)
    · rw [hentries, hsort]
      exact hsequence
    · rw [hentries, hsort]
      exact (checkLinks_eq_ok hsequence).mpr ⟨hlog.chained, hlog.uids, fun uid _ ↦ List.not_mem_nil⟩
    · rw [hentries, hsort]

end Existing

/-! ## What is added -/

/-- An entry says what an addition says, besides its seal. -/
structure Adds (addition : String × Event) (entry : Entry) : Prop where
  kind : entry.1.text = addition.1
  unsealed : ∀ key ∈ sealKeys, addition.2.get key = none
  same : ∀ key ∉ sealKeys, entry.2.get key = addition.2.get key

variable {additions : List (String × Event)}

section Additions

variable {R : StreamRules} {instant : String → Option ℤ}

theorem get_numberEvent (n : ℕ) (previous : Option String) {source : Event}
    (h : ∀ key ∈ sealKeys, source.get key = none) (key : String) :
    (numberEvent n previous source).get key =
      if key = "sequence" then some (.int n)
      else if key = "previous_event_digest" then previous.map .str
      else source.get key := by
  have hprevious := h "previous_event_digest" (by decide)
  unfold numberEvent
  cases previous with
  | none =>
      dsimp only
      rw [Mapping.get_set]
      by_cases hkey : key = "sequence"
      · simp [hkey]
      · rw [if_neg (Ne.symm hkey), if_neg hkey]
        by_cases hother : key = "previous_event_digest"
        · rw [if_pos hother, hother, hprevious]
          rfl
        · rw [if_neg hother]
  | some digest =>
      dsimp only
      rw [Mapping.get_set, Mapping.get_set]
      by_cases hkey : key = "sequence"
      · simp [hkey]
      · rw [if_neg hkey, if_neg (Ne.symm hkey)]
        by_cases hother : key = "previous_event_digest"
        · simp [hother]
        · rw [if_neg hother, if_neg (Ne.symm hother)]

theorem textOf_congr {event event' : Event} {key : String} (h : event.get key = event'.get key) :
    textOf event key = textOf event' key := by
  unfold textOf
  rw [Event.text?_congr h]

/-- A numbered event claims the digest of what it says. -/
theorem sealed_digestEvent {kind : StreamKind} {n : ℕ} {source : Event} (h : ∀ key ∈ sealKeys, source.get key = none)
    (hcanonical : Event.isCanonical (numberEvent n previous source)) :
    (eventSealing R).Sealed n previous (kind, digestEvent R (numberEvent n previous source)) := by
  have hsource := h "event_digest" (by decide)
  have herase : ∀ key, Mapping.get (Mapping.erase "event_digest" (digestEvent R (numberEvent n previous source))) key =
      (numberEvent n previous source).get key := by
    intro key
    rw [Mapping.get_erase, digestEvent, Mapping.get_set]
    by_cases hkey : "event_digest" = key
    · rw [if_pos hkey, get_numberEvent n previous h, ← hkey, hsource]
      rfl
    · rw [if_neg hkey, if_neg hkey]
  have hget : ∀ key, key ≠ "event_digest" → (digestEvent R (numberEvent n previous source)).get key =
      (numberEvent n previous source).get key := fun key hkey ↦ Mapping.get_set_of_ne _ (Ne.symm hkey) _
  refine ⟨Event.exactInt?_eq_some_iff.mpr (Event.find_eq_of_get ?_), ?_,
    (R.sha256 (Event.bytes (numberEvent n previous source))).text, ?_, Event.find_eq_of_get (Mapping.get_set_self ..)⟩
  · rw [hget _ (by decide), get_numberEvent n previous h, if_pos rfl]
  · change ((digestEvent R (numberEvent n previous source)).get "previous_event_digest").getD .null = _
    rw [hget _ (by decide), get_numberEvent n previous h, if_neg (by decide), if_pos rfl]
    cases previous <;> rfl
  · unfold payloadDigest canonicalJsonBytes
    rw [Event.isCanonical_eq herase, if_pos hcanonical, Option.map_some, Event.bytes_eq herase]

/-- What one turn of the loop prepares. -/
theorem prepareEvent_spec {tail : Tail} {addition : String × Event} {prepared : Entry × ℤ}
    (h : prepareEvent R instant tail addition = .ok prepared) : Adds addition prepared.1 ∧
      (meetsContract R prepared.1.1 prepared.1.2 ∧ prepared.1.2.isCanonical) ∧
      (eventSealing R).Sealed tail.nextSequence tail.previousDigest prepared.1 ∧
      uidOf prepared.1 ∉ tail.seenUids := by
  unfold prepareEvent at h
  simp only [Refusing.bind_eq_ok, check_eq_ok, validateEvent_eq_ok, Refusing.pure_eq_ok, Bool.not_eq_true',
    List.contains_eq_mem, decide_eq_false_iff_not, List.any_eq_false] at h
  obtain ⟨_, hfields, numberedKind, ⟨_, _, hcanonical⟩, _, hseen, time, _, _, _, kind, ⟨hkind, hcontract⟩, rfl⟩ := h
  have hunsealed : ∀ key ∈ sealKeys, addition.2.get key = none := by
    intro key hkey
    have hhas := hfields key hkey
    simpa [Mapping.has] using hhas
  refine ⟨⟨kindNamed_eq_some.mp hkind, hunsealed, fun key hkey ↦ ?_⟩, hcontract, sealed_digestEvent hunsealed hcanonical, ?_⟩
  · simp only [sealKeys, List.mem_cons, List.not_mem_nil, or_false, not_or] at hkey
    change (digestEvent R _).get key = _
    rw [digestEvent, Mapping.get_set_of_ne _ (Ne.symm hkey.2.2), get_numberEvent _ _ hunsealed, if_neg hkey.1,
      if_neg hkey.2.1]
  · have huid : uidOf (kind, digestEvent R (numberEvent tail.nextSequence tail.previousDigest addition.2)) =
        textOf (numberEvent tail.nextSequence tail.previousDigest addition.2) "event_uid" :=
      textOf_congr (Mapping.get_set_of_ne _ (by decide) _)
    rw [huid]
    exact hseen

/-- What the loop prepares continues the log that its tail belongs to. -/
theorem prepareAdditions_spec {tail : Tail} {staged : List Entry}
    (h : prepareAdditions R instant tail additions = .ok staged) : List.Forall₂ Adds additions staged ∧
      (∀ entry ∈ staged, meetsContract R entry.1 entry.2 ∧ entry.2.isCanonical) ∧
      (eventSealing R).Chained tail.nextSequence tail.previousDigest staged ∧
      (staged.map uidOf).Nodup ∧ ∀ uid ∈ staged.map uidOf, uid ∉ tail.seenUids := by
  induction additions generalizing tail staged with
  | nil =>
      cases h
      exact ⟨List.Forall₂.nil, by simp, trivial, List.nodup_nil, by simp⟩
  | cons addition additions ih =>
      rw [prepareAdditions, Refusing.bind_eq_ok] at h
      obtain ⟨prepared, hprepared, hloop⟩ := h
      obtain ⟨rest, hrest, hstaged⟩ := Refusing.bind_eq_ok.mp hloop
      rw [Refusing.pure_eq_ok] at hstaged
      subst hstaged
      obtain ⟨hadds, hcontract, hsealed, hfresh⟩ := prepareEvent_spec hprepared
      obtain ⟨hall, hcontracts, hchained, hnodup, hseen⟩ := ih hrest
      have hsingle : (eventSealing R).Chained tail.nextSequence tail.previousDigest [prepared.1] := ⟨hsealed, trivial⟩
      have hdigest := digest_of_chained hsingle prepared.1 (List.mem_cons_self ..)
      refine ⟨hall.cons hadds, ?_, ⟨hsealed, ?_⟩, ?_, ?_⟩
      · rw [List.forall_mem_cons]
        exact ⟨hcontract, hcontracts⟩
      · rw [hdigest]
        exact hchained
      · rw [List.map_cons, List.nodup_cons]
        refine ⟨fun hmem ↦ ?_, hnodup⟩
        exact hseen _ hmem (List.mem_cons_self ..)
      · rw [List.map_cons, List.forall_mem_cons]
        exact ⟨hfresh, fun uid huid ↦ fun hmem ↦ hseen uid huid (List.mem_cons_of_mem _ hmem)⟩

/-- After a log there come its number, its last digest and its uids. -/
theorem tailOf_spec {existing : List Entry} {tail : Tail} (hlog : Log R existing)
    (h : tailOf instant existing = .ok tail) : tail.nextSequence = 1 + existing.length ∧
      tail.previousDigest = (eventSealing R).handedOn none existing ∧ tail.seenUids = existing.map uidOf := by
  unfold tailOf at h
  obtain ⟨times, _, htail⟩ := Refusing.bind_eq_ok.mp h
  rw [Refusing.pure_eq_ok] at htail
  subst htail
  refine ⟨Nat.add_comm .., ?_, rfl⟩
  cases hlast : existing.getLast? with
  | none =>
      rw [List.getLast?_eq_none_iff.mp hlast]
      rfl
  | some entry =>
      have hne : existing ≠ [] := by
        rintro rfl
        cases hlast
      have hdigest := digest_of_chained hlog.chained entry (List.mem_of_getLast? hlast)
      rw [Sealing.handedOn_of_ne_nil _ none hne, hlast, Option.bind_some, hdigest]
      rfl

/-- What is staged makes a longer log. -/
theorem Log.append {existing staged : List Entry} {tail : Tail} (hlog : Log R existing)
    (htail : tailOf instant existing = .ok tail) (h : prepareAdditions R instant tail additions = .ok staged) :
    Log R (existing ++ staged) ∧ List.Forall₂ Adds additions staged := by
  obtain ⟨hnext, hprevious, hseen⟩ := tailOf_spec hlog htail
  obtain ⟨hadds, hcontract, hchained, huids, hfresh⟩ := prepareAdditions_spec h
  rw [hnext, hprevious] at hchained
  rw [hseen] at hfresh
  refine ⟨⟨?_, ?_, ?_⟩, hadds⟩
  · intro entry hentry
    rcases List.mem_append.mp hentry with hbefore | hnew
    · exact hlog.contract entry hbefore
    · exact hcontract entry hnew
  · rw [Sealing.chained_append]
    exact ⟨hlog.chained, hchained⟩
  · rw [List.map_append, List.nodup_append]
    refine ⟨hlog.uids, huids, fun uid hbefore other hnew heq ↦ ?_⟩
    exact hfresh other hnew (heq ▸ hbefore)

end Additions

/-! ## Files -/

/-- The file of a segment: the lines of its events, if it has any. -/
def segmentFile (entries : List Entry) (artifact : String) : Option Bytes :=
  if (segmentEvents entries artifact).isEmpty then none else some (segmentBody (segmentEvents entries artifact))

/-- What the staged writes make of the files. -/
def replaceFiles (writes : List StagedStreamWrite) (disk : String → Option Bytes) (artifact : String) : Option Bytes :=
  match writes.find? fun write ↦ write.artifact = artifact with
  | some write => some write.body
  | none => disk artifact

variable {writes : List StagedStreamWrite}

section Files

variable {R : StreamRules} {existing staged : List Entry}

theorem bodyOf_eq {events : List Event} (h : events ≠ []) : bodyOf events = segmentBody events := by
  unfold bodyOf segmentBody
  induction events with
  | nil => contradiction
  | cons event events ih =>
      cases events with
      | nil => simp
      | cons other others =>
          have hrest := ih (by simp)
          rw [List.flatMap_cons, ← hrest, List.map_cons, List.map_cons, List.intercalate_cons_cons]
          simp

theorem segmentEvents_append (artifact : String) :
    segmentEvents (existing ++ staged) artifact = segmentEvents existing artifact ++ segmentEvents staged artifact := by
  unfold segmentEvents
  rw [List.filter_append, List.map_append]

theorem segmentBody_append (events others : List Event) : segmentBody (events ++ others) = segmentBody events ++ segmentBody others :=
  List.flatMap_append ..

theorem groupByArtifact_spec (grouped : Dict String (List Event)) (entries : List Entry) :
    (∀ artifact, ((entries.foldl (fun grouped entry ↦ addToSegment grouped (pathOf entry) entry.2) grouped).get
        artifact).getD [] = (grouped.get artifact).getD [] ++ segmentEvents entries artifact) ∧
      ∀ artifact, artifact ∈ Dict.keys (entries.foldl (fun grouped entry ↦ addToSegment grouped (pathOf entry) entry.2)
        grouped) ↔ artifact ∈ Dict.keys grouped ∨ segmentEvents entries artifact ≠ [] := by
  induction entries generalizing grouped with
  | nil => simp [segmentEvents]
  | cons entry entries ih =>
      obtain ⟨hget, hkeys⟩ := ih (addToSegment grouped (pathOf entry) entry.2)
      constructor
      · intro artifact
        rw [List.foldl_cons, hget, addToSegment, Dict.get_set]
        by_cases hpath : pathOf entry = artifact
        · simp [hpath, segmentEvents]
        · simp [hpath, segmentEvents]
      · intro artifact
        rw [List.foldl_cons, hkeys, Dict.mem_keys, Dict.mem_keys, addToSegment, Dict.get_set]
        by_cases hpath : pathOf entry = artifact
        · simp [hpath, segmentEvents]
        · simp [hpath, segmentEvents]

theorem get_groupByArtifact (entries : List Entry) (artifact : String) :
    ((groupByArtifact entries).get artifact).getD [] = segmentEvents entries artifact := by
  have hget := (groupByArtifact_spec [] entries).1 artifact
  exact hget

theorem mem_keys_groupByArtifact (entries : List Entry) (artifact : String) :
    artifact ∈ Dict.keys (groupByArtifact entries) ↔ segmentEvents entries artifact ≠ [] := by
  have hkeys := (groupByArtifact_spec [] entries).2 artifact
  simpa [groupByArtifact, Dict.keys] using hkeys

theorem expectedSegmentDigest_eq {artifact : String} {prior : List Event} {supplied expected : Option String}
    (h : expectedSegmentDigest R artifact prior supplied = .ok expected) :
    expected = if prior.isEmpty then none else some (R.sha256 (bodyOf prior)).text := by
  unfold expectedSegmentDigest at h
  split at h
  · rename_i hprior
    rw [if_pos hprior]
    split at h
    · cases h
    · cases h
      rfl
  · rename_i hprior
    rw [if_neg hprior]
    split at h
    · cases h
    · split at h
      · cases h
      · split at h
        · cases h
        · rename_i hsame
          cases h
          rw [not_not.mp hsame]

theorem stagedSegmentWrite_spec {artifact : String} {prior appended : List Event} {supplied : Option String}
    {write : StagedStreamWrite} (h : stagedSegmentWrite R artifact prior appended supplied = .ok write) :
    write.artifact = artifact ∧ write.body = bodyOf (prior ++ appended) ∧ write.appendedEvents = appended ∧
      write.expectedDigest = if prior.isEmpty then none else some (R.sha256 (bodyOf prior)).text := by
  unfold stagedSegmentWrite at h
  obtain ⟨expected, hexpected, hwrite⟩ := Refusing.bind_eq_ok.mp h
  rw [Refusing.pure_eq_ok] at hwrite
  subst hwrite
  exact ⟨rfl, rfl, rfl, expectedSegmentDigest_eq hexpected⟩

/-- What a write stages: the file of its segment with its new events. -/
structure StagesFile (R : StreamRules) (existing staged : List Entry) (write : StagedStreamWrite) : Prop where
  appended : write.appendedEvents = segmentEvents staged write.artifact
  body : segmentFile (existing ++ staged) write.artifact = some write.body
  expected : write.expectedDigest = (segmentFile existing write.artifact).map fun body ↦ (R.sha256 body).text
  old : ∀ body ∈ segmentFile existing write.artifact, body <+: write.body

theorem stagesFile_of_segment {artifact : String} {supplied : Option String} {write : StagedStreamWrite}
    (hne : segmentEvents staged artifact ≠ [])
    (h : stagedSegmentWrite R artifact (segmentEvents existing artifact) (segmentEvents staged artifact) supplied =
      .ok write) : StagesFile R existing staged write ∧ write.artifact = artifact := by
  obtain ⟨rfl, hbody, happended, hexpected⟩ := stagedSegmentWrite_spec h
  have hafter : segmentEvents existing write.artifact ++ segmentEvents staged write.artifact ≠ [] := by simp [hne]
  rw [bodyOf_eq hafter, segmentBody_append] at hbody
  refine ⟨⟨happended, ?_, ?_, ?_⟩, rfl⟩
  · unfold segmentFile
    rw [segmentEvents_append, if_neg (by simpa using hafter), segmentBody_append, hbody]
  · rw [hexpected]
    unfold segmentFile
    split
    · rfl
    · rename_i hprior
      rw [bodyOf_eq (by simpa using hprior)]
      rfl
  · intro body hold
    unfold segmentFile at hold
    split at hold
    · cases hold
    · rw [Option.mem_some_iff] at hold
      rw [hbody, ← hold]
      exact List.prefix_append ..

theorem stagedWrites_spec {digests : Mapping String String} (h : stagedWrites R existing staged digests = .ok writes) :
    (∀ write ∈ writes, StagesFile R existing staged write) ∧
      ∀ artifact, (∃ write ∈ writes, write.artifact = artifact) ↔ segmentEvents staged artifact ≠ [] := by
  unfold stagedWrites at h
  rw [Refusing.mapM_eq_ok] at h
  simp only [get_groupByArtifact] at h
  have hkeys : ∀ artifact, artifact ∈ sortedSet (Dict.keys (groupByArtifact staged)) ↔ segmentEvents staged artifact ≠ [] := by
    intro artifact
    rw [mem_sortedSet, mem_keys_groupByArtifact]
  have hwrites : ∀ write ∈ writes, StagesFile R existing staged write ∧
      write.artifact ∈ sortedSet (Dict.keys (groupByArtifact staged)) := by
    intro write hwrite
    obtain ⟨artifact, hmem, hsegment⟩ := exists_of_forall₂_right h hwrite
    obtain ⟨hstages, rfl⟩ := stagesFile_of_segment ((hkeys artifact).mp hmem) hsegment
    exact ⟨hstages, hmem⟩
  refine ⟨fun write hwrite ↦ (hwrites write hwrite).1, fun artifact ↦ ?_⟩
  rw [← hkeys]
  constructor
  · rintro ⟨write, hwrite, rfl⟩
    exact (hwrites write hwrite).2
  · intro hmem
    obtain ⟨write, hwrite, hsegment⟩ := exists_of_forall₂_right h.flip hmem
    exact ⟨write, hwrite, (stagesFile_of_segment ((hkeys artifact).mp hmem) hsegment).2⟩

/-- The staged writes lead from the files of the log to those of the longer log. -/
theorem replaceFiles_eq (hstages : ∀ write ∈ writes, StagesFile R existing staged write)
    (hartifacts : ∀ artifact, (∃ write ∈ writes, write.artifact = artifact) ↔ segmentEvents staged artifact ≠ []) :
    replaceFiles writes (segmentFile existing) = segmentFile (existing ++ staged) := by
  funext artifact
  unfold replaceFiles
  split
  · rename_i write hfind
    have hpath := List.find?_some hfind
    rw [← of_decide_eq_true hpath]
    exact (hstages write (List.mem_of_find?_eq_some hfind)).body.symm
  · rename_i hfind
    rw [List.find?_eq_none] at hfind
    have hnone : segmentEvents staged artifact = [] := by
      by_contra hne
      obtain ⟨write, hwrite, hpath⟩ := (hartifacts artifact).mpr hne
      exact hfind write hwrite (decide_eq_true hpath)
    unfold segmentFile
    rw [segmentEvents_append, hnone, List.append_nil]

/-- Entries are told apart by their segments and their events. -/
theorem perm_of_segmentEvents {entries others : List Entry}
    (h : ∀ artifact, (segmentEvents entries artifact).Perm (segmentEvents others artifact)) : entries.Perm others := by
  have hfilter : ∀ artifact, (entries.filter fun entry ↦ pathOf entry = artifact).Perm
      (others.filter fun entry ↦ pathOf entry = artifact) := by
    intro artifact
    obtain ⟨kind, hkind⟩ : ∃ kind, ∀ entry : Entry, pathOf entry = artifact → entry.1 = kind := by
      by_cases hpath : ∃ kind month, segmentPath kind month = artifact
      · obtain ⟨kind, month, rfl⟩ := hpath
        exact ⟨kind, fun entry hentry ↦ congrArg Prod.fst (segmentPath_injective hentry)⟩
      · exact ⟨.activity, fun entry hentry ↦ absurd ⟨_, _, hentry⟩ hpath⟩
    have hmap : ∀ list : List Entry, (segmentEvents list artifact).map (fun event ↦ (kind, event)) =
        list.filter fun entry ↦ pathOf entry = artifact := by
      intro list
      unfold segmentEvents
      rw [List.map_map]
      refine (List.map_congr_left fun entry hentry ↦ ?_).trans (List.map_id _)
      have hown := hkind entry (by simpa using (List.mem_filter.mp hentry).2)
      exact Prod.ext hown.symm rfl
    rw [← hmap, ← hmap]
    exact (h artifact).map _
  have hkeys : ∀ entry ∈ entries ++ others, pathOf entry ∈ ((entries ++ others).map pathOf).dedup := by
    intro entry hentry
    rw [List.mem_dedup]
    exact List.mem_map_of_mem hentry
  have hleft := flatMap_filter_perm pathOf (List.nodup_dedup _) entries
    fun entry hentry ↦ hkeys entry (List.mem_append_left _ hentry)
  have hright := flatMap_filter_perm pathOf (List.nodup_dedup _) others
    fun entry hentry ↦ hkeys entry (List.mem_append_right _ hentry)
  exact hleft.symm.trans ((List.Perm.flatMap_left _ fun artifact _ ↦ hfilter artifact).trans hright)

end Files

/-! ## Runs -/

/-- Streams that are read once the staged segments are in place: each of these holds its old events and
the ones appended to it, every other segment holds what it held, in whatever order they are read. -/
structure Replaces (streams : StreamMap) (writes : List StagedStreamWrite) (after : StreamMap) : Prop where
  known : ∀ item ∈ after.items, (kindNamed item.1).isSome
  replaced : ∀ write ∈ writes, (segmentEvents (entriesIn after) write.artifact).Perm
    (segmentEvents (entriesIn streams) write.artifact ++ write.appendedEvents)
  kept : ∀ artifact, (∀ write ∈ writes, write.artifact ≠ artifact) →
    (segmentEvents (entriesIn after) artifact).Perm (segmentEvents (entriesIn streams) artifact)

/-- One append of a run. -/
structure AppendStep where
  before : StreamMap
  additions : List (String × Event)
  digests : Mapping String String
  writes : List StagedStreamWrite
  after : StreamMap

/-- Appends that are accepted, one after the other. -/
inductive AppendRun (R : StreamRules) (instant : String → Option ℤ) : StreamMap → List AppendStep → StreamMap → Prop
  | nil (streams : StreamMap) : AppendRun R instant streams [] streams
  | cons {step : AppendStep} {steps : List AppendStep} {streams : StreamMap}
      (hstage : stageStreamAppends R instant step.before step.additions step.digests = .ok step.writes)
      (hreplaces : Replaces step.before step.writes step.after)
      (hrest : AppendRun R instant step.after steps streams) : AppendRun R instant step.before (step :: steps) streams

/-- What an append keeps and what it adds. -/
structure Preserves (R : StreamRules) (step : AppendStep) (existing added : List Entry) : Prop where
  before : orderedExisting R step.before = .ok existing
  after : orderedExisting R step.after = .ok (existing ++ added)
  adds : List.Forall₂ Adds step.additions added
  files : replaceFiles step.writes (segmentFile existing) = segmentFile (existing ++ added)
  old : ∀ write ∈ step.writes, ∀ body ∈ segmentFile existing write.artifact, body <+: write.body
  expected : ∀ write ∈ step.writes,
    write.expectedDigest = (segmentFile existing write.artifact).map fun body ↦ (R.sha256 body).text

section Runs

variable {R : StreamRules} {instant : String → Option ℤ}

theorem segmentEvents_perm {entries others : List Entry} (h : entries.Perm others) (artifact : String) :
    (segmentEvents entries artifact).Perm (segmentEvents others artifact) := (h.filter _).map _

/-- Streams in which the staged segments are replaced hold the longer log. -/
theorem Replaces.perm {streams after : StreamMap} {existing staged : List Entry} (h : Replaces streams writes after)
    (hperm : (entriesIn streams).Perm existing)
    (hstages : ∀ write ∈ writes, write.appendedEvents = segmentEvents staged write.artifact)
    (hartifacts : ∀ artifact, (∃ write ∈ writes, write.artifact = artifact) ↔ segmentEvents staged artifact ≠ []) :
    (entriesIn after).Perm (existing ++ staged) := by
  apply perm_of_segmentEvents
  intro artifact
  rw [segmentEvents_append]
  have hold := segmentEvents_perm hperm artifact
  by_cases hwrite : ∃ write ∈ writes, write.artifact = artifact
  · obtain ⟨write, hmem, rfl⟩ := hwrite
    have hreplaced := h.replaced write hmem
    rw [hstages write hmem] at hreplaced
    exact hreplaced.trans (hold.append_right _)
  · have hnone : segmentEvents staged artifact = [] := by
      by_contra hne
      exact hwrite ((hartifacts artifact).mpr hne)
    rw [hnone, List.append_nil]
    push Not at hwrite
    exact (h.kept artifact hwrite).trans hold

/-- An accepted append preserves the log it finds. -/
theorem preserves_of_stage {step : AppendStep} {existing : List Entry}
    (haccepted : orderedExisting R step.before = .ok existing)
    (hstage : stageStreamAppends R instant step.before step.additions step.digests = .ok step.writes)
    (hreplaces : Replaces step.before step.writes step.after) : ∃ added, Preserves R step existing added := by
  obtain ⟨_, hperm, hlog⟩ := orderedExisting_eq_ok.mp haccepted
  unfold stageStreamAppends at hstage
  split at hstage
  · rename_i hempty
    have hwrites : step.writes = [] := (Except.ok.inj hstage).symm
    rw [hwrites] at hreplaces
    have hafter : (entriesIn step.after).Perm (existing ++ []) :=
      hreplaces.perm hperm (by simp) (by simp [segmentEvents])
    refine ⟨[], haccepted, ?_, ?_, ?_, ?_, ?_⟩
    · rw [List.append_nil] at hafter ⊢
      exact orderedExisting_eq_ok.mpr ⟨hreplaces.known, hafter, hlog⟩
    · rw [List.isEmpty_iff.mp hempty]
      exact List.Forall₂.nil
    · rw [hwrites, List.append_nil]
      rfl
    · rw [hwrites]
      simp
    · rw [hwrites]
      simp
  · obtain ⟨entries, hentries, hprepare⟩ := Refusing.bind_eq_ok.mp hstage
    have hsame : entries = existing := Except.ok.inj (hentries.symm.trans haccepted)
    subst hsame
    obtain ⟨tail, htail, hprepare⟩ := Refusing.bind_eq_ok.mp hprepare
    obtain ⟨staged, hstaged, hwrites⟩ := Refusing.bind_eq_ok.mp hprepare
    obtain ⟨hlonger, hadds⟩ := hlog.append htail hstaged
    obtain ⟨hstages, hartifacts⟩ := stagedWrites_spec hwrites
    have hafter := hreplaces.perm hperm (fun write hwrite ↦ (hstages write hwrite).appended) hartifacts
    refine ⟨staged, haccepted, ?_, hadds, replaceFiles_eq hstages hartifacts, ?_, ?_⟩
    · exact orderedExisting_eq_ok.mpr ⟨hreplaces.known, hafter, hlonger⟩
    · exact fun write hwrite ↦ (hstages write hwrite).old
    · exact fun write hwrite ↦ (hstages write hwrite).expected

/-- Over every run of appends from accepted streams, each append leaves streams that are accepted again:
the existing events and then the added ones, in the old files with new lines at their ends, and each of
them expects the file it replaces. So the last streams hold the first events and then all additions. -/
theorem appends_preserve_streams {streams after : StreamMap} {steps : List AppendStep} {existing : List Entry}
    (hrun : AppendRun R instant streams steps after) (haccepted : orderedExisting R streams = .ok existing) :
    (∃ added, orderedExisting R after = .ok (existing ++ added) ∧
      List.Forall₂ Adds (steps.flatMap AppendStep.additions) added) ∧
    ∀ step ∈ steps, ∃ before added, Preserves R step before added := by
  induction hrun generalizing existing with
  | nil =>
      refine ⟨⟨[], ?_, List.Forall₂.nil⟩, by simp⟩
      rw [List.append_nil]
      exact haccepted
  | cons hstage hreplaces hrest ih =>
      obtain ⟨added, hpreserves⟩ := preserves_of_stage haccepted hstage hreplaces
      obtain ⟨⟨later, hlater, hadds⟩, hsteps⟩ := ih hpreserves.after
      refine ⟨⟨added ++ later, ?_, ?_⟩, ?_⟩
      · rw [← List.append_assoc]
        exact hlater
      · rw [List.flatMap_cons]
        exact List.rel_append hpreserves.adds hadds
      · rw [List.forall_mem_cons]
        exact ⟨⟨existing, added, hpreserves⟩, hsteps⟩

/-- The streams of a log, kind by kind. -/
def streamsOf (entries : List Entry) : StreamMap :=
  ⟨streamKinds.map fun kind ↦ (kind.text, (entries.filter fun entry ↦ entry.1 = kind).map Prod.snd), by
    rw [Dict.keys, List.map_map]
    exact (by decide : (streamKinds.map StreamKind.text).Nodup)⟩

theorem entriesIn_streamsOf (entries : List Entry) : (entriesIn (streamsOf entries)).Perm entries := by
  have hkinds : entriesIn (streamsOf entries) = streamKinds.flatMap fun kind ↦ entries.filter fun entry ↦ entry.1 = kind := by
    unfold entriesIn streamsOf
    rw [List.flatMap_map]
    refine List.flatMap_congr fun kind _ ↦ ?_
    rw [kindNamed_eq_some.mpr (rfl : kind.text = kind.text), Option.toList_some, List.flatMap_singleton, List.map_map]
    refine (List.map_congr_left fun entry hentry ↦ ?_).trans (List.map_id _)
    have hown : entry.1 = kind := by simpa using (List.mem_filter.mp hentry).2
    exact Prod.ext hown.symm rfl
  rw [hkinds]
  apply flatMap_filter_perm Prod.fst (by decide)
  intro entry _
  cases entry.1 <;> decide

theorem known_streamsOf (entries : List Entry) : ∀ item ∈ (streamsOf entries).items, (kindNamed item.1).isSome := by
  intro item hitem
  obtain ⟨kind, _, rfl⟩ := List.mem_map.mp hitem
  rw [kindNamed_eq_some.mpr (rfl : kind.text = kind.text)]
  rfl

/-- The staged segments of an accepted append can be put in place. -/
theorem exists_replaces {streams : StreamMap} {digests : Mapping String String} {existing : List Entry}
    (haccepted : orderedExisting R streams = .ok existing)
    (hstage : stageStreamAppends R instant streams additions digests = .ok writes) :
    ∃ after, Replaces streams writes after := by
  obtain ⟨hknown, hperm, _⟩ := orderedExisting_eq_ok.mp haccepted
  unfold stageStreamAppends at hstage
  split at hstage
  · rw [← Except.ok.inj hstage]
    exact ⟨streams, hknown, by simp, fun artifact _ ↦ List.Perm.refl _⟩
  · obtain ⟨entries, hentries, hprepare⟩ := Refusing.bind_eq_ok.mp hstage
    have hsame : entries = existing := Except.ok.inj (hentries.symm.trans haccepted)
    subst hsame
    obtain ⟨tail, _, hprepare⟩ := Refusing.bind_eq_ok.mp hprepare
    obtain ⟨staged, _, hwrites⟩ := Refusing.bind_eq_ok.mp hprepare
    obtain ⟨hstages, hartifacts⟩ := stagedWrites_spec hwrites
    have hsegments : ∀ artifact, (segmentEvents (entriesIn (streamsOf (entries ++ staged))) artifact).Perm
        (segmentEvents (entriesIn streams) artifact ++ segmentEvents staged artifact) := by
      intro artifact
      rw [← segmentEvents_append]
      exact segmentEvents_perm ((entriesIn_streamsOf _).trans (hperm.symm.append_right _)) artifact
    refine ⟨streamsOf (entries ++ staged), known_streamsOf _, fun write hwrite ↦ ?_, fun artifact hnone ↦ ?_⟩
    · rw [(hstages write hwrite).appended]
      exact hsegments write.artifact
    · have hkept : segmentEvents staged artifact = [] := by
        by_contra hne
        obtain ⟨write, hwrite, hpath⟩ := (hartifacts artifact).mpr hne
        exact hnone write hwrite hpath
      have hsame := hsegments artifact
      rwa [hkept, List.append_nil] at hsame

end Runs

/-! ## A month that goes on -/

/-- The second planning fact of the task, as a command adds it. -/
def sampleAddition : Event :=
  ⟨[("format", .str "workstack.planning-status-event"), ("schema_version", .int 1),
    ("workspace_uid", .str sampleWorkspace), ("event_uid", .str "0b0b0b0b-0000-4000-8000-00000000000b"),
    ("record_uid", .str sampleIdentity), ("created_at", .str "2026-07-02T00:00:00Z"), ("actor", .str "human"),
    ("provenance", .str "native"), ("legacy_fact_id", .str "PS-000002"), ("task_uid", .str sampleIdentity),
    ("task_display_id", .str "T-0001"), ("previous_event_uid", .str sampleIdentity),
    ("previous_legacy_fact_id", .str "PS-000001"), ("prior_revision", .int 0), ("new_revision", .int 1),
    ("prior_status", .str "open"), ("status", .str "started")], by decide⟩

/-- The seconds of the two moments. -/
def sampleInstant (text : String) : Option ℤ :=
  if text = "2026-07-01T00:00:00Z" then some 1782864000
  else if text = "2026-07-02T00:00:00Z" then some 1782950400
  else none

def sampleStreams : StreamMap := streamsOf [(.planningStatus, sampleFact (some sampleDigest))]

def sampleFileDigests : Mapping String String :=
  Mapping.set "streams/planning-status/2026-07.ndjson" (Sha256.digest (segmentBody [sampleFact (some sampleDigest)])).text
    Mapping.empty

theorem appends_preserve_streams_sample : ∃ existing added after,
    orderedExisting sampleRules sampleStreams = .ok existing ∧
    orderedExisting sampleRules after = .ok (existing ++ added) ∧
    List.Forall₂ Adds [("planning-status", sampleAddition)] added := by
  have hread : (orderedExisting sampleRules sampleStreams).toOption.isSome := by decide +kernel
  have hstaged : (stageStreamAppends sampleRules sampleInstant sampleStreams
      [("planning-status", sampleAddition)] sampleFileDigests).toOption.isSome := by decide +kernel
  cases haccepted : orderedExisting sampleRules sampleStreams with
  | error error =>
      rw [haccepted] at hread
      cases hread
  | ok existing =>
      cases hstage : stageStreamAppends sampleRules sampleInstant sampleStreams
          [("planning-status", sampleAddition)] sampleFileDigests with
      | error error =>
          rw [hstage] at hstaged
          cases hstaged
      | ok writes =>
          obtain ⟨after, hreplaces⟩ := exists_replaces haccepted hstage
          let step : AppendStep := ⟨sampleStreams, [("planning-status", sampleAddition)], sampleFileDigests, writes, after⟩
          have hrun : AppendRun sampleRules sampleInstant step.before [step] step.after :=
            AppendRun.cons hstage hreplaces (AppendRun.nil step.after)
          obtain ⟨⟨added, hafter, hadds⟩, _⟩ := appends_preserve_streams hrun haccepted
          exact ⟨existing, added, after, rfl, hafter, hadds⟩

end WorkStack.Streams.Append
