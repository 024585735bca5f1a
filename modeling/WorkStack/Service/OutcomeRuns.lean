import WorkStack.Effect.Requests
import WorkStack.Service.TaskSteps

/-!
# References over runs

The references of every Task stay canonical over runs of patches, links and writes to Objectives, as
long as no key result is given an id that a reference names already. The numbering of key results does
not see an id with blanks around it, while a reference does, and that is the one way to get there.
-/

namespace WorkStack.Service

open Effect Effect.Outcome Python

/-! ## Canonical references -/

/-- A stored reference of the shape the services write. -/
def readRef : Json → Option KeyResultRef
  | .obj ref =>
      if hasExactly ref ["objective_id", "key_result_id"] then
        match valueAt ref "objective_id", valueAt ref "key_result_id" with
        | .str objectiveId, .str keyResultId => some (objectiveId, keyResultId)
        | _, _ => none
      else none
  | _ => none

/-- The references of a Task, where they have that shape. -/
def keyResultRefs (task : Record) : Option (List KeyResultRef) :=
  match valueAt task "key_result_refs" with
  | .null => some []
  | .arr items => items.mapM readRef
  | _ => none

/-- The Objectives with an id. -/
def objectivesWithId (objectives : List Json) (id : String) : List Record :=
  objectives.filterMap fun
    | .obj record => if Json.same (.str id) (valueAt record "id") then some record else none
    | _ => none

section Canonical

variable (I : Interpreter)

/-- A reference names an Objective that is there once, that the Task is aligned with, and that owns
the key result once. -/
structure Resolves (objectives : List Json) (task : Record) (ref : KeyResultRef) : Prop where
  aligned : ∃ ids, valueAt task "objective_ids" = .arr ids ∧ .str ref.1 ∈ ids
  owned : ∃ objective keyResults, objectivesWithId objectives ref.1 = [objective] ∧
    listAt objective "key_results" = .ok keyResults ∧
    keyResults.countP (hasKeyResultId I (.str ref.2)) = 1

/-- The references of a Task are sorted without duplicates, and each of them resolves. -/
structure CanonicalRefs (objectives : List Json) (task : Record) (refs : List KeyResultRef) : Prop where
  stored : keyResultRefs task = some refs
  sorted : refs.Pairwise fun a b ↦ toLex a < toLex b
  resolve : ∀ ref ∈ refs, Resolves I objectives task ref

/-- Every Task of a backlog has canonical references. -/
def OutcomesCanonical (documents : Documents) : Prop :=
  ∃ tasks objectives, listAt documents.backlog "tasks" = .ok tasks ∧
    listAt documents.okr "objectives" = .ok objectives ∧
    ∀ task, .obj task ∈ tasks → ∃ refs, CanonicalRefs I objectives task refs

end Canonical

/-! ## What the checks establish -/

theorem readRef_toJson (ref : KeyResultRef) : readRef ref.toJson = some ref := by
  simp [readRef, KeyResultRef.toJson, hasExactly, Dict.keys, valueAt, Dict.get, List.lookup]

theorem mapM_readRef_toJson (refs : List KeyResultRef) :
    (refs.map KeyResultRef.toJson).mapM readRef = some refs := by
  induction refs with
  | nil => rfl
  | cons ref refs ih => simp [readRef_toJson, ih]

variable {ref : KeyResultRef}

theorem readRef_eq_some {item : Json} (h : readRef item = some ref) :
    ∃ fields, item = .obj fields ∧ valueAt fields "objective_id" = .str ref.1 ∧
      valueAt fields "key_result_id" = .str ref.2 := by
  unfold readRef at h
  split at h
  · rename_i fields
    split at h
    · split at h
      · rename_i objectiveId keyResultId hobjective hkeyResult
        cases h
        exact ⟨fields, rfl, hobjective, hkeyResult⟩
      · cases h
    · cases h
  · cases h

theorem mem_of_mapM_readRef {items : List Json} {refs : List KeyResultRef} (h : items.mapM readRef = some refs)
    (href : ref ∈ refs) : ∃ item ∈ items, readRef item = some ref := by
  induction items generalizing refs with
  | nil =>
      simp at h
      simp [h] at href
  | cons item items ih =>
      simp only [List.mapM_cons, Option.bind_eq_bind, Option.pure_def] at h
      obtain ⟨first, hfirst, h⟩ := Option.bind_eq_some_iff.mp h
      obtain ⟨rest, hrest, h⟩ := Option.bind_eq_some_iff.mp h
      cases h
      rcases List.mem_cons.mp href with heq | hmem
      · exact ⟨item, List.mem_cons_self .., heq ▸ hfirst⟩
      · obtain ⟨other, hother, hread⟩ := ih hrest hmem
        exact ⟨other, List.mem_cons_of_mem _ hother, hread⟩

variable {objectives : List Json}

theorem recordsWithId_eq {grouped : List (Json × Record)} (h : objectiveRecordsById objectives = .ok grouped)
    (id : String) :
    recordsWithId grouped (.str id) = objectivesWithId objectives id := by
  induction objectives generalizing grouped with
  | nil =>
      cases h
      rfl
  | cons candidate rest ih =>
      obtain ⟨record, hrecord, h⟩ := bind_eq_ok.mp h
      obtain ⟨stored, hstored, h⟩ := bind_eq_ok.mp h
      split at h
      · obtain ⟨others, hothers, h⟩ := bind_eq_ok.mp h
        cases h
        have hid : valueAt record "id" = stored := valueAt_of_get (field_eq_ok.mp hstored)
        have hrest := ih hothers
        unfold recordsWithId at hrest ⊢
        rw [asRecord_eq_ok.mp hrecord]
        by_cases hsame : Json.same (.str id) stored = true
        · simp [objectivesWithId, hid, hsame, hrest]
        · simp [objectivesWithId, hid, hsame, hrest]
      · cases h

section Checks

variable {I : Interpreter}

theorem requireOwned_ok {objectives : List (Json × Record)} {objective : Record}
    {objectiveId keyResultId : Json}
    (h : requireOwned I objectives objective objectiveId keyResultId = .ok ()) :
    ∃ keyResults, listAt objective "key_results" = .ok keyResults ∧
      keyResults.countP (hasKeyResultId I keyResultId) = 1 := by
  obtain ⟨owned, howned, h⟩ := bind_eq_ok.mp h
  obtain ⟨keyResults, hkeyResults, hcount⟩ := bind_eq_ok.mp howned
  split at h
  · rename_i hone
    cases hcount
    exact ⟨keyResults, hkeyResults, hone⟩
  · split at h
    · cases h
    · obtain ⟨other, -, h⟩ := bind_eq_ok.mp h
      split at h <;> cases h

/-- A stored reference that passes its check resolves. -/
theorem validateResultingRef_ok {objectives : List (Json × Record)} {aligned : List Json} {fields : Record}
    (hobjective : valueAt fields "objective_id" = .str ref.1)
    (hkeyResult : valueAt fields "key_result_id" = .str ref.2)
    (h : validateResultingRef I objectives aligned (.obj fields) = .ok ()) :
    .str ref.1 ∈ aligned ∧ ∃ objective keyResults, recordsWithId objectives (.str ref.1) = [objective] ∧
      listAt objective "key_results" = .ok keyResults ∧
      keyResults.countP (hasKeyResultId I (.str ref.2)) = 1 := by
  obtain ⟨record, hrecord, h⟩ := bind_eq_ok.mp h
  have hfields : fields = record := Json.obj.inj (asRecord_eq_ok.mp hrecord)
  obtain ⟨objectiveId, hobjectiveId, h⟩ := bind_eq_ok.mp h
  rw [← hfields] at hobjectiveId h
  have hid : objectiveId = .str ref.1 := by
    rw [← hobjective, valueAt_of_get (field_eq_ok.mp hobjectiveId)]
  rw [hid] at h
  split at h
  · cases h
  · split at h
    · cases h
    · rename_i hany
      obtain ⟨listed, hlisted, hsame⟩ := List.any_eq_true.mp (not_not.mp hany)
      have hmem : Json.str ref.1 ∈ aligned := Json.same_str_left.mp hsame ▸ hlisted
      split at h
      · rename_i objective hrecords
        obtain ⟨keyResultId, hkeyResultId, h⟩ := bind_eq_ok.mp h
        have hkey : keyResultId = .str ref.2 := by
          rw [← hkeyResult, valueAt_of_get (field_eq_ok.mp hkeyResultId)]
        obtain ⟨keyResults, hlist, hcount⟩ := requireOwned_ok h
        exact ⟨hmem, objective, keyResults, hrecords, hlist, hkey ▸ hcount⟩
      · cases h

theorem alignParents_refs {objectives : List (Json × Record)} {changes task after : Record}
    (h : alignParents I objectives changes task = .ok after) :
    after.get "key_result_refs" = changes.get "key_result_refs" := by
  unfold alignParents at h
  split at h
  · obtain ⟨⟨⟩, -, h⟩ := bind_eq_ok.mp h
    obtain ⟨current, -, h⟩ := bind_eq_ok.mp h
    obtain ⟨base, -, h⟩ := bind_eq_ok.mp h
    obtain ⟨aligned, -, h⟩ := bind_eq_ok.mp h
    split at h
    · cases h
      exact Dict.get_set_of_ne _ (by decide) _
    · cases h
      rfl
  · cases h
    rfl

/-- The references a patch leaves resolve against the Objectives it leaves. -/
theorem resolves_of_validated {grouped : List (Json × Record)}
    (hgrouped : objectiveRecordsById objectives = .ok grouped) {refs objectiveIds : Json} {task : Record}
    (h : validateResultingKeyResultRefs I grouped refs objectiveIds = .ok ())
    (haligned : ∀ ids, objectiveIds = .arr ids → ids ≠ [] → valueAt task "objective_ids" = .arr ids)
    {items : List Json} (hrefs : refs = .arr items) {item : Json} (hitem : item ∈ items)
    (hread : readRef item = some ref) : Resolves I objectives task ref := by
  obtain ⟨fields, hfields, hobjective, hkeyResult⟩ := readRef_eq_some hread
  rw [hrefs] at h
  obtain ⟨aligned, hlisted, h⟩ := bind_eq_ok.mp h
  obtain ⟨⟨⟩, -, h⟩ := bind_eq_ok.mp h
  obtain ⟨listed, hlist, h⟩ := bind_eq_ok.mp h
  have hsame : listed = items := (Json.arr.inj (asList_eq_ok.mp hlist)).symm
  have hcheck := forM_eq_ok.mp h item (hsame ▸ hitem)
  rw [hfields] at hcheck
  obtain ⟨hmem, objective, keyResults, hrecords, hkeyResults, hcount⟩ :=
    validateResultingRef_ok hobjective hkeyResult hcheck
  have hids : objectiveIds = .arr aligned := by
    unfold listOrEmpty at hlisted
    split at hlisted
    · exact asList_eq_ok.mp hlisted
    · cases hlisted
      simp at hmem
  constructor
  · exact ⟨aligned, haligned aligned hids (List.ne_nil_of_mem hmem), hmem⟩
  · rw [← recordsWithId_eq hgrouped]
    exact ⟨objective, keyResults, hrecords, hkeyResults, hcount⟩

end Checks

/-! ## Writes to Tasks -/

variable {result : Json} {index : ℕ}

section Tasks

variable {I : Interpreter} {P : Platform} {documents after : Documents} {clock : Clock}

/-- A step that puts one Task in the place of another keeps the others' references. -/
theorem OutcomesCanonical.replaces (h : OutcomesCanonical I documents) {tasks : List Json} {task updated : Record}
    (hstep : Replaces documents after tasks index task updated) (hokr : after.okr = documents.okr)
    (hupdated : ∀ objectives refs, listAt documents.okr "objectives" = .ok objectives →
      CanonicalRefs I objectives task refs → ∃ refs, CanonicalRefs I objectives updated refs) :
    OutcomesCanonical I after := by
  obtain ⟨listed, objectives, hlisted, hobjectives, hcanonical⟩ := h
  have hsame : tasks = listed := Except.ok.inj (hstep.listed.symm.trans hlisted)
  have hmem : Json.obj task ∈ listed := hsame ▸ List.mem_of_getElem? hstep.found
  apply Exists.intro (tasks.set index (.obj updated))
  apply Exists.intro objectives
  refine ⟨hstep.tasks_after, hokr ▸ hobjectives, fun other hother ↦ ?_⟩
  rcases List.mem_or_eq_of_mem_set hother with hold | hnew
  · exact hcanonical other (hsame ▸ hold)
  · obtain ⟨refs, hrefs⟩ := hcanonical task hmem
    rw [Json.obj.inj hnew]
    exact hupdated objectives refs hobjectives hrefs

theorem SavedPatch.canonicalRefs {taskId : String} {patch : Record} {origin : Option String}
    (s : SavedPatch P documents after clock taskId patch origin) {refs : List KeyResultRef}
    (hobjectives : listAt documents.okr "objectives" = .ok objectives)
    (h : CanonicalRefs P.toInterpreter objectives s.task refs) :
    ∃ refs, CanonicalRefs P.toInterpreter objectives (touched s.updated (clock.today 0) s.next) refs := by
  have hsame : s.objectiveRecords = objectives := Except.ok.inj (s.objectives_eq.symm.trans hobjectives)
  have hgrouped := s.grouped
  rw [hsame] at hgrouped
  obtain ⟨aligned, halign, hvalid⟩ := bind_eq_ok.mp s.aligned_eq
  obtain ⟨⟨⟩, hvalid, hpure⟩ := bind_eq_ok.mp hvalid
  have haligned : aligned = s.aligned := Except.ok.inj hpure
  rw [haligned] at halign hvalid
  have hids : ∀ ids, (s.aligned.get "objective_ids").getD ((s.task.get "objective_ids").getD (.arr [])) = .arr ids →
      ids ≠ [] → valueAt (touched s.updated (clock.today 0) s.next) "objective_ids" = .arr ids := by
    intro ids hids hne
    rw [valueAt, s.get_after (by decide)]
    cases hchanged : s.aligned.get "objective_ids" with
    | some value => simpa [hchanged] using hids
    | none =>
        cases hstored : s.task.get "objective_ids" with
        | some value => simpa [hchanged, hstored] using hids
        | none => simp [hchanged, hstored, hne] at hids
  have hrefs := @SavedPatch.get_after _ _ _ _ _ _ _ s "key_result_refs" (by decide)
  rcases patchChangeSet_refs P.toInterpreter s.changes_eq with hnone | ⟨given, hgiven⟩
  · rw [← alignParents_refs halign] at hnone
    have hvalue : valueAt (touched s.updated (clock.today 0) s.next) "key_result_refs" =
        valueAt s.task "key_result_refs" := by
      rw [valueAt, hrefs, hnone, Option.none_or, valueAt]
    apply Exists.intro refs
    constructor
    · rw [keyResultRefs, hvalue]
      exact h.stored
    · exact h.sorted
    · intro ref href
      have hstored := h.stored
      rw [hnone, Option.getD_none] at hvalid
      unfold keyResultRefs at hstored
      split at hstored
      · cases hstored
        simp at href
      · rename_i items hitems
        obtain ⟨item, hitem, hread⟩ := mem_of_mapM_readRef hstored href
        exact resolves_of_validated hgrouped hvalid hids hitems hitem hread
      · cases hstored
  · rw [← alignParents_refs halign] at hgiven
    rw [hgiven, Option.getD_some] at hvalid
    have hvalue : valueAt (touched s.updated (clock.today 0) s.next) "key_result_refs" =
        .arr ((canonicalizeKeyResultRefs given).map KeyResultRef.toJson) := by
      rw [valueAt, hrefs, hgiven, Option.some_or, Option.getD_some]
    apply Exists.intro (canonicalizeKeyResultRefs given)
    constructor
    · rw [keyResultRefs, hvalue]
      exact mapM_readRef_toJson _
    · exact canonicalizeKeyResultRefs_sorted given
    · intro ref href
      exact resolves_of_validated hgrouped hvalid hids rfl (List.mem_map_of_mem href) (readRef_toJson ref)

theorem OutcomesCanonical.patchTask (h : OutcomesCanonical P.toInterpreter documents) {taskId : String} {patch : Json}
    {origin : Option String}
    (hpatch : Service.patchTask P documents clock taskId patch origin = .ok ⟨result, some after⟩) :
    OutcomesCanonical P.toInterpreter after := by
  obtain ⟨fields, -, ⟨s⟩⟩ := patchTask_saved hpatch
  have hokr : after.okr = documents.okr := by
    rw [s.after_eq]
    rfl
  apply h.replaces s.replaces hokr
  intro objectives refs hobjectives hrefs
  exact s.canonicalRefs hobjectives hrefs

theorem mem_textsOf {refusal : ServiceError} {items : List Json} {texts : List String}
    (h : textsOf refusal items = .ok texts) {text : String} (htext : .str text ∈ items) : text ∈ texts := by
  induction items generalizing texts with
  | nil => simp at htext
  | cons item items ih =>
      cases item with
      | str first =>
          obtain ⟨rest, hrest, h⟩ := bind_eq_ok.mp h
          cases h
          rcases List.mem_cons.mp htext with heq | hmem
          · exact Json.str.inj heq ▸ List.mem_cons_self ..
          · exact List.mem_cons_of_mem _ (ih hrest hmem)
      | _ => cases h

theorem OutcomesCanonical.linkTask (h : OutcomesCanonical I documents) {objectiveId taskId : String}
    (hlink : Service.linkTask I documents clock objectiveId taskId = .ok ⟨result, some after⟩) :
    OutcomesCanonical I after := by
  obtain ⟨tasks, index, task, next, linked, links, hreplaces, -, hlinked, hlinks, hokr, -⟩ := linkTask_saved hlink
  apply h.replaces hreplaces hokr
  intro objectives refs _ hrefs
  apply Exists.intro refs
  constructor
  · rw [keyResultRefs, valueAt_touched _ _ _ (by decide) (by decide), valueAt_set, if_neg (by decide)]
    exact hrefs.stored
  · exact hrefs.sorted
  · intro ref href
    have hresolves := hrefs.resolve ref href
    constructor
    · obtain ⟨ids, hids, hmem⟩ := hresolves.aligned
      have hlist : listAt task "objective_ids" = .ok ids := by
        have hget : task.get "objective_ids" = some (.arr ids) := by
          rw [← hids]
          apply get_of_valueAt
          rw [hids]
          intro hnull
          cases hnull
        exact listAt_of_get hget
      have hsame : linked = ids := Except.ok.inj (hlinked.symm.trans hlist)
      have htext : ref.1 ∈ links := mem_textsOf hlinks (hsame ▸ hmem)
      rw [valueAt_touched _ _ _ (by decide) (by decide), valueAt_set, if_pos rfl, textsJson]
      exact ⟨_, rfl, List.mem_map_of_mem (mem_sortedSet.mpr (List.mem_append_left _ htext))⟩
    · exact hresolves.owned

end Tasks

/-! ## Writes to Objectives -/

section Objectives

variable {I : Interpreter} {documents after : Documents} {clock : Clock}

theorem objectivesWithId_named {record : Record} {id : String} (h : valueAt record "id" = .str id)
    (rest : List Json) : objectivesWithId (.obj record :: rest) id = record :: objectivesWithId rest id := by
  simp [objectivesWithId, h]

theorem objectivesWithId_unnamed {record : Record} {id : String} (h : valueAt record "id" ≠ .str id)
    (rest : List Json) : objectivesWithId (.obj record :: rest) id = objectivesWithId rest id := by
  have hsame : ¬Json.same (.str id) (valueAt record "id") = true := fun hsame ↦ h (Json.same_str_left.mp hsame)
  simp [objectivesWithId, hsame]

theorem objectivesWithId_append (objectives others : List Json) (id : String) :
    objectivesWithId (objectives ++ others) id = objectivesWithId objectives id ++ objectivesWithId others id :=
  List.filterMap_append

/-- Putting an Objective in the place of another of the same id matters to the references to it. -/
theorem Resolves.set_iff {objective updated task : Record} (h : Resolves I objectives task ref)
    (hfound : objectives[index]? = some (.obj objective)) (hid : valueAt updated "id" = valueAt objective "id") :
    Resolves I (objectives.set index (.obj updated)) task ref ↔
      (valueAt objective "id" = .str ref.1 → ∃ keyResults, listAt updated "key_results" = .ok keyResults ∧
        keyResults.countP (hasKeyResultId I (.str ref.2)) = 1) := by
  obtain ⟨before, rest, hsplit, hset⟩ := split_of_getElem? hfound
  obtain ⟨owner, owned, howner, howned, hcount⟩ := h.owned
  rw [hsplit, objectivesWithId_append] at howner
  have hafter : objectivesWithId (objectives.set index (.obj updated)) ref.1 =
      objectivesWithId before ref.1 ++ objectivesWithId (.obj updated :: rest) ref.1 := by
    rw [hset, objectivesWithId_append]
  by_cases hnamed : valueAt objective "id" = .str ref.1
  · rw [objectivesWithId_named hnamed] at howner
    rw [objectivesWithId_named (hid.trans hnamed)] at hafter
    have hlength := congrArg List.length howner
    simp only [List.length_append, List.length_cons, List.length_nil] at hlength
    have hbefore : objectivesWithId before ref.1 = [] := List.length_eq_zero_iff.mp (by omega)
    have hrest : objectivesWithId rest ref.1 = [] := List.length_eq_zero_iff.mp (by omega)
    rw [hbefore, hrest] at hafter
    constructor
    · intro hresolves _
      obtain ⟨found, keyResults, hfound, hkeyResults, hone⟩ := hresolves.owned
      have hsame : [updated] = [found] := hafter.symm.trans hfound
      rw [List.singleton_inj] at hsame
      exact ⟨keyResults, hsame ▸ hkeyResults, hone⟩
    · intro hkept
      obtain ⟨keyResults, hkeyResults, hone⟩ := hkept hnamed
      exact ⟨h.aligned, updated, keyResults, hafter, hkeyResults, hone⟩
  · rw [objectivesWithId_unnamed hnamed] at howner
    rw [objectivesWithId_unnamed (hid ▸ hnamed)] at hafter
    constructor
    · exact fun _ hother ↦ absurd hother hnamed
    · exact fun _ ↦ ⟨h.aligned, owner, owned, hafter.trans howner, howned, hcount⟩

/-- A step that leaves the Tasks alone and gives the Objectives a new list. -/
structure Rewrites (documents after : Documents) (objectives changed : List Json) : Prop where
  listed : listAt documents.okr "objectives" = .ok objectives
  okr : after.okr = documents.okr.set "objectives" (.arr changed)
  backlog : after.backlog = documents.backlog

/-- Such a step is judged by the references there are. -/
theorem OutcomesCanonical.rewrites_iff (h : OutcomesCanonical I documents) {objectives changed : List Json}
    (hstep : Rewrites documents after objectives changed) :
    OutcomesCanonical I after ↔ ∀ tasks task refs ref, listAt documents.backlog "tasks" = .ok tasks →
      .obj task ∈ tasks → keyResultRefs task = some refs → ref ∈ refs → Resolves I objectives task ref →
      Resolves I changed task ref := by
  obtain ⟨tasks, listed, htasks, hlisted, hcanonical⟩ := h
  have hsame : objectives = listed := Except.ok.inj (hstep.listed.symm.trans hlisted)
  have hafter : listAt after.okr "objectives" = .ok changed := by rw [hstep.okr, listAt_set]
  constructor
  · rintro ⟨tasks', changed', htasks', hchanged', hcanonical'⟩ others task refs ref hothers htask hrefs href -
    rw [hstep.backlog, hothers] at htasks'
    rw [hafter] at hchanged'
    rw [← Except.ok.inj htasks', ← Except.ok.inj hchanged'] at hcanonical'
    obtain ⟨refs', hrefs'⟩ := hcanonical' task htask
    have hstored := hrefs'.stored
    rw [hrefs] at hstored
    exact hrefs'.resolve ref (Option.some.inj hstored ▸ href)
  · intro hall
    refine ⟨tasks, changed, hstep.backlog ▸ htasks, hafter, fun task htask ↦ ?_⟩
    obtain ⟨refs, hrefs⟩ := hcanonical task htask
    apply Exists.intro refs
    constructor
    · exact hrefs.stored
    · exact hrefs.sorted
    · intro ref href
      exact hall tasks task refs ref htasks htask hrefs.stored href (hsame ▸ hrefs.resolve ref href)

theorem objectivesOf_eq_ok {okr : Record} (h : objectivesOf okr = .ok objectives) :
    listAt okr "objectives" = .ok objectives := by
  obtain ⟨value, hvalue, h⟩ := bind_eq_ok.mp h
  apply listAt_of_get
  rw [field_eq_ok.mp hvalue, asList_eq_ok.mp h]

/-- An Objective with an id that is not there yet takes no reference away. -/
theorem OutcomesCanonical.gains (h : OutcomesCanonical I documents) {objective : Record}
    (hstep : Rewrites documents after objectives (objectives ++ [.obj objective])) {id : String}
    (hid : valueAt objective "id" = .str id) (hnext : nextId I objectives ['O'] = .ok id) :
    OutcomesCanonical I after := by
  rw [h.rewrites_iff hstep]
  intro tasks task refs ref _ _ _ _ hresolves
  obtain ⟨owner, owned, howner, howned, hcount⟩ := hresolves.owned
  have hne : id ≠ ref.1 := by
    intro heq
    have hmem : owner ∈ objectivesWithId objectives ref.1 := howner ▸ List.mem_singleton_self owner
    obtain ⟨item, hitem, hread⟩ := List.mem_filterMap.mp hmem
    split at hread
    · rename_i record
      split at hread
      · rename_i hsame
        have hstored : valueAt record "id" = .str ref.1 := Json.same_str_left.mp hsame
        have hget : Dict.get record "id" = some (.str ref.1) := by
          rw [← hstored]
          apply get_of_valueAt
          rw [hstored]
          intro hnull
          cases hnull
        apply (nextId_fresh I hnext).2 record hitem
        simp [idText, hget, Interpreter.str, heq]
      · cases hread
    · cases hread
  have hafter : objectivesWithId (objectives ++ [.obj objective]) ref.1 = [owner] := by
    rw [objectivesWithId_append, howner, objectivesWithId_unnamed]
    · rfl
    · rw [hid]
      exact fun heq ↦ hne (Json.str.inj heq)
  exact ⟨hresolves.aligned, owner, owned, hafter, howned, hcount⟩

theorem newObjective_id {text quarter : Json} {objective : Record}
    (h : newObjective I objectives clock text quarter = .ok objective) :
    ∃ id, nextId I objectives ['O'] = .ok id ∧ valueAt objective "id" = .str id := by
  obtain ⟨id, hid, h⟩ := bind_eq_ok.mp h
  obtain ⟨text, -, h⟩ := bind_eq_ok.mp h
  cases h
  exact ⟨id, hid, by simp [valueAt, Dict.get_cons]⟩

theorem OutcomesCanonical.addObjective (h : OutcomesCanonical I documents) {currentQuarter text : String}
    {quarter : Option String}
    (hadd : Service.addObjective I documents clock currentQuarter text quarter = .ok ⟨result, some after⟩) :
    OutcomesCanonical I after := by
  obtain ⟨objectives, hobjectives, hadd⟩ := bind_eq_ok.mp hadd
  obtain ⟨objective, hobjective, hadd⟩ := bind_eq_ok.mp hadd
  obtain ⟨id, hnext, hid⟩ := newObjective_id hobjective
  cases hadd
  exact h.gains ⟨objectivesOf_eq_ok hobjectives, rfl, rfl⟩ hid hnext

theorem OutcomesCanonical.createObjective (h : OutcomesCanonical I documents) {currentQuarter key path : String}
    {body : Record} {response : Response}
    (hcreate : Service.createObjective I documents clock currentQuarter body key path =
      .ok ⟨response, some after⟩) : OutcomesCanonical I after := by
  obtain ⟨⟨⟩, -, hcreate⟩ := bind_eq_ok.mp hcreate
  have hwork := keyed_saved hcreate
  obtain ⟨objectives, hobjectives, hwork⟩ := bind_eq_ok.mp hwork
  obtain ⟨quarter, -, hwork⟩ := bind_eq_ok.mp hwork
  obtain ⟨text, -, hwork⟩ := bind_eq_ok.mp hwork
  obtain ⟨objective, hobjective, hwork⟩ := bind_eq_ok.mp hwork
  obtain ⟨activity, -, hwork⟩ := bind_eq_ok.mp hwork
  obtain ⟨logged, -, hwork⟩ := bind_eq_ok.mp hwork
  obtain ⟨id, hnext, hid⟩ := newObjective_id hobjective
  cases hwork
  have hset : valueAt (objective.set "revision" (.int 0)) "id" = .str id := by
    rw [valueAt_set, if_neg (by decide), hid]
  exact h.gains ⟨objectivesOf_eq_ok hobjectives, rfl, rfl⟩ hset hnext

/-! ## Writes to key results -/

/-- The Objective a reference names owns the key result once. -/
theorem Resolves.owned_at {objective task : Record} (h : Resolves I objectives task ref)
    (hfound : objectives[index]? = some (.obj objective)) (hnamed : valueAt objective "id" = .str ref.1) :
    ∃ keyResults, listAt objective "key_results" = .ok keyResults ∧
      keyResults.countP (hasKeyResultId I (.str ref.2)) = 1 := by
  obtain ⟨before, rest, hsplit, hset⟩ := split_of_getElem? hfound
  have hsame : objectives.set index (.obj objective) = objectives := by rw [hset, ← hsplit]
  exact (h.set_iff hfound rfl).mp (hsame.symm ▸ h) hnamed

/-- An Objective that keeps its id and the ids of its key results keeps the references to it. -/
theorem OutcomesCanonical.keeps (h : OutcomesCanonical I documents) {objective updated : Record}
    (hstep : Rewrites documents after objectives (objectives.set index (.obj updated)))
    (hfound : objectives[index]? = some (.obj objective)) (hid : valueAt updated "id" = valueAt objective "id")
    (hkept : ∀ keyResults, listAt objective "key_results" = .ok keyResults → ∃ kept,
      listAt updated "key_results" = .ok kept ∧
      ∀ id, kept.countP (hasKeyResultId I id) = keyResults.countP (hasKeyResultId I id)) :
    OutcomesCanonical I after := by
  rw [h.rewrites_iff hstep]
  intro tasks task refs ref _ _ _ _ hresolves
  rw [hresolves.set_iff hfound hid]
  intro hnamed
  obtain ⟨keyResults, hkeyResults, hcount⟩ := hresolves.owned_at hfound hnamed
  obtain ⟨kept, hlist, hsame⟩ := hkept keyResults hkeyResults
  exact ⟨kept, hlist, (hsame _).trans hcount⟩

/-- Whether a reference of a Task names a key result. -/
def IsNamed (documents : Documents) (objectiveId : Json) (keyResultId : String) : Prop :=
  ∃ tasks task refs ref, listAt documents.backlog "tasks" = .ok tasks ∧ .obj task ∈ tasks ∧
    keyResultRefs task = some refs ∧ ref ∈ refs ∧ objectiveId = .str ref.1 ∧ keyResultId = ref.2

/-- A new key result takes the owner of a reference away exactly when the reference names it. -/
theorem OutcomesCanonical.gainsKeyResult_iff (h : OutcomesCanonical I documents) {objectives keyResults : List Json}
    {objective keyResult : Record} {day : String} {next : ℤ}
    (hstep : Rewrites documents after objectives
      (objectives.set index (.obj (touched (withKeyResult objective keyResults keyResult) day next))))
    (hfound : objectives[index]? = some (.obj objective)) (hlist : listAt objective "key_results" = .ok keyResults) :
    OutcomesCanonical I after ↔
      ¬IsNamed documents (valueAt objective "id") (I.upper (I.strip (idText I keyResult))) := by
  have hid : valueAt (touched (withKeyResult objective keyResults keyResult) day next) "id" =
      valueAt objective "id" := by
    rw [valueAt_touched _ _ _ (by decide) (by decide), withKeyResult, valueAt_set, if_neg (by decide)]
  have hafter : listAt (touched (withKeyResult objective keyResults keyResult) day next) "key_results" =
      .ok (keyResults ++ [.obj keyResult]) := by
    apply listAt_of_get
    rw [get_touched _ _ _ (by decide) (by decide), withKeyResult, Dict.get_set_self]
  have hcount (ref : KeyResultRef) : (keyResults ++ [Json.obj keyResult]).countP (hasKeyResultId I (.str ref.2)) =
      keyResults.countP (hasKeyResultId I (.str ref.2)) +
        if I.upper (I.strip (idText I keyResult)) = ref.2 then 1 else 0 := by
    rw [List.countP_append]
    by_cases hsame : I.upper (I.strip (idText I keyResult)) = ref.2 <;> simp [hasKeyResultId, hsame]
  rw [h.rewrites_iff hstep]
  constructor
  · rintro hall ⟨tasks, task, refs, ref, htasks, htask, hrefs, href, hnamed, hsame⟩
    obtain ⟨listed, others, hlisted, hothers, hcanonical⟩ := h
    have htask' : .obj task ∈ listed := Except.ok.inj (htasks.symm.trans hlisted) ▸ htask
    obtain ⟨refs', hrefs'⟩ := hcanonical task htask'
    have hstored : refs' = refs := Option.some.inj (hrefs'.stored.symm.trans hrefs)
    have hobjectives : others = objectives := Except.ok.inj (hothers.symm.trans hstep.listed)
    have hresolves : Resolves I objectives task ref := hobjectives ▸ hrefs'.resolve ref (hstored.symm ▸ href)
    have hkept := hall tasks task refs ref htasks htask hrefs href hresolves
    rw [hresolves.set_iff hfound hid] at hkept
    obtain ⟨gained, hgained, hone⟩ := hkept hnamed
    obtain ⟨owned, howned, hwas⟩ := hresolves.owned_at hfound hnamed
    rw [Except.ok.inj (howned.symm.trans hlist)] at hwas
    rw [← Except.ok.inj (hafter.symm.trans hgained), hcount, if_pos hsame] at hone
    omega
  · intro hfree tasks task refs ref htasks htask hrefs href hresolves
    rw [hresolves.set_iff hfound hid]
    intro hnamed
    obtain ⟨owned, howned, hwas⟩ := hresolves.owned_at hfound hnamed
    rw [Except.ok.inj (howned.symm.trans hlist)] at hwas
    have hne : I.upper (I.strip (idText I keyResult)) ≠ ref.2 := fun hsame ↦
      hfree ⟨tasks, task, refs, ref, htasks, htask, hrefs, href, hnamed, hsame⟩
    exact ⟨_, hafter, by rw [hcount, if_neg hne, hwas]⟩

/-- The Objective a key result is added to, and the id the key result answers to. -/
def nextKeyResultRef (I : Interpreter) (documents : Documents) (objectiveId : String) : Checked (Json × String) := do
  let objectives ← objectivesOf documents.okr
  let (_, objective) ← find I objectives objectiveId "objective"
  let keyResults ← listAt objective "key_results"
  let id ← nextId I keyResults ['K', 'R']
  pure (valueAt objective "id", I.upper (I.strip id))

/-- A key result is added under an id that no reference names. -/
def NamesNothing (I : Interpreter) (documents : Documents) (objectiveId : String) : Prop :=
  ∀ id keyResultId, nextKeyResultRef I documents objectiveId = .ok (id, keyResultId) →
    ¬IsNamed documents id keyResultId

theorem newKeyResult_id {keyResults : List Json} {text target : Json} {keyResult : Record}
    (h : newKeyResult I keyResults text target = .ok keyResult) :
    nextId I keyResults ['K', 'R'] = .ok (idText I keyResult) := by
  obtain ⟨id, hid, h⟩ := bind_eq_ok.mp h
  obtain ⟨text, -, h⟩ := bind_eq_ok.mp h
  obtain ⟨target, -, h⟩ := bind_eq_ok.mp h
  cases h
  simpa [idText, Dict.get_cons, Interpreter.str] using hid

/-- Both commands that add a key result are judged by the id it is given. -/
theorem OutcomesCanonical.adds_iff (h : OutcomesCanonical I documents) {objectives keyResults : List Json}
    {objectiveId day : String} {objective keyResult : Record} {text target : Json} {next : ℤ}
    (hobjectives : objectivesOf documents.okr = .ok objectives)
    (hfound : find I objectives objectiveId "objective" = .ok (index, objective))
    (hlist : listAt objective "key_results" = .ok keyResults)
    (hnew : newKeyResult I keyResults text target = .ok keyResult)
    (hokr : after.okr = documents.okr.set "objectives" (.arr (objectives.set index
      (.obj (touched (withKeyResult objective keyResults keyResult) day next)))))
    (hbacklog : after.backlog = documents.backlog) :
    OutcomesCanonical I after ↔ NamesNothing I documents objectiveId := by
  have hnext : nextKeyResultRef I documents objectiveId =
      .ok (valueAt objective "id", I.upper (I.strip (idText I keyResult))) := by
    simp only [nextKeyResultRef, hobjectives, hfound, hlist, newKeyResult_id hnew, ok_bind]
    rfl
  rw [h.gainsKeyResult_iff ⟨objectivesOf_eq_ok hobjectives, hokr, hbacklog⟩ (find_spec I hfound).1 hlist]
  constructor
  · intro hfree id keyResultId heq
    rw [hnext] at heq
    cases heq
    exact hfree
  · exact fun hfree ↦ hfree _ _ hnext

theorem OutcomesCanonical.addKeyResult_iff (h : OutcomesCanonical I documents) {objectiveId text target : String}
    (hadd : Service.addKeyResult I documents clock objectiveId text target = .ok ⟨result, some after⟩) :
    OutcomesCanonical I after ↔ NamesNothing I documents objectiveId := by
  obtain ⟨objectives, hobjectives, hadd⟩ := bind_eq_ok.mp hadd
  obtain ⟨⟨index, objective⟩, hfound, hadd⟩ := bind_eq_ok.mp hadd
  obtain ⟨next, -, hadd⟩ := bind_eq_ok.mp hadd
  obtain ⟨keyResults, hlist, hadd⟩ := bind_eq_ok.mp hadd
  obtain ⟨keyResult, hnew, hadd⟩ := bind_eq_ok.mp hadd
  obtain ⟨activity, -, hadd⟩ := bind_eq_ok.mp hadd
  cases hadd
  exact h.adds_iff hobjectives hfound hlist hnew rfl rfl

theorem OutcomesCanonical.addKeyResultKeyed_iff (h : OutcomesCanonical I documents)
    {objectiveId key path : String} {body : Record} {response : Response}
    (hadd : Service.addKeyResultKeyed I documents clock objectiveId body key path = .ok ⟨response, some after⟩) :
    OutcomesCanonical I after ↔ NamesNothing I documents objectiveId := by
  obtain ⟨⟨⟩, -, hadd⟩ := bind_eq_ok.mp hadd
  have hwork := keyed_saved hadd
  obtain ⟨objectives, hobjectives, hwork⟩ := bind_eq_ok.mp hwork
  obtain ⟨⟨index, objective⟩, hfound, hwork⟩ := bind_eq_ok.mp hwork
  obtain ⟨expected, -, hwork⟩ := bind_eq_ok.mp hwork
  obtain ⟨next, -, hwork⟩ := bind_eq_ok.mp hwork
  obtain ⟨keyResults, hlist, hwork⟩ := bind_eq_ok.mp hwork
  obtain ⟨text, -, hwork⟩ := bind_eq_ok.mp hwork
  obtain ⟨target, -, hwork⟩ := bind_eq_ok.mp hwork
  obtain ⟨keyResult, hnew, hwork⟩ := bind_eq_ok.mp hwork
  obtain ⟨activity, -, hwork⟩ := bind_eq_ok.mp hwork
  obtain ⟨data, -, hwork⟩ := bind_eq_ok.mp hwork
  obtain ⟨logged, -, hwork⟩ := bind_eq_ok.mp hwork
  cases hwork
  exact h.adds_iff hobjectives hfound hlist hnew rfl rfl

theorem get_changeField {name other : String} {check : Json → Checked Json} {body record after : Record}
    (h : changeField name check body record = .ok after) (hne : name ≠ other) :
    after.get other = record.get other := by
  unfold changeField at h
  cases hget : body.get name with
  | none =>
      rw [hget] at h
      cases h
      rfl
  | some value =>
      rw [hget] at h
      obtain ⟨admitted, -, h⟩ := bind_eq_ok.mp h
      cases h
      exact Dict.get_set_of_ne _ hne _

theorem hasKeyResultId_congr {keyResult updated : Record} (h : updated.get "id" = keyResult.get "id") (id : Json) :
    hasKeyResultId I id (.obj updated) = hasKeyResultId I id (.obj keyResult) := by
  rw [hasKeyResultId, hasKeyResultId, idText, idText, h]

/-- A key result in the place of another of the same id is counted like it. -/
theorem countP_withKeyResultAt {keyResults : List Json} {place : ℕ} {keyResult updated : Record}
    (hfound : keyResults[place]? = some (.obj keyResult)) (hid : updated.get "id" = keyResult.get "id") (id : Json) :
    (keyResults.set place (.obj updated)).countP (hasKeyResultId I id) =
      keyResults.countP (hasKeyResultId I id) := by
  obtain ⟨before, rest, hsplit, hset⟩ := split_of_getElem? hfound
  have hsame := hasKeyResultId_congr (I := I) hid id
  rw [hset, hsplit, List.countP_append, List.countP_append, List.countP_cons, List.countP_cons, hsame]

/-- An Objective with a key result in the place of another of the same id keeps its references. -/
theorem OutcomesCanonical.keepsAt (h : OutcomesCanonical I documents) {objectives keyResults : List Json}
    {objectiveId keyResultId day : String} {index place : ℕ} {objective keyResult updated : Record} {next : ℤ}
    (hobjectives : objectivesOf documents.okr = .ok objectives)
    (hfound : find I objectives objectiveId "objective" = .ok (index, objective))
    (hlist : listAt objective "key_results" = .ok keyResults)
    (hplace : find I keyResults keyResultId "key result" = .ok (place, keyResult))
    (hid : updated.get "id" = keyResult.get "id")
    (hokr : after.okr = documents.okr.set "objectives" (.arr (objectives.set index
      (.obj (touched (withKeyResultAt objective keyResults place updated) day next)))))
    (hbacklog : after.backlog = documents.backlog) : OutcomesCanonical I after := by
  apply h.keeps ⟨objectivesOf_eq_ok hobjectives, hokr, hbacklog⟩ (find_spec I hfound).1
  · rw [valueAt_touched _ _ _ (by decide) (by decide), withKeyResultAt, valueAt_set, if_neg (by decide)]
  · intro listed hlisted
    have hafter : listAt (touched (withKeyResultAt objective keyResults place updated) day next) "key_results" =
        .ok (keyResults.set place (.obj updated)) := by
      apply listAt_of_get
      rw [get_touched _ _ _ (by decide) (by decide), withKeyResultAt, Dict.get_set_self]
    rw [← Except.ok.inj (hlist.symm.trans hlisted)]
    exact ⟨_, hafter, countP_withKeyResultAt (find_spec I hplace).1 hid⟩

theorem OutcomesCanonical.patchKeyResult (h : OutcomesCanonical I documents) {objectiveId keyResultId : String}
    {body : Record}
    (hpatch : Service.patchKeyResult I documents clock objectiveId keyResultId body = .ok ⟨result, some after⟩) :
    OutcomesCanonical I after := by
  obtain ⟨objectives, hobjectives, hpatch⟩ := bind_eq_ok.mp hpatch
  obtain ⟨⟨index, objective⟩, hfound, hpatch⟩ := bind_eq_ok.mp hpatch
  obtain ⟨expected, -, hpatch⟩ := bind_eq_ok.mp hpatch
  obtain ⟨next, -, hpatch⟩ := bind_eq_ok.mp hpatch
  obtain ⟨keyResults, hlist, hpatch⟩ := bind_eq_ok.mp hpatch
  obtain ⟨⟨place, keyResult⟩, hplace, hpatch⟩ := bind_eq_ok.mp hpatch
  obtain ⟨patched, hpatched, hpatch⟩ := bind_eq_ok.mp hpatch
  obtain ⟨id, -, hpatch⟩ := bind_eq_ok.mp hpatch
  obtain ⟨activity, -, hpatch⟩ := bind_eq_ok.mp hpatch
  obtain ⟨projected, -, hpatch⟩ := bind_eq_ok.mp hpatch
  cases hpatch
  obtain ⟨first, hfirst, hpatched⟩ := bind_eq_ok.mp hpatched
  obtain ⟨second, hsecond, hpatched⟩ := bind_eq_ok.mp hpatched
  obtain ⟨third, hthird, hfourth⟩ := bind_eq_ok.mp hpatched
  have hid : patched.get "id" = keyResult.get "id" := by
    rw [get_changeField hfourth (by decide), get_changeField hthird (by decide),
      get_changeField hsecond (by decide), get_changeField hfirst (by decide)]
  exact h.keepsAt hobjectives hfound hlist hplace hid rfl rfl

theorem OutcomesCanonical.setKeyResultProgress (h : OutcomesCanonical I documents) {objectiveId keyResultId : String}
    {progress : ℤ}
    (hset : Service.setKeyResultProgress I documents clock objectiveId keyResultId progress =
      .ok ⟨result, some after⟩) :
    OutcomesCanonical I after := by
  obtain ⟨objectives, hobjectives, hset⟩ := bind_eq_ok.mp hset
  obtain ⟨⟨index, objective⟩, hfound, hset⟩ := bind_eq_ok.mp hset
  obtain ⟨next, -, hset⟩ := bind_eq_ok.mp hset
  obtain ⟨keyResults, hlist, hset⟩ := bind_eq_ok.mp hset
  obtain ⟨⟨place, keyResult⟩, hplace, hset⟩ := bind_eq_ok.mp hset
  obtain ⟨id, -, hset⟩ := bind_eq_ok.mp hset
  obtain ⟨activity, -, hset⟩ := bind_eq_ok.mp hset
  cases hset
  refine h.keepsAt hobjectives hfound hlist hplace ?_ rfl rfl
  rw [Dict.get_set_of_ne _ (by decide), Dict.get_set_of_ne _ (by decide)]

theorem OutcomesCanonical.patchObjective (h : OutcomesCanonical I documents) {objectiveId : String} {body : Record}
    (hpatch : Service.patchObjective I documents clock objectiveId body = .ok ⟨result, some after⟩) :
    OutcomesCanonical I after := by
  obtain ⟨objectives, hobjectives, hpatch⟩ := bind_eq_ok.mp hpatch
  obtain ⟨⟨index, objective⟩, hfound, hpatch⟩ := bind_eq_ok.mp hpatch
  obtain ⟨expected, -, hpatch⟩ := bind_eq_ok.mp hpatch
  obtain ⟨next, -, hpatch⟩ := bind_eq_ok.mp hpatch
  obtain ⟨patched, hpatched, hpatch⟩ := bind_eq_ok.mp hpatch
  obtain ⟨id, -, hpatch⟩ := bind_eq_ok.mp hpatch
  obtain ⟨activity, -, hpatch⟩ := bind_eq_ok.mp hpatch
  obtain ⟨projected, -, hpatch⟩ := bind_eq_ok.mp hpatch
  cases hpatch
  obtain ⟨first, hfirst, hpatched⟩ := bind_eq_ok.mp hpatched
  obtain ⟨second, hsecond, hthird⟩ := bind_eq_ok.mp hpatched
  have hkept (name : String) (hname : name ∉ ["objective", "quarter", "status", "updated_at", "revision"]) :
      (touched patched (clock.today 0) next).get name = objective.get name := by
    simp only [List.mem_cons, List.not_mem_nil, or_false, not_or] at hname
    obtain ⟨hobjective, hquarter, hstatus, hday, hrevision⟩ := hname
    rw [get_touched _ _ _ hday hrevision, get_changeField hthird (Ne.symm hstatus),
      get_changeField hsecond (Ne.symm hquarter), get_changeField hfirst (Ne.symm hobjective)]
  have hstep : Rewrites documents (withObjective documents objectives index
      (touched patched (clock.today 0) next) activity) objectives
      (objectives.set index (.obj (touched patched (clock.today 0) next))) :=
    ⟨objectivesOf_eq_ok hobjectives, rfl, rfl⟩
  apply h.keeps hstep (find_spec I hfound).1
  · rw [valueAt, valueAt, hkept "id" (by decide)]
  · intro keyResults hkeyResults
    have hlist : listAt (touched patched (clock.today 0) next) "key_results" = .ok keyResults := by
      rw [listAt, hkept "key_results" (by decide)]
      exact hkeyResults
    exact ⟨keyResults, hlist, fun _ ↦ rfl⟩

end Objectives

/-! ## Runs -/

/-- A request to one of the writers of references, Objectives and key results. What the clock says
about the quarter is part of a request that asks for it. -/
inductive OutcomeRequest where
  | patchTask (taskId : String) (patch : Json) (origin : Option String)
  | linkTask (objectiveId taskId : String)
  | addObjective (currentQuarter text : String) (quarter : Option String)
  | createObjective (currentQuarter : String) (body : Record) (key path : String)
  | patchObjective (objectiveId : String) (body : Record)
  | addKeyResult (objectiveId text target : String)
  | addKeyResultKeyed (objectiveId : String) (body : Record) (key path : String)
  | patchKeyResult (objectiveId keyResultId : String) (body : Record)
  | setKeyResultProgress (objectiveId keyResultId : String) (progress : ℤ)

section Runs

variable (P : Platform)

/-- The documents a request saves. -/
def serveOutcome (documents : Documents) : Clock × OutcomeRequest → Option Documents
  | (clock, .patchTask taskId patch origin) =>
      performed (Service.patchTask P documents clock taskId patch origin)
  | (clock, .linkTask objectiveId taskId) =>
      performed (Service.linkTask P.toInterpreter documents clock objectiveId taskId)
  | (clock, .addObjective currentQuarter text quarter) =>
      performed (Service.addObjective P.toInterpreter documents clock currentQuarter text quarter)
  | (clock, .createObjective currentQuarter body key path) =>
      served (Service.createObjective P.toInterpreter documents clock currentQuarter body key path)
  | (clock, .patchObjective objectiveId body) =>
      performed (Service.patchObjective P.toInterpreter documents clock objectiveId body)
  | (clock, .addKeyResult objectiveId text target) =>
      performed (Service.addKeyResult P.toInterpreter documents clock objectiveId text target)
  | (clock, .addKeyResultKeyed objectiveId body key path) =>
      served (Service.addKeyResultKeyed P.toInterpreter documents clock objectiveId body key path)
  | (clock, .patchKeyResult objectiveId keyResultId body) =>
      performed (Service.patchKeyResult P.toInterpreter documents clock objectiveId keyResultId body)
  | (clock, .setKeyResultProgress objectiveId keyResultId progress) =>
      performed (Service.setKeyResultProgress P.toInterpreter documents clock objectiveId keyResultId progress)

/-- The condition on a step: a key result it adds gets an id that no reference names. -/
def AddsUnnamed (documents : Documents) : Clock × OutcomeRequest → Prop
  | (_, .addKeyResult objectiveId _ _) => NamesNothing P.toInterpreter documents objectiveId
  | (_, .addKeyResultKeyed objectiveId _ _ _) => NamesNothing P.toInterpreter documents objectiveId
  | _ => True

variable {P}

theorem serveOutcome_canonical_iff {documents after : Documents} {request : Clock × OutcomeRequest}
    (h : OutcomesCanonical P.toInterpreter documents) (hserve : serveOutcome P documents request = some after) :
    OutcomesCanonical P.toInterpreter after ↔ AddsUnnamed P documents request := by
  obtain ⟨clock, request⟩ := request
  cases request with
  | patchTask taskId patch origin =>
      obtain ⟨result, hpatch⟩ := performed_eq_some hserve
      exact iff_of_true (h.patchTask hpatch) trivial
  | linkTask objectiveId taskId =>
      obtain ⟨result, hlink⟩ := performed_eq_some hserve
      exact iff_of_true (h.linkTask hlink) trivial
  | addObjective currentQuarter text quarter =>
      obtain ⟨result, hadd⟩ := performed_eq_some hserve
      exact iff_of_true (h.addObjective hadd) trivial
  | createObjective currentQuarter body key path =>
      obtain ⟨response, hcreate⟩ := served_eq_some hserve
      exact iff_of_true (h.createObjective hcreate) trivial
  | patchObjective objectiveId body =>
      obtain ⟨result, hpatch⟩ := performed_eq_some hserve
      exact iff_of_true (h.patchObjective hpatch) trivial
  | addKeyResult objectiveId text target =>
      obtain ⟨result, hadd⟩ := performed_eq_some hserve
      exact h.addKeyResult_iff hadd
  | addKeyResultKeyed objectiveId body key path =>
      obtain ⟨response, hadd⟩ := served_eq_some hserve
      exact h.addKeyResultKeyed_iff hadd
  | patchKeyResult objectiveId keyResultId body =>
      obtain ⟨result, hpatch⟩ := performed_eq_some hserve
      exact iff_of_true (h.patchKeyResult hpatch) trivial
  | setKeyResultProgress objectiveId keyResultId progress =>
      obtain ⟨result, hset⟩ := performed_eq_some hserve
      exact iff_of_true (h.setKeyResultProgress hset) trivial

end Runs

/-- From documents with canonical references, a run saves nothing but documents with canonical
references exactly when no key result is added under an id that a reference names already. -/
theorem outcomes_canonical_iff (P : Platform) (start : Documents)
    (hstart : OutcomesCanonical P.toInterpreter start) (run : List (Clock × OutcomeRequest)) :
    (∀ after ∈ Requests.saved (serveOutcome P) start run, OutcomesCanonical P.toInterpreter after) ↔
      ∀ step ∈ Requests.savingSteps (serveOutcome P) start run, AddsUnnamed P step.1 step.2 :=
  Requests.forall_saved_iff_of_good hstart fun _ _ _ hgood hserve ↦ serveOutcome_canonical_iff hgood hserve

/-! ## An id with a blank -/

def blankTask : Record := sampleTask ++ [("objective_ids", .arr [.str "O-1"]),
  ("key_result_refs", .arr [KeyResultRef.toJson ("O-1", "KR-1")])]

def blankObjective : Record := [("id", .str "O-1"), ("key_results", .arr [.obj [("id", .str " KR-1")]])]

/-- A Task refers to a key result that its Objective stores with a blank before the id. -/
def blankDocuments : Documents := { sampleDocuments with
  backlog := [("version", .int 3), ("tasks", .arr [.obj blankTask])]
  okr := [("version", .int 1), ("objectives", .arr [.obj blankObjective])] }

/-- The Objective is given another key result. -/
def addingRun : List (Clock × OutcomeRequest) := [
  (sampleClock (sampleMoment 40), .addKeyResult "O-1" "Ship" "")]

theorem blankDocuments_canonical : OutcomesCanonical asciiInterpreter blankDocuments := by
  refine ⟨[.obj blankTask], [.obj blankObjective], rfl, rfl, fun task htask ↦ ⟨[("O-1", "KR-1")], ?_⟩⟩
  rw [List.mem_singleton, Json.obj.injEq] at htask
  rw [htask]
  constructor
  · rfl
  · exact List.pairwise_singleton _ _
  · intro ref href
    rw [List.mem_singleton] at href
    rw [href]
    constructor
    · exact ⟨[.str "O-1"], rfl, List.mem_singleton_self _⟩
    · exact ⟨blankObjective, [.obj [("id", .str " KR-1")]], objectivesWithId_named rfl [], rfl, by decide +kernel⟩

theorem outcomes_canonical_sample :
    (∀ after ∈ Requests.saved (serveOutcome (asciiPlatform [] [])) blankDocuments addingRun,
      OutcomesCanonical asciiInterpreter after) ↔
      ∀ step ∈ Requests.savingSteps (serveOutcome (asciiPlatform [] [])) blankDocuments addingRun,
        AddsUnnamed (asciiPlatform [] []) step.1 step.2 :=
  outcomes_canonical_iff (asciiPlatform [] []) blankDocuments blankDocuments_canonical addingRun

/-- The new key result gets the id that the reference names. -/
theorem addingRun_ambiguous : OutcomesCanonical asciiInterpreter blankDocuments ∧
    ∃ after ∈ Requests.saved (serveOutcome (asciiPlatform [] [])) blankDocuments addingRun,
      ¬OutcomesCanonical asciiInterpreter after := by
  apply And.intro blankDocuments_canonical
  have hsaves : (serveOutcome (asciiPlatform [] []) blankDocuments
      (sampleClock (sampleMoment 40), .addKeyResult "O-1" "Ship" "")).isSome = true := by decide
  obtain ⟨after, hafter⟩ := Option.isSome_iff_exists.mp hsaves
  refine ⟨after, by simp [addingRun, Requests.saved, hafter], fun hcanonical ↦ ?_⟩
  have hunnamed := (serveOutcome_canonical_iff blankDocuments_canonical hafter).mp hcanonical
  apply hunnamed (.str "O-1") "KR-1" rfl
  exact ⟨[.obj blankTask], blankTask, [("O-1", "KR-1")], ("O-1", "KR-1"), rfl, List.mem_singleton_self _, rfl,
    List.mem_singleton_self _, rfl, rfl⟩

end WorkStack.Service
