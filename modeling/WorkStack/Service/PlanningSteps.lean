import WorkStack.Python.Mapping
import WorkStack.Service.Advancing

/-!
# Appending to the planning log

A transition that is appended to a log that projects, together with the revision of its Task, gives a log
that projects again, with the new status. The facts before it are judged as they were: no check asks more of
a Task than its identity, its first status, and a revision that is not too small.
-/

namespace WorkStack.Service

open Effect.Outcome Python

variable {I : Interpreter}

/-! ## Timestamps -/

/-- The clock writes seconds of UTC. -/
theorem isUtcSecond_utcNow (m : Moment) : isUtcSecond m.utcNow = true := by
  have hdays := daysInMonth_le m.year m.month
  obtain ⟨_, hyear, _, hmonth, _, hday⟩ := m.isDate
  obtain ⟨hhour, hminute, hsecond⟩ := m.isTime
  have two : ∀ n, n < 100 → ∃ a b, zeroPadded 2 n = [a, b] ∧ a.isDigit ∧ b.isDigit := by
    intro n hn
    obtain ⟨a, b, hab⟩ := List.length_eq_two.mp (length_zeroPadded Nat.two_pos hn)
    have hdigit : ∀ c ∈ zeroPadded 2 n, c.isDigit := fun c hc ↦ isDigit_of_mem_zeroPadded hc
    rw [hab] at hdigit
    exact ⟨a, b, hab, hdigit a (by simp), hdigit b (by simp)⟩
  obtain ⟨a, b, c, d, hy⟩ : ∃ a b c d, zeroPadded 4 m.year = [a, b, c, d] := by
    have hlength : (zeroPadded 4 m.year).length = 4 := length_zeroPadded (by omega) (by omega)
    match zeroPadded 4 m.year, hlength with
    | [a, b, c, d], _ => exact ⟨a, b, c, d, rfl⟩
  have hdigit : ∀ e ∈ zeroPadded 4 m.year, e.isDigit := fun e he ↦ isDigit_of_mem_zeroPadded he
  rw [hy] at hdigit
  simp only [List.mem_cons, List.not_mem_nil, or_false, forall_eq_or_imp, forall_eq] at hdigit
  obtain ⟨ha, hb, hc, hd⟩ := hdigit
  obtain ⟨_, _, hmo, hmonths, hmonths'⟩ := two m.month (by omega)
  obtain ⟨_, _, hday', hdays, hdays'⟩ := two m.day (by omega)
  obtain ⟨_, _, hh, hhours, hhours'⟩ := two m.hour (by omega)
  obtain ⟨_, _, hmi, hminutes, hminutes'⟩ := two m.minute (by omega)
  obtain ⟨_, _, hs, hseconds, hseconds'⟩ := two m.second (by omega)
  simp [isUtcSecond, Moment.utcNow, Moment.isoformat, Moment.dateText, hy, hmo, hday', hh, hmi, hs, fitsShape, ha, hb,
    hc, hd, hmonths, hmonths', hdays, hdays', hhours, hhours', hminutes, hminutes', hseconds, hseconds']

/-! ## Tasks by their ids -/

/-- The ids of the Tasks of a list, as far as they have one. -/
def taskIds (tasks : List Json) : List String :=
  tasks.filterMap fun
    | .obj task =>
        match Dict.get task "id" with
        | some (.str id) => some id
        | _ => none
    | _ => none

theorem get_eq_none {α : Type} {key : String} {d : Dict String α} (h : key ∉ Dict.keys d) : Dict.get d key = none := by
  rwa [Dict.mem_keys, Option.not_isSome_iff_eq_none] at h

/-- Tasks with distinct ids are indexed in their order. -/
theorem indexTasks_eq {tasks : List Json} {indexed result : Dict String Record}
    (hids : (Dict.keys indexed ++ taskIds tasks).Nodup) (h : taskIndex.indexTasks indexed tasks = .ok result) :
    ∃ records : List (String × Record), result = indexed ++ records ∧
      tasks = records.map (fun record ↦ .obj record.2) ∧ records.map Prod.fst = taskIds tasks ∧
        ∀ record ∈ records, Dict.get record.2 "id" = some (.str record.1) := by
  induction tasks generalizing indexed with
  | nil =>
      cases h
      exact ⟨[], (List.append_nil _).symm, rfl, rfl, fun record hrecord ↦ absurd hrecord List.not_mem_nil⟩
  | cons item tasks ih =>
      cases item with
      | obj task =>
          simp only [taskIndex.indexTasks] at h
          split at h
          · next id hid =>
              have htaskIds : taskIds (.obj task :: tasks) = id :: taskIds tasks := by
                simp [taskIds, hid]
              rw [htaskIds] at hids
              have hnew : id ∉ Dict.keys indexed := by
                intro hmem
                exact (List.nodup_append.mp hids).2.2 id hmem id (List.mem_cons_self ..) rfl
              have hset : Dict.set id task indexed = indexed ++ [(id, task)] := Dict.set_of_get_none (get_eq_none hnew) task
              rw [hset] at h
              have hids' : (Dict.keys (indexed ++ [(id, task)]) ++ taskIds tasks).Nodup := by
                simpa [Dict.keys] using hids
              obtain ⟨records, rfl, rfl, hnames, hgets⟩ := ih hids' h
              refine ⟨(id, task) :: records, by simp, rfl, by rw [List.map_cons, hnames, htaskIds], ?_⟩
              rw [List.forall_mem_cons]
              exact ⟨hid, hgets⟩
          · cases h
      | _ => cases h

/-- Tasks with distinct ids are indexed as they are listed. -/
theorem taskIndex_of_records {records : List (String × Record)} (hnodup : (records.map Prod.fst).Nodup)
    (hgets : ∀ record ∈ records, Dict.get record.2 "id" = some (.str record.1)) {indexed : Dict String Record}
    (hnew : ∀ record ∈ records, record.1 ∉ Dict.keys indexed) :
    taskIndex.indexTasks indexed (records.map fun record ↦ .obj record.2) = .ok (indexed ++ records) := by
  induction records generalizing indexed with
  | nil => rw [List.map_nil, List.append_nil, taskIndex.indexTasks]
  | cons record records ih =>
      obtain ⟨hget, hgets⟩ := List.forall_mem_cons.mp hgets
      obtain ⟨hfresh, hnew⟩ := List.forall_mem_cons.mp hnew
      rw [List.map_cons, List.nodup_cons] at hnodup
      rw [List.map_cons]
      simp only [taskIndex.indexTasks, hget, Dict.set_of_get_none (get_eq_none hfresh)]
      rw [ih hnodup.2 hgets, List.append_assoc, List.singleton_append]
      intro other hother hmem
      rw [Dict.keys, List.map_append, List.mem_append] at hmem
      rcases hmem with hmem | hmem
      · exact hnew other hother hmem
      · rw [List.map_singleton, List.mem_singleton] at hmem
        exact hnodup.1 (by rw [← hmem]; exact List.mem_map_of_mem hother)

/-! ## Facts that are judged again -/

/-- A Task of which a fact is judged as before: its identity and first status are the same, and its revision
is not smaller. -/
structure Judged (task after : Record) : Prop where
  uid : valueAt after "uid" = valueAt task "uid"
  status : valueAt after "status" = valueAt task "status"
  revision : ∀ n, ((task.get "revision").getD (.int (-1))).int? = some n →
    ∃ m, ((after.get "revision").getD (.int (-1))).int? = some m ∧ n ≤ m

theorem judged_refl (task : Record) : Judged task task := ⟨rfl, rfl, fun n h ↦ ⟨n, h, le_refl n⟩⟩

/-- A fact continues its chain, and its Task is not behind it. -/
theorem boundedRevision_eq_ok {task : Record} {baseline : Checked ℤ} {newRevision : ℤ} :
    (baseline >>= fun revision ↦
      match ((task.get "revision").getD (.int (-1))).int? with
        | some current =>
            if current < revision then planningError "planning status fact exceeds task revision"
            else pure revision
        | none => fault "TypeError") = .ok newRevision ↔
      baseline = .ok newRevision ∧
        ∃ current, ((task.get "revision").getD (.int (-1))).int? = some current ∧ newRevision ≤ current := by
  rw [bind_eq_ok]
  cases ((task.get "revision").getD (.int (-1))).int? with
  | none => simp [fault]
  | some current =>
      simp only [Option.some.injEq, exists_eq_left']
      constructor
      · rintro ⟨revision, hrevision, h⟩
        split at h
        · cases h
        · cases h
          exact ⟨hrevision, by omega⟩
      · rintro ⟨hrevision, hle⟩
        exact ⟨newRevision, hrevision, by rw [if_neg (by omega)]; rfl⟩

theorem validateFactChain_eq_ok {fact task : Record} {previous : Option Head} {status : String} {newRevision : ℤ} :
    validateFactChain fact previous task status = .ok newRevision ↔
      (match previous with
        | none => validateBootstrap fact task status
        | some previous => validateTransition fact previous status) = .ok newRevision ∧
      ∃ current, ((task.get "revision").getD (.int (-1))).int? = some current ∧ newRevision ≤ current := by
  cases previous with
  | none => exact boundedRevision_eq_ok
  | some previous => exact boundedRevision_eq_ok

theorem validateFactChain_judged {fact task after : Record} (h : Judged task after) {previous : Option Head}
    {status : String} {newRevision : ℤ} (hchain : validateFactChain fact previous task status = .ok newRevision) :
    validateFactChain fact previous after status = .ok newRevision := by
  obtain ⟨hrevision, current, hcurrent, hle⟩ := validateFactChain_eq_ok.mp hchain
  obtain ⟨m, hm, hlater⟩ := h.revision current hcurrent
  refine validateFactChain_eq_ok.mpr ⟨?_, m, hm, hle.trans hlater⟩
  cases previous with
  | some previous => exact hrevision
  | none =>
      simp only [validateBootstrap, h.status] at hrevision ⊢
      exact hrevision

/-- The Tasks of a dictionary, each as before or judged as before. -/
def AllJudged (tasks after : Dict String Record) : Prop :=
  ∀ id task, tasks.get id = some task → ∃ task', after.get id = some task' ∧ Judged task task'

variable {heads : Dict String Head} {index : ℕ}

theorem validateFact_judged {tasks after : Dict String Record} (h : AllJudged tasks after) {candidate : Json}
    {result : String × Head} (hfact : validateFact I tasks heads index candidate = .ok result) :
    validateFact I after heads index candidate = .ok result := by
  obtain ⟨⟨fact, id⟩, henvelope, hfact⟩ := bind_eq_ok.mp hfact
  obtain ⟨⟨taskId, task, status⟩, hnamed, hfact⟩ := bind_eq_ok.mp hfact
  obtain ⟨_, hprovenance, hfact⟩ := bind_eq_ok.mp hfact
  obtain ⟨newRevision, hchain, hfact⟩ := bind_eq_ok.mp hfact
  have hafter : ∃ task', factTaskAndStatus fact after = .ok (taskId, task', status) ∧ Judged task task' := by
    unfold factTaskAndStatus at hnamed ⊢
    split at hnamed
    · next name hname =>
        split at hnamed
        · next named hget =>
            obtain ⟨named', hget', hjudged⟩ := h name named hget
            rw [hget']
            simp only [hjudged.uid]
            split at hnamed
            · next huid =>
                rw [if_pos huid]
                split at hnamed
                · split at hnamed
                  · next hstatus =>
                      cases hnamed
                      rw [if_pos hstatus]
                      exact ⟨named', rfl, hjudged⟩
                  · cases hnamed
                · cases hnamed
            · cases hnamed
        · cases hnamed
    · cases hnamed
  obtain ⟨task', hnamed', hjudged⟩ := hafter
  exact bind_eq_ok.mpr ⟨_, henvelope, bind_eq_ok.mpr ⟨_, hnamed', bind_eq_ok.mpr ⟨_, hprovenance,
    bind_eq_ok.mpr ⟨newRevision, validateFactChain_judged hjudged hchain, hfact⟩⟩⟩⟩

variable {facts : List Json}

theorem replayFacts_judged {tasks after : Dict String Record} (h : AllJudged tasks after)
    {heads result : Dict String Head} (hreplay : replayFacts I tasks index heads facts = .ok result) :
    replayFacts I after index heads facts = .ok result := by
  induction facts generalizing index heads with
  | nil => exact hreplay
  | cons candidate facts ih =>
      obtain ⟨⟨taskId, head⟩, hfact, hreplay⟩ := bind_eq_ok.mp hreplay
      exact bind_eq_ok.mpr ⟨_, validateFact_judged h hfact, ih hreplay⟩

variable {tasks : Dict String Record}

theorem replayFacts_concat {candidate : Json} {heads result : Dict String Head} {taskId : String} {head : Head}
    (hreplay : replayFacts I tasks index heads facts = .ok result)
    (hfact : validateFact I tasks result (index + facts.length) candidate = .ok (taskId, head)) :
    replayFacts I tasks index heads (facts ++ [candidate]) = .ok (result.set taskId head) := by
  induction facts generalizing index heads with
  | nil =>
      cases hreplay
      exact bind_eq_ok.mpr ⟨_, hfact, rfl⟩
  | cons other facts ih =>
      obtain ⟨⟨otherId, otherHead⟩, hother, hreplay⟩ := bind_eq_ok.mp hreplay
      refine bind_eq_ok.mpr ⟨_, hother, ih hreplay ?_⟩
      rw [List.length_cons] at hfact
      rw [show index + 1 + facts.length = index + (facts.length + 1) by omega]
      exact hfact

/-- A fact names a Task that is there. -/
theorem factTaskAndStatus_get {fact : Record} {taskId status : String} {task : Record}
    (h : factTaskAndStatus fact tasks = .ok (taskId, task, status)) : tasks.get taskId = some task := by
  unfold factTaskAndStatus at h
  split at h
  · split at h
    · next hget =>
        split at h
        · split at h
          · split at h
            · cases h
              exact hget
            · cases h
          · cases h
        · cases h
    · cases h
  · cases h

/-- No head is ahead of its Task. -/
def HeadsBounded (tasks : Dict String Record) (heads : Dict String Head) : Prop :=
  ∀ id head, heads.get id = some head → ∃ task n, tasks.get id = some task ∧
    ((task.get "revision").getD (.int (-1))).int? = some n ∧ head.newRevision ≤ n

theorem replayFacts_bounded {heads result : Dict String Head} (hheads : HeadsBounded tasks heads)
    (hreplay : replayFacts I tasks index heads facts = .ok result) : HeadsBounded tasks result := by
  induction facts generalizing index heads with
  | nil =>
      cases hreplay
      exact hheads
  | cons candidate facts ih =>
      obtain ⟨⟨taskId, head⟩, hfact, hreplay⟩ := bind_eq_ok.mp hreplay
      refine ih ?_ hreplay
      intro id other hother
      rw [Dict.get_set] at hother
      split at hother
      · next hid =>
          cases hother
          subst hid
          obtain ⟨⟨fact, factId⟩, -, hfact⟩ := bind_eq_ok.mp hfact
          obtain ⟨⟨name, task, status⟩, hnamed, hfact⟩ := bind_eq_ok.mp hfact
          obtain ⟨_, -, hfact⟩ := bind_eq_ok.mp hfact
          obtain ⟨newRevision, hchain, hfact⟩ := bind_eq_ok.mp hfact
          simp only [pure, Except.pure, Except.ok.injEq, Prod.mk.injEq] at hfact
          obtain ⟨rfl, rfl⟩ := hfact
          have hget := factTaskAndStatus_get hnamed
          obtain ⟨-, n, hn, hle⟩ := validateFactChain_eq_ok.mp hchain
          exact ⟨task, n, hget, hn, hle⟩
      · exact hheads id other hother

/-! ## Heads -/

variable {projection : Dict String String}

/-- The heads of a projection are those that the Tasks name. -/
theorem projectHeads_eq_ok (h : projectHeads heads tasks = .ok projection) :
    projection.map Prod.fst = tasks.map Prod.fst ∧
      ∀ entry ∈ tasks, ∃ head, heads.get entry.1 = some head ∧ valueAt entry.2 "status_fact_id" = .str head.id ∧
        (entry.1, head.status) ∈ projection := by
  induction tasks generalizing projection with
  | nil =>
      cases h
      exact ⟨rfl, fun entry hentry ↦ absurd hentry List.not_mem_nil⟩
  | cons entry tasks ih =>
      obtain ⟨id, task⟩ := entry
      simp only [projectHeads] at h
      split at h
      · next head hhead =>
          split at h
          · next hsame =>
              obtain ⟨rest, hrest, h⟩ := bind_eq_ok.mp h
              cases h
              obtain ⟨hnames, hheads⟩ := ih hrest
              refine ⟨by rw [List.map_cons, List.map_cons, hnames], ?_⟩
              rw [List.forall_mem_cons]
              constructor
              · exact ⟨head, hhead, Json.same_str_left.mp hsame, List.mem_cons_self ..⟩
              · intro other hother
                obtain ⟨otherHead, hget, hid, hmem⟩ := hheads other hother
                exact ⟨otherHead, hget, hid, List.mem_cons_of_mem _ hmem⟩
          · cases h
      · cases h

/-- Tasks that name their heads are projected to the statuses of the heads. -/
theorem projectHeads_ok
    (h : ∀ entry ∈ tasks, ∃ head, heads.get entry.1 = some head ∧ valueAt entry.2 "status_fact_id" = .str head.id) :
    ∃ projection, projectHeads heads tasks = .ok projection := by
  induction tasks with
  | nil => exact ⟨[], rfl⟩
  | cons entry tasks ih =>
      obtain ⟨⟨head, hhead, hid⟩, hrest⟩ := List.forall_mem_cons.mp h
      obtain ⟨projection, hprojection⟩ := ih hrest
      obtain ⟨id, task⟩ := entry
      refine ⟨(id, head.status) :: projection, ?_⟩
      simp only [projectHeads, hhead, hid, Json.same_str, beq_self_eq_true, if_true, hprojection, ok_bind]
      rfl

/-- A projection gives each of its Tasks the status of its head. -/
theorem get_projectHeads (h : projectHeads heads tasks = .ok projection) (id : String) :
    projection.get id = if (tasks.get id).isSome then (heads.get id).map Head.status else none := by
  induction tasks generalizing projection with
  | nil =>
      cases h
      rfl
  | cons entry tasks ih =>
      obtain ⟨taskId, task⟩ := entry
      simp only [projectHeads] at h
      split at h
      · next head hhead =>
          split at h
          · obtain ⟨rest, hrest, h⟩ := bind_eq_ok.mp h
            cases h
            rw [Dict.get_cons, Dict.get_cons]
            by_cases hid : taskId = id
            · rw [if_pos hid, if_pos hid, ← hid, hhead]
              rfl
            · rw [if_neg hid, if_neg hid, ih hrest]
          · cases h
      · cases h

/-! ## A transition -/

theorem factNumber_nextFactId (facts : List Json) : factNumber (nextFactId facts) = some (facts.length + 1) := by
  unfold factNumber nextFactId
  rw [String.toList_ofList]
  change (if 6 ≤ (zeroPadded 6 (facts.length + 1)).length then
    number asciiDigit (zeroPadded 6 (facts.length + 1)) else none) = _
  rw [if_pos (le_length_zeroPadded 6 _), number_zeroPadded asciiDigit_readsAscii]

/-- A transition of a Task, as the services append it: from its status and revision to the next ones. -/
structure Transition (task : Record) (id uid before status : String) (current next : ℤ) : Prop where
  named : task.get "id" = some (.str id)
  identified : task.get "uid" = some (.str uid)
  held : revision task = .ok current
  advances : next = current + 1 ∧ next ≤ maxRevision
  known : status ∈ taskStatuses
  changes : status ≠ before

/-- The fact of a transition is accepted after the log that its Task was projected from. -/
theorem validateFact_transition {task updated fact : Record} {id uid before status provenance : String}
    {current next : ℤ} {m : Moment} {head : Head} {headId : Json}
    (h : Transition task id uid before status current next) (hget : tasks.get id = some updated)
    (huid : updated.get "uid" = task.get "uid") (hrevision : updated.get "revision" = some (.int next))
    (hhead : heads.get id = some head) (hheadId : headId = .str head.id) (hbefore : head.status = before)
    (hbound : head.newRevision ≤ current) (hprovenance : provenance ∈ ["cli", "api.v1", "api.legacy"])
    (hfact : planningFact (nextFactId facts) task ⟨headId, .int current, .str before⟩ (.int next) (.str status) m.utcNow
      "local.user" provenance = .ok fact) :
    validateFact I tasks heads (1 + facts.length) (.obj fact) = .ok (id, ⟨nextFactId facts, next, status⟩) := by
  obtain ⟨taskId, htaskId, hrest⟩ := bind_eq_ok.mp hfact
  obtain ⟨taskUid, htaskUid, hrest⟩ := bind_eq_ok.mp hrest
  clear hfact
  simp only [pure, Except.pure, Except.ok.injEq] at hrest
  rw [field_eq_ok, h.named, Option.some.injEq] at htaskId
  rw [field_eq_ok, h.identified, Option.some.injEq] at htaskUid
  subst htaskId htaskUid hheadId hbefore
  obtain ⟨-, hlow, hhigh⟩ := revision_bounds h.held
  obtain ⟨hnext, hmax⟩ := h.advances
  have hnumber : factNumber (nextFactId facts) = some (1 + facts.length) := by
    rw [factNumber_nextFactId, Nat.add_comm]
  have hvalue : valueAt updated "uid" = .str uid := valueAt_of_get (huid.trans h.identified)
  have htimestamp : validateFactTimestamp I (.str m.utcNow) = .ok () := by
    simp only [validateFactTimestamp, isUtcSecond_utcNow, I.parseUtc_utcNow, Option.isSome_some, and_self, if_true]
  have hallowed : provenance ∈ (allowedProvenance.lookup "local.user").getD [] := hprovenance
  have henvelope : validateFactEnvelope (.obj fact) (1 + facts.length) = .ok (fact, nextFactId facts) := by
    rw [← hrest]
    change (if factNumber (nextFactId facts) = some (1 + facts.length) then
      if Json.same (.str factType) (.str factType) then _ else _ else _) = _
    rw [if_pos hnumber, if_pos (Json.same_str_left.mpr rfl)]
  have hnamed : factTaskAndStatus fact tasks = .ok (id, updated, status) := by
    have hfactUid : valueAt fact "task_uid" = .str uid := by
      rw [← hrest]
      rfl
    have hfactId : fact.get "task_id" = some (.str id) := by
      rw [← hrest]
      rfl
    have hfactStatus : fact.get "status" = some (.str status) := by
      rw [← hrest]
      rfl
    simp only [factTaskAndStatus, hfactId, hfactUid, hfactStatus, hget, hvalue, Json.same_str,
      beq_self_eq_true, if_true, h.known]
  have hsource : validateFactProvenance I fact = .ok () := by
    rw [← hrest]
    change (validateFactTimestamp I (.str m.utcNow) >>= fun _ ↦
      if provenance ∈ (allowedProvenance.lookup "local.user").getD [] then .ok ()
      else planningError "planning status provenance is invalid") = _
    rw [htimestamp, ok_bind, if_pos hallowed]
  have hchain : validateFactChain fact (some head) updated status = .ok next := by
    refine validateFactChain_eq_ok.mpr ⟨?_, next, by rw [hrevision]; rfl, le_refl next⟩
    have hprior : factRevision (.int current) "prior_revision" = .ok current := by
      simp only [factRevision, hlow, hhigh, and_self, if_true]
    have hnew : factRevision (.int next) "new_revision" = .ok next := by
      have hlow' : 0 ≤ next := by omega
      simp only [factRevision, hlow', hmax, and_self, if_true]
    rw [← hrest]
    change (if Json.same (.str head.id) (.str head.id) then
      factRevision (.int current) "prior_revision" >>= fun priorRevision ↦
        factRevision (.int next) "new_revision" >>= fun newRevision ↦
          if newRevision ≠ priorRevision + 1 ∨ priorRevision < head.newRevision ∨
              ¬Json.same (.str head.status) (.str head.status) ∨ status = head.status then
            planningError "planning status transition is invalid"
          else pure newRevision
      else planningError "planning status predecessor is invalid") = _
    rw [hprior, hnew]
    simp only [Json.same_str, beq_self_eq_true, if_true, ok_bind]
    rw [if_neg]
    · rfl
    · simp only [not_true_eq_false, false_or, not_or]
      exact ⟨by omega, by omega, h.changes⟩
  refine bind_eq_ok.mpr ⟨_, henvelope, bind_eq_ok.mpr ⟨_, hnamed, bind_eq_ok.mpr ⟨(), hsource,
    bind_eq_ok.mpr ⟨next, ?_, rfl⟩⟩⟩⟩
  rw [hhead]
  exact hchain

/-- The Task that a transition leaves in the backlog, with the head that was appended. -/
structure Settles (task appended updated : Record) (next : ℤ) : Prop where
  id : updated.get "id" = task.get "id"
  uid : updated.get "uid" = task.get "uid"
  status : updated.get "status" = task.get "status"
  head : updated.get "status_fact_id" = appended.get "status_fact_id"
  revision : updated.get "revision" = some (.int next)

/-- The entry of a key in a dictionary that holds the key once. -/
theorem get_middle {α : Type} {before rest : Dict String α} {id : String} {value : α}
    (hnew : id ∉ Dict.keys before) (key : String) :
    Dict.get (before ++ (id, value) :: rest) key =
      if key = id then some value else (Dict.get before key).or (Dict.get rest key) := by
  rw [Dict.get_append, Dict.get_cons]
  by_cases hkey : key = id
  · rw [if_pos hkey, hkey, get_eq_none hnew, if_pos rfl, Option.none_or]
  · rw [if_neg hkey, if_neg (Ne.symm hkey)]

variable {task updated : Record}

theorem allJudged_replace {before rest : Dict String Record} {id : String} (hnew : id ∉ Dict.keys before)
    (h : Judged task updated) :
    AllJudged (before ++ (id, task) :: rest) (before ++ (id, updated) :: rest) := by
  intro key record hget
  rw [get_middle hnew] at hget ⊢
  by_cases hkey : key = id
  · rw [if_pos hkey] at hget ⊢
    cases hget
    exact ⟨updated, rfl, h⟩
  · rw [if_neg hkey] at hget ⊢
    exact ⟨record, hget, judged_refl record⟩

/-- A Task that gets the next revision is judged as before. -/
theorem judged_of_settles {task appended updated : Record} {id uid before status : String} {current next : ℤ}
    (h : Transition task id uid before status current next) (hsettles : Settles task appended updated next) :
    Judged task updated := by
  constructor
  · rw [valueAt, valueAt, hsettles.uid]
  · rw [valueAt, valueAt, hsettles.status]
  · intro n hn
    rw [(revision_bounds h.held).1] at hn
    cases hn
    refine ⟨next, by rw [hsettles.revision]; rfl, ?_⟩
    have hnext := h.advances.1
    omega

/-- A record in the place of a Task of a backlog, and the Tasks by their ids before and after it. -/
theorem taskIndex_replaced {backlog : Record} {tasks : List Json} {records : Dict String Record} {id : String}
    (hlisted : listAt backlog "tasks" = .ok tasks) (hids : (taskIds tasks).Nodup)
    (hfound : tasks[index]? = some (.obj task)) (hnamed : task.get "id" = some (.str id))
    (hid : updated.get "id" = task.get "id") (hrecords : taskIndex backlog = .ok records) :
    ∃ before rest, records = before ++ (id, task) :: rest ∧ (Dict.keys records).Nodup ∧ id ∉ Dict.keys before ∧
      taskIndex (backlog.set "tasks" (.arr (tasks.set index (.obj updated)))) = .ok (before ++ (id, updated) :: rest) := by
  have hindexed : taskIndex.indexTasks [] tasks = .ok records := by
    unfold taskIndex at hrecords
    split at hrecords
    · next other hother =>
        rw [listAt_of_get hother] at hlisted
        cases hlisted
        exact hrecords
    · cases hrecords
  obtain ⟨listed, hlistedRecords, rfl, hnames, hgets⟩ := indexTasks_eq (by simpa [Dict.keys] using hids) hindexed
  rw [List.nil_append] at hlistedRecords
  subst hlistedRecords
  obtain ⟨name, hrecord⟩ : ∃ name, records[index]? = some (name, task) := by
    rw [List.getElem?_map, Option.map_eq_some_iff] at hfound
    obtain ⟨⟨name, other⟩, hrecord, hother⟩ := hfound
    cases hother
    exact ⟨name, hrecord⟩
  have hname : name = id := by
    have hget := hgets _ (List.mem_of_getElem? hrecord)
    rw [hnamed] at hget
    cases hget
    rfl
  subst hname
  obtain ⟨before, rest, hsplit, hset⟩ := split_of_getElem? hrecord
  have hnodup : (Dict.keys records).Nodup := by
    rw [Dict.keys, hnames]
    exact hids
  have hnodup' : (before.map Prod.fst ++ name :: rest.map Prod.fst).Nodup := by
    rwa [hsplit, Dict.keys, List.map_append, List.map_cons] at hnodup
  have hnew : name ∉ Dict.keys before := by
    intro hmem
    exact (List.nodup_append.mp hnodup').2.2 name hmem name (List.mem_cons_self ..) rfl
  refine ⟨before, rest, hsplit, hnodup, hnew, ?_⟩
  have hsetMap : (records.map fun record ↦ Json.obj record.2).set index (.obj updated) =
      (before ++ (name, updated) :: rest).map fun record ↦ .obj record.2 := by
    rw [← hset (name, updated), List.map_set]
  unfold taskIndex
  rw [Dict.get_set_self, hsetMap]
  apply taskIndex_of_records
  · rw [List.map_append, List.map_cons]
    exact hnodup'
  · intro record hmem
    rw [hsplit] at hgets
    rw [List.mem_append, List.mem_cons] at hmem
    rcases hmem with hmem | rfl | hmem
    · exact hgets record (List.mem_append_left _ hmem)
    · exact hid.trans hnamed
    · exact hgets record (List.mem_append_right _ (List.mem_cons_of_mem _ hmem))
  · intro record _
    exact List.not_mem_nil

/-- A log that projects, with the Tasks and the heads that it was judged by. -/
theorem validateAndProject_eq_ok {backlog activity : Record}
    (h : validateAndProject I backlog activity = .ok projection) :
    ∃ facts records heads, activity.get "planning_status" = some (.arr facts) ∧ taskIndex backlog = .ok records ∧
      replayFacts I records 1 [] facts = .ok heads ∧ projectHeads heads records = .ok projection := by
  unfold validateAndProject at h
  split at h
  · next facts hfacts =>
      obtain ⟨records, hrecords, h⟩ := bind_eq_ok.mp h
      obtain ⟨heads, hreplay, h⟩ := bind_eq_ok.mp h
      exact ⟨facts, records, heads, hfacts, hrecords, hreplay, h⟩
  · cases h

theorem validateAndProject_of {backlog activity : Record} {records : Dict String Record}
    (hfacts : activity.get "planning_status" = some (.arr facts)) (hrecords : taskIndex backlog = .ok records)
    (hreplay : replayFacts I records 1 [] facts = .ok heads)
    (hprojection : projectHeads heads records = .ok projection) :
    validateAndProject I backlog activity = .ok projection := by
  unfold validateAndProject
  rw [hfacts]
  exact bind_eq_ok.mpr ⟨_, hrecords, bind_eq_ok.mpr ⟨_, hreplay, hprojection⟩⟩

/-- The Tasks of a dictionary are projected to the same statuses with one of them replaced under its head. -/
theorem projectHeads_replaced {before rest : Dict String Record} {id : String}
    (hhead : valueAt updated "status_fact_id" = valueAt task "status_fact_id") :
    projectHeads heads (before ++ (id, updated) :: rest) = projectHeads heads (before ++ (id, task) :: rest) := by
  induction before with
  | nil => simp only [List.nil_append, projectHeads, hhead]
  | cons entry before ih => simp only [List.cons_append, projectHeads, ih]

/-- A write to a Task that keeps its head and its first status keeps the projection. -/
theorem validateAndProject_judged {backlog activity after : Record} {tasks : List Json} {id : String}
    (hprojection : validateAndProject I backlog activity = .ok projection)
    (hlisted : listAt backlog "tasks" = .ok tasks) (hids : (taskIds tasks).Nodup)
    (hfound : tasks[index]? = some (.obj task)) (hnamed : task.get "id" = some (.str id))
    (hid : updated.get "id" = task.get "id") (hjudged : Judged task updated)
    (hhead : valueAt updated "status_fact_id" = valueAt task "status_fact_id")
    (hafter : after.get "planning_status" = activity.get "planning_status") :
    validateAndProject I (backlog.set "tasks" (.arr (tasks.set index (.obj updated)))) after = .ok projection := by
  obtain ⟨facts, records, heads, hfacts, hrecords, hreplay, hheads⟩ := validateAndProject_eq_ok hprojection
  obtain ⟨before, rest, rfl, -, hnew, hindexed⟩ := taskIndex_replaced hlisted hids hfound hnamed hid hrecords
  apply validateAndProject_of (hafter.trans hfacts) hindexed
  · exact replayFacts_judged (allJudged_replace hnew hjudged) hreplay
  · rw [projectHeads_replaced hhead]
    exact hheads

/-- After a transition the log projects again: the Task has the new status, and the others have theirs. -/
theorem validateAndProject_transition {backlog activity activity' after : Record} {tasks : List Json}
    {task appended updated : Record} {id uid prior status provenance : String} {current next : ℤ} {m : Moment}
    (h : Transition task id uid prior status current next)
    (hprojection : validateAndProject I backlog activity = .ok projection) (hprior : projection.get id = some prior)
    (hlisted : listAt backlog "tasks" = .ok tasks) (hids : (taskIds tasks).Nodup)
    (hfound : tasks[index]? = some (.obj task)) (hprovenance : provenance ∈ ["cli", "api.v1", "api.legacy"])
    (happend : appendTransition activity task prior status current next m.utcNow "local.user" provenance =
      .ok (activity', appended))
    (hsettles : Settles task appended updated next)
    (hafter : after.get "planning_status" = activity'.get "planning_status") :
    ∃ projection', validateAndProject I (backlog.set "tasks" (.arr (tasks.set index (.obj updated)))) after =
      .ok projection' ∧ ∀ name, projection'.get name = if name = id then some status else projection.get name := by
  obtain ⟨facts, records, heads, hfacts, hrecords, hreplay, hprojection⟩ := validateAndProject_eq_ok hprojection
  obtain ⟨before, rest, hsplit, hnodup, hnew, hindexed⟩ :=
    taskIndex_replaced hlisted hids hfound h.named hsettles.id hrecords
  -- the fact that was appended
  obtain ⟨logged, hlogged, happend⟩ := bind_eq_ok.mp happend
  rw [listAt_of_get hfacts] at hlogged
  cases hlogged
  obtain ⟨headId, hheadId, happend⟩ := bind_eq_ok.mp happend
  obtain ⟨fact, hfact, happend⟩ := bind_eq_ok.mp happend
  obtain ⟨factId, hfactId, happend⟩ := bind_eq_ok.mp happend
  cases happend
  have hfactId' : factId = .str (nextFactId facts) := by
    obtain ⟨taskId, -, hrest⟩ := bind_eq_ok.mp hfact
    obtain ⟨taskUid, -, hrest⟩ := bind_eq_ok.mp hrest
    simp only [pure, Except.pure, Except.ok.injEq] at hrest
    rw [← hrest] at hfactId
    exact (Except.ok.inj hfactId).symm
  -- the head of the Task
  obtain ⟨-, hheads⟩ := projectHeads_eq_ok hprojection
  obtain ⟨head, hhead, hnamesHead, -⟩ := hheads (id, task) (by rw [hsplit]; simp)
  have hget : Dict.get records id = some task := by
    rw [hsplit, get_middle hnew, if_pos rfl]
  have hstatus : head.status = prior := by
    rw [get_projectHeads hprojection, hget, hhead] at hprior
    exact Option.some.inj hprior
  have hbound : head.newRevision ≤ current := by
    obtain ⟨bounded, n, hbounded, hn, hle⟩ := replayFacts_bounded (fun _ _ hnone ↦ by cases hnone) hreplay id head hhead
    rw [hget] at hbounded
    cases hbounded
    rw [(revision_bounds h.held).1] at hn
    cases hn
    exact hle
  have hheadId' : headId = .str head.id := by
    rw [← hnamesHead]
    exact (valueAt_of_get (field_eq_ok.mp hheadId)).symm
  have hget' : Dict.get (before ++ (id, updated) :: rest) id = some updated := by
    rw [get_middle hnew, if_pos rfl]
  have haccepted := validateFact_transition (I := I) h hget' hsettles.uid hsettles.revision hhead hheadId' hstatus hbound
    hprovenance hfact
  rw [hsplit] at hreplay
  have hreplay' := replayFacts_concat (replayFacts_judged (allJudged_replace hnew (judged_of_settles h hsettles)) hreplay)
    haccepted
  -- the projection
  have hsettled : ∀ entry ∈ before ++ (id, updated) :: rest,
      ∃ head, (heads.set id ⟨nextFactId facts, next, status⟩).get entry.1 = some head ∧
        valueAt entry.2 "status_fact_id" = .str head.id := by
    intro entry hentry
    rw [List.mem_append, List.mem_cons] at hentry
    have hother (hentry : entry ∈ records) (hne : id ≠ entry.1) :
        ∃ head, (heads.set id ⟨nextFactId facts, next, status⟩).get entry.1 = some head ∧
          valueAt entry.2 "status_fact_id" = .str head.id := by
      obtain ⟨otherHead, hget, hid, -⟩ := hheads entry hentry
      exact ⟨otherHead, by rw [Dict.get_set_of_ne _ hne]; exact hget, hid⟩
    rcases hentry with hentry | rfl | hentry
    · apply hother (by rw [hsplit]; exact List.mem_append_left _ hentry)
      rintro rfl
      exact hnew (List.mem_map_of_mem hentry)
    · refine ⟨_, Dict.get_set_self _ _ _, ?_⟩
      rw [valueAt, hsettles.head, Dict.get_set_self, hfactId']
      rfl
    · apply hother (by rw [hsplit]; exact List.mem_append_right _ (List.mem_cons_of_mem _ hentry))
      intro hsame
      have hmem : entry.1 ∈ rest.map Prod.fst := List.mem_map_of_mem hentry
      rw [← hsame] at hmem
      rw [hsplit, Dict.keys, List.map_append, List.map_cons] at hnodup
      exact (List.nodup_cons.mp (List.nodup_append.mp hnodup).2.1).1 hmem
  obtain ⟨projection', hprojection'⟩ := projectHeads_ok hsettled
  refine ⟨projection', validateAndProject_of ?_ hindexed hreplay' hprojection', ?_⟩
  · rw [hafter, Dict.get_set_self]
  · intro name
    rw [get_projectHeads hprojection', get_projectHeads hprojection, hsplit, get_middle hnew, get_middle hnew,
      Dict.get_set]
    by_cases hname : name = id
    · rw [if_pos hname, if_pos hname.symm, if_pos hname]
      rfl
    · rw [if_neg hname, if_neg (Ne.symm hname), if_neg hname, if_neg hname]

end WorkStack.Service
