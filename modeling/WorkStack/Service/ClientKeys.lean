import WorkStack.Effect.Refusing
import WorkStack.Service.UndoRuns

/-!
# Client keys and the notices of unkeyed changes

The id of a notice is made from the workspace and a key. A keyed request gives the key of its notice itself; a
change without a key takes `ts:`, the Task and the revision it starts from, and an undo takes `undo:` and a
digest. A client may send any text in the alphabet of keys, and so also the text that an unkeyed change of a
Task will take: that change is then refused as a conflict. No other key of a client stands in its way.
-/

namespace WorkStack.Service

open Effect.Outcome Python

variable {P : Platform} {documents after : Documents} {clock : Clock}

/-! ## Unkeyed keys -/

/-- The digits after the last colon of a text. -/
theorem append_colon_cancel {text text' digits digits' : List Char} (hdigits : ':' ∉ digits) (hdigits' : ':' ∉ digits')
    (h : text ++ ':' :: digits = text' ++ ':' :: digits') : text = text' ∧ digits = digits' := by
  have hreverse := congrArg List.reverse h
  simp only [List.reverse_append, List.reverse_cons, List.append_assoc, List.singleton_append] at hreverse
  have hstops {items : List Char} (hitems : ':' ∉ items) : ∀ c ∈ items.reverse, (c == ':') = false := by
    intro c hc
    rw [beq_eq_false_iff_ne]
    rintro rfl
    exact hitems (List.mem_reverse.mp hc)
  obtain ⟨hsame, hrest⟩ := Json.append_cancel_of_stops (hstops hdigits) (hstops hdigits')
    ⟨':', text.reverse, rfl, beq_self_eq_true _⟩ ⟨':', text'.reverse, rfl, beq_self_eq_true _⟩ hreverse
  exact ⟨List.reverse_injective (List.cons.inj hrest).2, List.reverse_injective hsame⟩

theorem toString_injective {r r' : ℤ} (h : (toString r).toList = (toString r').toList) : r = r' := by
  have hdigits {m n : ℕ} (h : Nat.toDigits 10 m = Nat.toDigits 10 n) : m = n := by
    have hread := congrArg (fun digits ↦ Nat.ofDigitChars 10 digits 0) h
    simpa only [Nat.ofDigitChars_ten_toDigits] using hread
  have hsign {n : ℕ} {rest : List Char} : Nat.toDigits 10 n ≠ '-' :: rest := by
    intro hsame
    have hdigit : '-' ∈ Nat.toDigits 10 n := by
      rw [hsame]
      exact List.mem_cons_self ..
    exact absurd (Nat.isDigit_of_mem_toDigits (by omega) (by omega) hdigit) (by decide)
  cases r with
  | ofNat m =>
      cases r' with
      | ofNat n =>
          rw [Json.toList_toString_ofNat, Json.toList_toString_ofNat] at h
          rw [hdigits h]
      | negSucc n =>
          rw [Json.toList_toString_ofNat, Json.toList_toString_negSucc] at h
          exact absurd h hsign
  | negSucc m =>
      cases r' with
      | ofNat n =>
          rw [Json.toList_toString_ofNat, Json.toList_toString_negSucc] at h
          exact absurd h.symm hsign
      | negSucc n =>
          rw [Json.toList_toString_negSucc, Json.toList_toString_negSucc] at h
          have hsame := hdigits (List.cons.inj h).2
          rw [show m = n by omega]

theorem toList_unkeyedStatusKey (uid : String) (r : ℤ) :
    (unkeyedStatusKey uid r).toList = 't' :: 's' :: ':' :: (uid.toList ++ ':' :: (toString r).toList) := by
  simp [unkeyedStatusKey, String.toList_append]

/-- The key of an unkeyed change names its Task and its revision. -/
theorem unkeyedStatusKey_injective {uid uid' : String} {r r' : ℤ} (h : unkeyedStatusKey uid r =
    unkeyedStatusKey uid' r') :
    uid = uid' ∧ r = r' := by
  have htexts := congrArg String.toList h
  simp only [toList_unkeyedStatusKey, List.cons.injEq, true_and] at htexts
  have hcolon (n : ℤ) : ':' ∉ (toString n).toList := by
    intro hmem
    rcases Json.isDigit_of_mem_toString hmem with hdigit | hminus
    · exact absurd hdigit (by decide)
    · exact absurd hminus (by decide)
  obtain ⟨huid, hr⟩ := append_colon_cancel (hcolon r) (hcolon r') htexts
  exact ⟨String.toList_injective huid, toString_injective hr⟩

/-- The key of an undo is none of an unkeyed change. -/
theorem compensationKey_ne (noticeId uid : String) (r : ℤ) : compensationKey P noticeId ≠ unkeyedStatusKey uid r := by
  have hundo : "undo:".toList = ['u', 'n', 'd', 'o', ':'] := by decide
  have hfirst : (compensationKey P noticeId).toList.head? = some 'u' := by
    unfold compensationKey
    rw [String.toList_ofList, hundo, List.cons_append, List.head?_cons]
  intro h
  rw [h, toList_unkeyedStatusKey, List.head?_cons] at hfirst
  exact absurd (Option.some.inj hfirst) (by decide)

/-! ## The keys of the notices of a log -/

/-- The notices of a log, from the latest to the first. -/
def logNotices (P : Platform) (activity : Record) : Checked (List Record) := noticesOf P (eventsOf activity).reverse

/-- A later log has the notices of an earlier one, and others with allowed keys. -/
def AddsNotices (P : Platform) (allowed : String → Prop) (activity after : Record) : Prop :=
  ∀ notices, logNotices P after = .ok notices → ∃ earlier, logNotices P activity = .ok earlier ∧
    ∀ notice ∈ notices, notice ∈ earlier ∨ ∃ key, valueAt notice "idempotency_key" = .str key ∧ allowed key

variable {allowed : String → Prop}

theorem AddsNotices.trans {a b c : Record} (hab : AddsNotices P allowed a b) (hbc : AddsNotices P allowed b c) :
    AddsNotices P allowed a c := by
  intro notices hnotices
  obtain ⟨middle, hmiddle, hlater⟩ := hbc notices hnotices
  obtain ⟨earlier, hearlier, hfirst⟩ := hab middle hmiddle
  refine ⟨earlier, hearlier, ?_⟩
  intro notice hnotice
  rcases hlater notice hnotice with hmem | hallowed
  · exact hfirst notice hmem
  · exact .inr hallowed

theorem AddsNotices.mono {allowed allowed' : String → Prop} {activity after : Record}
    (h : AddsNotices P allowed activity after) (himp : ∀ key, allowed key → allowed' key) :
    AddsNotices P allowed' activity after := by
  intro notices hnotices
  obtain ⟨earlier, hearlier, hcases⟩ := h notices hnotices
  refine ⟨earlier, hearlier, ?_⟩
  intro notice hnotice
  rcases hcases notice hnotice with hmem | ⟨key, hkey, hmay⟩
  · exact .inl hmem
  · exact .inr ⟨key, hkey, himp key hmay⟩

theorem addsNotices_of_others {activity after : Record} {new : List Json}
    (h : eventsOf after = eventsOf activity ++ new) (hnew : ∀ event ∈ new, noticeFromEvent P event = .ok none) :
    AddsNotices P allowed activity after := by
  intro notices hnotices
  refine ⟨notices, ?_, fun notice hnotice ↦ .inl hnotice⟩
  unfold logNotices at hnotices ⊢
  rw [h, List.reverse_append, noticesOf_append_of_none] at hnotices
  · exact hnotices
  · intro event hevent
    exact hnew event (List.mem_reverse.mp hevent)

theorem addsNotices_of_get {activity after : Record} (h : after.get "activity" = activity.get "activity") :
    AddsNotices P allowed activity after := by
  have hevents : eventsOf after = eventsOf activity ++ [] := by rw [List.append_nil, eventsOf, eventsOf, h]
  apply addsNotices_of_others hevents
  intro event hevent
  exact absurd hevent List.not_mem_nil

variable {change : StatusChange}

/-- What is recorded of a change has the key of the change. -/
theorem recordStatusNotice_adds {activity after task : Record} {workspaceUid createdAt : String}
    (h : recordStatusNotice P activity task workspaceUid change createdAt = .ok after) :
    AddsNotices P (· = change.key) activity after := by
  obtain ⟨v, blob, -, hkey, -, hblob, rfl | ⟨hnone, event, hafter, hdetails⟩⟩ := recordStatusNotice_eq_ok h
  · exact addsNotices_of_get rfl
  · intro notices hnotices
    unfold logNotices at hnotices
    rw [hafter, List.reverse_append, List.reverse_singleton, List.singleton_append] at hnotices
    obtain ⟨read, rest, hread, hrest, rfl⟩ := noticesOf_cons hnotices
    refine ⟨rest, hrest, ?_⟩
    intro notice hnotice
    rcases List.mem_append.mp hnotice with hnew | hmem
    · right
      rw [Option.mem_toList] at hnew
      subst hnew
      exact ⟨v.key, (parseNotice_id hblob (noticeFromEvent_stored hdetails hread)).2, hkey⟩
    · exact .inl hmem

theorem changeStatus_adds {activity task activity' updated : Record} {provenance : String} {factAt noticeAt : String}
    (h : changeStatus P documents activity task provenance change factAt noticeAt = .ok (activity', updated)) :
    AddsNotices P (· = change.key) activity activity' ∧ ∃ uid, task.get "uid" = some (.str uid) := by
  obtain ⟨⟨appended, settled⟩, htransition, h⟩ := bind_eq_ok.mp h
  obtain ⟨uid, -, h⟩ := bind_eq_ok.mp h
  obtain ⟨noticed, hnoticed, h⟩ := bind_eq_ok.mp h
  cases h
  obtain ⟨v, -, huid, -⟩ := recordStatusNotice_eq_ok hnoticed
  constructor
  · have hfirst : AddsNotices P (· = change.key) activity appended :=
      addsNotices_of_get (appendTransition_activity htransition (by decide))
    exact hfirst.trans (recordStatusNotice_adds hnoticed)
  · rw [appendTransition_task htransition (by decide)] at huid
    exact ⟨v.entityUid, huid⟩

theorem recordEvent_adds {activity activity' details : Record} {eventType createdAt : String} {subject : EventSubject}
    (h : recordEvent P.toInterpreter activity eventType subject details createdAt = .ok activity')
    (htype : eventType ≠ noticeEventType) : AddsNotices P allowed activity activity' := by
  obtain ⟨events, hevents, h⟩ := bind_eq_ok.mp h
  obtain ⟨id, -, h⟩ := bind_eq_ok.mp h
  obtain ⟨listed, hlisted, h⟩ := bind_eq_ok.mp h
  cases h
  refine addsNotices_of_others (by rw [eventsOf_set, eventsOf_of_listAt hlisted]) ?_
  intro event hevent
  rw [List.mem_singleton] at hevent
  subst hevent
  exact noticeFromEvent_other rfl htype

/-! ## Keys that are spent -/

/-- A Task has left the revision that an unkeyed change of it took its key from. -/
def Spent (documents : Documents) (key : String) : Prop :=
  ∃ (tasks : List Json) (index : ℕ) (task : Record) (uid : String) (r n : ℤ),
    listAt documents.backlog "tasks" = .ok tasks ∧ tasks[index]? = some (.obj task) ∧
      task.get "uid" = some (.str uid) ∧ revision task = .ok n ∧ r < n ∧ key = unkeyedStatusKey uid r

theorem Spent.advances {key : String} (h : Spent documents key) (hadvances : TasksAdvance documents after) :
    Spent after key := by
  obtain ⟨tasks, index, task, uid, r, n, htasks, htask, huid, hn, hlt, hkey⟩ := h
  obtain ⟨tasks', htasks', hlist⟩ := hadvances tasks htasks
  obtain ⟨item, hitem, hadvanced⟩ := hlist index _ htask
  obtain ⟨task', rfl, rfl | hrevises⟩ := hadvanced.of_record
  · exact ⟨tasks', index, task', uid, r, n, htasks', hitem, huid, hn, hlt, hkey⟩
  · obtain ⟨m, k, hm, hk, hraised⟩ := hrevises.raised
    rw [hn] at hm
    cases hm
    exact ⟨tasks', index, task', uid, r, k, htasks', hitem, hrevises.uid.trans huid, hk, hlt.trans hraised, hkey⟩

/-- A command that writes to a Task at a revision spends the key of an unkeyed change of it. -/
theorem Replaces.spent {tasks : List Json} {index : ℕ} {task updated : Record} {uid : String} {current : ℤ}
    (h : Replaces documents after tasks index task updated) (hrevises : Revises task updated)
    (huid : task.get "uid" = some (.str uid)) (hcurrent : revision task = .ok current) :
    Spent after (unkeyedStatusKey uid current) := by
  obtain ⟨m, n, hm, hn, hlt⟩ := hrevises.raised
  rw [hcurrent] at hm
  cases hm
  refine ⟨_, index, updated, uid, current, n, h.tasks_after, ?_, hrevises.uid.trans huid, hn, hlt, rfl⟩
  exact List.getElem?_set_self (List.getElem?_eq_some_iff.mp h.found).1

/-- Every notice of the log was written under a key of a client, a key that is spent, or the key of an undo. -/
def Accounted (P : Platform) (keys : List String) (documents : Documents) : Prop :=
  ∀ notices, logNotices P documents.activity = .ok notices → ∀ notice ∈ notices,
    ∃ key, valueAt notice "idempotency_key" = .str key ∧
      (key ∈ keys ∨ Spent documents key ∨ ∃ noticeId, key = compensationKey P noticeId)

theorem Accounted.step {keys keys' : List String} (h : Accounted P keys documents) (hkeys : ∀ key ∈ keys, key ∈ keys')
    (hadvances : TasksAdvance documents after) (hadds : AddsNotices P allowed documents.activity after.activity)
    (hallowed : ∀ key, allowed key → key ∈ keys' ∨ Spent after key ∨ ∃ noticeId, key = compensationKey P noticeId) :
    Accounted P keys' after := by
  intro notices hnotices notice hnotice
  obtain ⟨earlier, hearlier, hcases⟩ := hadds notices hnotices
  rcases hcases notice hnotice with hmem | ⟨key, hkey, hmay⟩
  · obtain ⟨key, hkey, hused | hspent | hundo⟩ := h earlier hearlier notice hmem
    · exact ⟨key, hkey, .inl (hkeys key hused)⟩
    · exact ⟨key, hkey, .inr (.inl (hspent.advances hadvances))⟩
    · exact ⟨key, hkey, .inr (.inr hundo)⟩
  · exact ⟨key, hkey, hallowed key hmay⟩

/-! ## What the commands leave -/

theorem statusNoticeKey_eq_ok {task : Record} {r : ℤ} {key uid : String} (h : statusNoticeKey P task r = .ok key)
    (huid : task.get "uid" = some (.str uid)) : key = unkeyedStatusKey uid r := by
  obtain ⟨value, hvalue, h⟩ := bind_eq_ok.mp h
  cases h
  rw [field_eq_ok, huid] at hvalue
  cases hvalue
  rfl

/-- A patch that changes the status leaves a notice under the key of an unkeyed change, and any other one none. -/
theorem patchTask_adds {taskId : String} {patch : Json} {origin : Option String}
    (h : performed (patchTask P documents clock taskId patch origin) = some after) :
    AddsNotices P (Spent after) documents.activity after.activity := by
  obtain ⟨result, h⟩ := performed_eq_some h
  obtain ⟨fields, rfl, ⟨s⟩⟩ := patchTask_saved h
  have hafter : after.activity = s.logged := congrArg Documents.activity s.after_eq
  rw [hafter]
  refine AddsNotices.trans ?_ (recordEvent_adds s.logged_eq (by decide))
  have hupdated := s.updated_eq
  cases hrequested : requestedChange s.requested s.status with
  | none =>
      rw [hrequested] at hupdated
      simp only [patchStatus, Except.ok.injEq, Prod.mk.injEq] at hupdated
      rw [← hupdated.1]
      exact addsNotices_of_get rfl
  | some status =>
      rw [hrequested] at hupdated
      obtain ⟨key, hkey, hupdated⟩ := bind_eq_ok.mp hupdated
      obtain ⟨hadds, uid, huid⟩ := changeStatus_adds hupdated
      have hkeyEq := statusNoticeKey_eq_ok hkey huid
      rw [Dict.get_update, s.get_unknown (by decide), Option.none_or] at huid
      have hspent := s.replaces.spent s.revises huid s.revision
      rw [← hkeyEq] at hspent
      apply hadds.mono
      intro other hother
      rw [hother]
      exact hspent

theorem setTaskStatus_adds {taskId status provenance : String} {expected : Json}
    (h : performed (setTaskStatus P documents clock taskId status expected provenance) = some after) :
    AddsNotices P (Spent after) documents.activity after.activity := by
  obtain ⟨s, hkey⟩ := setTaskStatus_changes h
  obtain ⟨hadds, uid, huid⟩ := changeStatus_adds s.change_eq
  have hspent := s.replaces.spent s.revises huid s.held
  rw [← statusNoticeKey_eq_ok hkey huid] at hspent
  apply (hadds.trans (addsNotices_of_get s.events)).mono
  intro other hother
  rw [hother]
  exact hspent

/-- A keyed request leaves a notice under its key. -/
theorem setTaskStatusKeyed_adds {taskId key path : String} {body : Json} {requestDigest : Option Store.Digest}
    (h : served (setTaskStatusKeyed P documents clock taskId body key path requestDigest) = some after) :
    AddsNotices P (· = key) documents.activity after.activity := by
  rcases setTaskStatusKeyed_changes h with ⟨-, hevents⟩ | ⟨s, rfl⟩
  · exact addsNotices_of_get hevents
  · exact (changeStatus_adds s.change_eq).1.trans (addsNotices_of_get s.events)

/-- An undo leaves a notice under the key of its compensation. -/
theorem SavedUndo.adds {noticeId : String} (s : SavedUndo P documents after clock noticeId) :
    AddsNotices P (fun key ↦ ∃ undone, key = compensationKey P undone) documents.activity after.activity := by
  obtain ⟨intent, status, createdAt, response, hlogged⟩ := s.logged_eq
  have hafter : after.activity = s.logged := congrArg Documents.activity s.after_eq
  have hledger : AddsNotices P (fun key ↦ ∃ undone, key = compensationKey P undone) s.activity s.logged :=
    addsNotices_of_get (appendTo_get hlogged (by decide))
  rw [hafter]
  refine AddsNotices.trans ?_ hledger
  apply (changeStatus_adds s.change_eq).1.mono
  intro key hkey
  obtain ⟨-, -, -, undone, hundone⟩ := compensationFor_eq_ok s.compensated
  refine ⟨undone, hkey.trans ?_⟩
  rw [hundone, Interpreter.str]

/-! ## Runs with the keys of clients -/

/-- The uids of the Tasks of a list, as far as they have one. -/
def taskUids (tasks : List Json) : List String :=
  tasks.filterMap fun
    | .obj task =>
        match Dict.get task "uid" with
        | some (.str uid) => some uid
        | _ => none
    | _ => none

/-- No two Tasks have one uid, as the store demands of a backlog. -/
def DistinctUids (documents : Documents) : Prop :=
  ∀ tasks, listAt documents.backlog "tasks" = .ok tasks → (taskUids tasks).Nodup

/-- A run of writes, with the keys of the keyed status requests in it. -/
inductive ClientRun (P : Platform) (start : Documents) : List String → Documents → Prop where
  | refl : ClientRun P start [] start
  | patch {keys : List String} {documents after : Documents} (run : ClientRun P start keys documents) (clock : Clock)
      (taskId : String) (patch : Json) (origin : Option String)
      (saved : performed (patchTask P documents clock taskId patch origin) = some after) : ClientRun P start keys after
  | status {keys : List String} {documents after : Documents} (run : ClientRun P start keys documents) (clock : Clock)
      (taskId status : String) (expected : Json) (provenance : String)
      (saved : performed (setTaskStatus P documents clock taskId status expected provenance) = some after) :
      ClientRun P start keys after
  | keyed {keys : List String} {documents after : Documents} (run : ClientRun P start keys documents) (clock : Clock)
      (taskId : String) (body : Json) (key path : String) (requestDigest : Option Store.Digest)
      (saved : served (setTaskStatusKeyed P documents clock taskId body key path requestDigest) = some after) :
      ClientRun P start (key :: keys) after
  | undo {keys : List String} {documents after : Documents} (run : ClientRun P start keys documents) (clock : Clock)
      (noticeId : String) (body : Json) (key path : String) (requestDigest : Option Store.Digest)
      (saved : served (undoMutationNotice P documents clock noticeId body key path requestDigest) = some after) :
      ClientRun P start keys after
  | elsewhere {keys : List String} {documents after : Documents} (run : ClientRun P start keys documents)
      (other : Elsewhere P documents after) (distinct : DistinctUids after) : ClientRun P start keys after

theorem taskUids_set {tasks : List Json} {index : ℕ} {task updated : Record} (h : tasks[index]? = some (.obj task))
    (huid : updated.get "uid" = task.get "uid") : taskUids (tasks.set index (.obj updated)) = taskUids tasks := by
  obtain ⟨before, rest, hsplit, hset⟩ := split_of_getElem? h
  rw [hset, hsplit]
  simp only [taskUids, List.filterMap_append, List.filterMap_cons, huid]

theorem TaskWrite.distinctUids (h : TaskWrite documents after) (hdistinct : DistinctUids documents) :
    DistinctUids after := by
  intro other hother
  cases h with
  | none backlog =>
      rw [backlog] at hother
      exact hdistinct other hother
  | one replaces revises =>
      rw [replaces.tasks_after] at hother
      cases hother
      rw [taskUids_set replaces.found revises.uid]
      exact hdistinct _ replaces.listed

/-- In a list with distinct uids a uid is that of one Task. -/
theorem taskUids_unique {tasks : List Json} {i j : ℕ} {task task' : Record} {uid : String} (h : (taskUids tasks).Nodup)
    (hi : tasks[i]? = some (.obj task)) (hj : tasks[j]? = some (.obj task')) (huid : task.get "uid" = some (.str uid))
    (huid' : task'.get "uid" = some (.str uid)) : task = task' := by
  have hpairs := List.pairwise_filterMap.mp (show ((tasks.filterMap _).Pairwise _) from h)
  by_contra hne
  have hij : i ≠ j := by
    rintro rfl
    rw [hi] at hj
    cases hj
    exact hne rfl
  have hlt {i j : ℕ} {a b : Record} (hij : i < j) (hi : tasks[i]? = some (.obj a)) (hj : tasks[j]? = some (.obj b))
      (ha : a.get "uid" = some (.str uid)) (hb : b.get "uid" = some (.str uid)) : False := by
    obtain ⟨hilen, hget⟩ := List.getElem?_eq_some_iff.mp hi
    obtain ⟨hjlen, hget'⟩ := List.getElem?_eq_some_iff.mp hj
    have hpair := List.pairwise_iff_getElem.mp hpairs i j hilen hjlen hij
    rw [hget, hget'] at hpair
    exact hpair uid (by simp only [ha]) uid (by simp only [hb]) rfl
  rcases Nat.lt_or_gt_of_ne hij with hlt' | hgt
  · exact hlt hlt' hi hj huid huid'
  · exact hlt hgt hj hi huid' huid

/-- What a run of writes keeps: the uids stay distinct, and the notices are accounted for. -/
theorem ClientRun.accounted {start : Documents} {keys : List String} (h : ClientRun P start keys documents)
    (huids : DistinctUids start) (hblank : eventsOf start.activity = []) :
    DistinctUids documents ∧ Accounted P keys documents := by
  induction h with
  | refl =>
      refine ⟨huids, ?_⟩
      intro notices hnotices notice hnotice
      unfold logNotices at hnotices
      rw [hblank] at hnotices
      cases hnotices
      exact absurd hnotice List.not_mem_nil
  | patch run clock taskId patch origin saved ih =>
      obtain ⟨hwrite, -⟩ := patchTask_writes saved
      refine ⟨hwrite.distinctUids ih.1, ?_⟩
      exact ih.2.step (fun _ hkey ↦ hkey) hwrite.tasksAdvance (patchTask_adds saved) fun _ hspent ↦ .inr (.inl hspent)
  | status run clock taskId status expected provenance saved ih =>
      obtain ⟨hwrite, -⟩ := setTaskStatus_writes saved
      refine ⟨hwrite.distinctUids ih.1, ?_⟩
      exact ih.2.step (fun _ hkey ↦ hkey) hwrite.tasksAdvance (setTaskStatus_adds saved) fun _ hspent ↦ .inr
          (.inl hspent)
  | keyed run clock taskId body key path requestDigest saved ih =>
      obtain ⟨hwrite, -⟩ := setTaskStatusKeyed_writes saved
      refine ⟨hwrite.distinctUids ih.1, ?_⟩
      apply ih.2.step (fun _ hkey ↦ List.mem_cons_of_mem _ hkey) hwrite.tasksAdvance (setTaskStatusKeyed_adds saved)
      rintro other rfl
      exact .inl (List.mem_cons_self ..)
  | undo run clock noticeId body key path requestDigest saved ih =>
      obtain ⟨s⟩ := undo_saved saved
      refine ⟨s.write.distinctUids ih.1, ?_⟩
      exact ih.2.step (fun _ hkey ↦ hkey) s.write.tasksAdvance s.adds fun _ hundo ↦ .inr (.inr hundo)
  | elsewhere run other distinct ih =>
      obtain ⟨new, hevents, hnew⟩ := other.events
      refine ⟨distinct, ?_⟩
      have hadds : AddsNotices P (fun _ ↦ False) _ _ := addsNotices_of_others hevents hnew
      exact ih.2.step (fun _ hkey ↦ hkey) other.tasks hadds fun _ hfalse ↦ hfalse.elim

/-- The key of an unkeyed change of a Task is that of no notice, if no client used it. -/
theorem unkeyedStatusKey_free {start : Documents} {keys : List String} (hrun : ClientRun P start keys documents)
    (huids : DistinctUids start) (hblank : eventsOf start.activity = []) {tasks : List Json} {index : ℕ} {task : Record}
    {uid : String} {r : ℤ} (hlisted : listAt documents.backlog "tasks" = .ok tasks)
    (hfound : tasks[index]? = some (.obj task)) (huid : task.get "uid" = some (.str uid)) (hheld : revision task =
    .ok r)
    (hunused : unkeyedStatusKey uid r ∉ keys) {notices : List Record}
    (hnotices : logNotices P documents.activity = .ok notices) {notice : Record} (hnotice : notice ∈ notices) :
    valueAt notice "idempotency_key" ≠ .str (unkeyedStatusKey uid r) := by
  intro hsame
  obtain ⟨hdistinct, haccounted⟩ := hrun.accounted huids hblank
  obtain ⟨key, hkey, hcases⟩ := haccounted notices hnotices notice hnotice
  rw [hsame] at hkey
  cases hkey
  rcases hcases with hused | hspent | ⟨undone, hundo⟩
  · exact hunused hused
  · obtain ⟨tasks', index', task', uid', r', n, htasks', htask', huid', hn, hlt, hspent⟩ := hspent
    obtain ⟨rfl, rfl⟩ := unkeyedStatusKey_injective hspent
    rw [hlisted] at htasks'
    cases htasks'
    -- the uid is that of one Task, which cannot be at the revision and behind it
    rw [taskUids_unique (hdistinct tasks hlisted) htask' hfound huid' huid, hheld] at hn
    cases hn
    omega
  · exact compensationKey_ne undone uid r hundo.symm

/-! ## Changes that are accepted on an empty log -/

/-- The documents with no events. -/
def withoutEvents (documents : Documents) : Documents :=
  { documents with activity := documents.activity.set "activity" (.arr []) }

/-- A log that can be read: its events are records, and those of notices hold notices. -/
structure LogReads (P : Platform) (activity : Record) : Prop where
  listed : ∃ events, listAt activity "activity" = .ok events ∧ ∀ event ∈ events, ∃ record, event = .obj record
  notices : ∃ notices, logNotices P activity = .ok notices

theorem nextId_of_records {I : Interpreter} {records : List Json} (h : ∀ event ∈ records, ∃ record, event = .obj record)
    (name : List Char) (width : ℕ) : ∃ id, nextId I records name width = .ok id := by
  have hlargest : ∀ largest, ∃ n, largestNumber I name largest records = .ok n := by
    induction records with
    | nil => exact fun largest ↦ ⟨largest, rfl⟩
    | cons event records ih =>
        intro largest
        obtain ⟨⟨record, rfl⟩, hrest⟩ := List.forall_mem_cons.mp h
        obtain ⟨n, hn⟩ := ih hrest _
        exact ⟨n, bind_eq_ok.mpr ⟨record, rfl, hn⟩⟩
  obtain ⟨n, hn⟩ := hlargest 0
  exact ⟨_, bind_eq_ok.mpr ⟨n, hn, rfl⟩⟩

theorem projectedStatus_congr {backlog activity activity' : Record} {id : String}
    (h : activity'.get "planning_status" = activity.get "planning_status") :
    projectedStatus P backlog activity' id = projectedStatus P backlog activity id := by
  unfold projectedStatus validateAndProject
  rw [h]

theorem appendTransition_of_get {activity activity' other task updated : Record} {prior status createdAt actor : String}
    {provenance : String} {current next : ℤ}
    (h : appendTransition other task prior status current next createdAt actor provenance = .ok (activity', updated))
    (hget : activity.get "planning_status" = other.get "planning_status") :
    ∃ appended, appendTransition activity task prior status current next createdAt actor provenance =
      .ok (appended, updated) := by
  obtain ⟨facts, hfacts, h⟩ := bind_eq_ok.mp h
  obtain ⟨head, hhead, h⟩ := bind_eq_ok.mp h
  obtain ⟨fact, hfact, h⟩ := bind_eq_ok.mp h
  obtain ⟨id, hid, h⟩ := bind_eq_ok.mp h
  cases h
  refine ⟨_, bind_eq_ok.mpr ⟨facts, ?_, bind_eq_ok.mpr ⟨head, hhead, bind_eq_ok.mpr ⟨fact, hfact,
    bind_eq_ok.mpr ⟨id, hid, rfl⟩⟩⟩⟩⟩
  rw [listAt, hget]
  exact hfacts

/-- What could be recorded in an empty log is recorded where the id of its notice is free. -/
theorem recordStatusNotice_accepted {activity other recorded task : Record} {workspaceUid createdAt : String}
    {events : List Json} (h : recordStatusNotice P other task workspaceUid change createdAt = .ok recorded)
    (hblank : eventsOf other = []) (hevents : listAt activity "activity" = .ok events)
    (hrecords : ∀ event ∈ events, ∃ record, event = .obj record)
    (hfree : ∀ id, deriveNoticeId P (.str workspaceUid) (.str change.key) = .ok id →
      findNotice P activity (.str id) = .ok none) :
    ∃ after event, recordStatusNotice P activity task workspaceUid change createdAt = .ok after ∧
      listAt after "activity" = .ok (events ++ [.obj event]) := by
  obtain ⟨entityUid, huid, h⟩ := bind_eq_ok.mp h
  split at h
  · cases h
  next notice hnotice =>
  split at h
  · cases h
  next blob hblob =>
  obtain ⟨v, rfl, -, -, hid⟩ := buildStatusNotice_eq_ok hnotice
  obtain ⟨found, hfound, h⟩ := bind_eq_ok.mp h
  rw [findNotice_eq, hblank] at hfound
  cases hfound
  obtain ⟨listed, -, h⟩ := bind_eq_ok.mp h
  obtain ⟨number, -, h⟩ := bind_eq_ok.mp h
  obtain ⟨taskId, htaskId, -⟩ := bind_eq_ok.mp h
  obtain ⟨eventId, heventId⟩ := nextId_of_records (I := P.toInterpreter) hrecords ['E'] 6
  have hnone : findNotice P activity (valueAt v.record "notice_id") = .ok none := hfree v.noticeId hid
  have hafter : recordStatusNotice P activity task workspaceUid change createdAt = .ok (activity.set "activity"
      (.arr (events ++ [.obj [("id", .str eventId), ("type", .str noticeEventType), ("created_at", .str createdAt),
        ("task_id", taskId), ("details", .obj [("notice", .str blob)])]]))) := by
    simp only [recordStatusNotice, huid, hnotice, hblob, hnone, hevents, heventId, htaskId, ok_bind]
    rfl
  exact ⟨_, _, hafter, listAt_set _ _ _⟩

theorem changeStatus_accepted {task recorded updated : Record} {provenance factAt noticeAt : String}
    {events : List Json}
    (h : changeStatus P (withoutEvents documents) (withoutEvents documents).activity task provenance change factAt
      noticeAt = .ok (recorded, updated))
    (hevents : listAt documents.activity "activity" = .ok events)
    (hrecords : ∀ event ∈ events, ∃ record, event = .obj record)
    (hfree : ∀ id uid, workspaceUid documents = .ok uid → deriveNoticeId P (.str uid) (.str change.key) = .ok id →
      findNotice P documents.activity (.str id) = .ok none) :
    ∃ after event, changeStatus P documents documents.activity task provenance change factAt noticeAt =
      .ok (after, updated) ∧ listAt after "activity" = .ok (events ++ [.obj event]) := by
  obtain ⟨⟨appended, settled⟩, htransition, h⟩ := bind_eq_ok.mp h
  obtain ⟨uid, huid, h⟩ := bind_eq_ok.mp h
  obtain ⟨noticed, hnoticed, h⟩ := bind_eq_ok.mp h
  cases h
  have hplanning : documents.activity.get "planning_status" = (withoutEvents documents).activity.get "planning_status" :=
    (Dict.get_set_of_ne _ (by decide) _).symm
  obtain ⟨appended', htransition'⟩ := appendTransition_of_get htransition hplanning
  have hsame : appended'.get "activity" = documents.activity.get "activity" :=
    appendTransition_activity htransition' (by decide)
  have hblank : eventsOf appended = [] := by
    rw [eventsOf, appendTransition_activity htransition (by decide)]
    exact eventsOf_set documents.activity []
  have hevents' : listAt appended' "activity" = .ok events := by
    rw [listAt, hsame]
    exact hevents
  obtain ⟨after, event, hrecorded, hafter⟩ := recordStatusNotice_accepted hnoticed hblank hevents' hrecords
    (by
      intro id hid
      have hfound := hfree id uid huid hid
      rw [findNotice, hsame]
      exact hfound)
  exact ⟨after, event, bind_eq_ok.mpr ⟨_, htransition', bind_eq_ok.mpr ⟨uid, huid, bind_eq_ok.mpr ⟨after, hrecorded,
    rfl⟩⟩⟩, hafter⟩

section Accepted

variable {taskId uid : String} {events tasks : List Json} {index : ℕ} {task : Record} {r : ℤ}

/-- The id of the notice of an unkeyed change of a Task is free. -/
def FreeKey (P : Platform) (documents : Documents) (uid : String) (r : ℤ) : Prop :=
  ∀ id workspace, workspaceUid documents = .ok workspace →
    deriveNoticeId P (.str workspace) (.str (unkeyedStatusKey uid r)) = .ok id →
      findNotice P documents.activity (.str id) = .ok none

theorem setTaskStatus_accepted {status provenance : String} {expected : Json}
    (h : performed (setTaskStatus P (withoutEvents documents) clock taskId status expected provenance) = some after)
    (hlisted : listAt documents.backlog "tasks" = .ok tasks)
    (hfound : find P.toInterpreter tasks taskId "task" = .ok (index, task)) (huid : task.get "uid" = some (.str uid))
    (hheld : revision task = .ok r) (hevents : listAt documents.activity "activity" = .ok events)
    (hrecords : ∀ event ∈ events, ∃ record, event = .obj record) (hfree : FreeKey P documents uid r) :
    ∃ saved, performed (setTaskStatus P documents clock taskId status expected provenance) = some saved := by
  obtain ⟨result, h⟩ := performed_eq_some h
  unfold setTaskStatus at h
  split at h
  · cases h
  next hstatus =>
  split at h
  · cases h
  next hprovenance =>
  obtain ⟨listed, hlisted', h⟩ := bind_eq_ok.mp h
  obtain ⟨⟨place, found⟩, hfound', h⟩ := bind_eq_ok.mp h
  obtain ⟨current, hcurrent, h⟩ := bind_eq_ok.mp h
  obtain ⟨wanted, hwanted, h⟩ := bind_eq_ok.mp h
  dsimp only at hcurrent h
  have hsameTasks : tasks = listed := Except.ok.inj (hlisted.symm.trans (tasksOf_eq_ok hlisted'))
  subst hsameTasks
  rw [hfound, Except.ok.injEq, Prod.mk.injEq] at hfound'
  obtain ⟨rfl, rfl⟩ := hfound'
  rw [hheld] at hcurrent
  cases hcurrent
  split at h
  · cases h
  next hstale =>
  obtain ⟨id, hid, h⟩ := bind_eq_ok.mp h
  obtain ⟨before, hbefore, h⟩ := bind_eq_ok.mp h
  have hprojected : projectedStatus P documents.backlog documents.activity id = .ok before := by
    rw [← hbefore]
    exact (projectedStatus_congr (Dict.get_set_of_ne _ (by decide) _)).symm
  split at h
  · obtain ⟨projected, -, h⟩ := bind_eq_ok.mp h
    cases h
  next hchanges =>
  obtain ⟨next, hnext, h⟩ := bind_eq_ok.mp h
  obtain ⟨key, hkey, h⟩ := bind_eq_ok.mp h
  obtain ⟨⟨recorded, updated⟩, hchange, h⟩ := bind_eq_ok.mp h
  obtain ⟨projected, hshown, -⟩ := bind_eq_ok.mp h
  have hkeyEq := statusNoticeKey_eq_ok hkey huid
  obtain ⟨after, event, hchanged, -⟩ := changeStatus_accepted hchange hevents hrecords (by
    intro id workspace hworkspace hderived
    rw [hkeyEq] at hderived
    exact hfree id workspace hworkspace hderived)
  have hdone : setTaskStatus P documents clock taskId status expected provenance =
      .ok ⟨.obj projected, some (withTask documents tasks index (touched updated (clock.today 0) next) after)⟩ := by
    unfold setTaskStatus
    rw [if_neg hstatus, if_neg hprovenance]
    refine bind_eq_ok.mpr ⟨tasks, hlisted', bind_eq_ok.mpr ⟨_, hfound, bind_eq_ok.mpr ⟨r, hheld,
      bind_eq_ok.mpr ⟨wanted, hwanted, ?_⟩⟩⟩⟩
    rw [if_neg hstale]
    refine bind_eq_ok.mpr ⟨id, hid, bind_eq_ok.mpr ⟨before, hprojected, ?_⟩⟩
    rw [if_neg hchanges]
    exact bind_eq_ok.mpr ⟨next, hnext, bind_eq_ok.mpr ⟨key, hkey, bind_eq_ok.mpr ⟨_, hchanged,
      bind_eq_ok.mpr ⟨projected, hshown, rfl⟩⟩⟩⟩
  rw [hdone]
  exact ⟨_, rfl⟩

theorem recordEvent_accepted {activity details : Record} {eventType createdAt : String} {subject : EventSubject}
    (hevents : listAt activity "activity" = .ok events) (hrecords : ∀ event ∈ events, ∃ record, event = .obj record) :
    ∃ after, recordEvent P.toInterpreter activity eventType subject details createdAt = .ok after := by
  obtain ⟨id, hid⟩ := nextId_of_records (I := P.toInterpreter) hrecords ['E'] 6
  unfold recordEvent appendTo
  rw [hevents, ok_bind, hid, ok_bind, ok_bind]
  exact ⟨_, rfl⟩

theorem patchTask_accepted {patch : Json} {origin : Option String}
    (h : performed (patchTask P (withoutEvents documents) clock taskId patch origin) = some after)
    (hlisted : listAt documents.backlog "tasks" = .ok tasks)
    (hfound : find P.toInterpreter tasks taskId "task" = .ok (index, task)) (huid : task.get "uid" = some (.str uid))
    (hheld : revision task = .ok r) (hevents : listAt documents.activity "activity" = .ok events)
    (hrecords : ∀ event ∈ events, ∃ record, event = .obj record) (hfree : FreeKey P documents uid r) :
    ∃ saved, performed (patchTask P documents clock taskId patch origin) = some saved := by
  obtain ⟨result, h⟩ := performed_eq_some h
  cases patch with
  | obj fields =>
      simp only [patchTask] at h
      split at h
      · cases h
      next hknown =>
      obtain ⟨expected, hexpected, h⟩ := bind_eq_ok.mp h
      obtain ⟨listed, hlisted', h⟩ := bind_eq_ok.mp h
      have hlistedAt : listAt documents.backlog "tasks" = .ok listed := hlisted'
      rw [hlisted, Except.ok.injEq] at hlistedAt
      subst hlistedAt
      obtain ⟨⟨place, found⟩, hfound', h⟩ := bind_eq_ok.mp h
      rw [hfound, Except.ok.injEq, Prod.mk.injEq] at hfound'
      obtain ⟨rfl, rfl⟩ := hfound'
      obtain ⟨current, hcurrent, h⟩ := bind_eq_ok.mp h
      dsimp only at h hcurrent
      rw [hheld, Except.ok.injEq] at hcurrent
      subst hcurrent
      split at h
      · cases h
      next hstale =>
      obtain ⟨indexed, hindexed, h⟩ := bind_eq_ok.mp h
      obtain ⟨objectiveRecords, hobjectives, h⟩ := bind_eq_ok.mp h
      obtain ⟨objectives, hgrouped, h⟩ := bind_eq_ok.mp h
      obtain ⟨id, hid, h⟩ := bind_eq_ok.mp h
      obtain ⟨⟨changes, requested⟩, hchanges, h⟩ := bind_eq_ok.mp h
      obtain ⟨aligned, haligned, h⟩ := bind_eq_ok.mp h
      obtain ⟨status, hstatus, h⟩ := bind_eq_ok.mp h
      dsimp only at h haligned
      have hprojected : projectedStatus P documents.backlog documents.activity id = .ok status := by
        rw [← hstatus]
        exact (projectedStatus_congr (Dict.get_set_of_ne _ (by decide) _)).symm
      split at h
      · obtain ⟨projected, -, h⟩ := bind_eq_ok.mp h
        cases h
      next hchanged =>
      obtain ⟨next, hnext, h⟩ := bind_eq_ok.mp h
      obtain ⟨⟨activity, updated⟩, hupdated, h⟩ := bind_eq_ok.mp h
      obtain ⟨logged, -, h⟩ := bind_eq_ok.mp h
      obtain ⟨projected, hshown, -⟩ := bind_eq_ok.mp h
      dsimp only at hshown
      -- the uid of the Task that is changed
      have huid' : Dict.get (Dict.update aligned task) "uid" = some (.str uid) := by
        rw [Dict.get_update, get_unknownField (not_not.mp hknown) hchanges haligned (by decide), Option.none_or, huid]
      obtain ⟨activity', events', hupdated', hevents', hrecords'⟩ : ∃ activity' events',
          patchStatus P documents clock (Dict.update aligned task) (requestedChange requested status) status r next
            origin = .ok (activity', updated) ∧ listAt activity' "activity" = .ok events' ∧
              ∀ event ∈ events', ∃ record, event = .obj record := by
        cases hrequested : requestedChange requested status with
        | none =>
            rw [hrequested] at hupdated
            simp only [patchStatus, Except.ok.injEq, Prod.mk.injEq] at hupdated
            exact ⟨documents.activity, events, by rw [patchStatus, hupdated.2], hevents, hrecords⟩
        | some wanted =>
            rw [hrequested] at hupdated
            obtain ⟨key, hkey, hupdated⟩ := bind_eq_ok.mp hupdated
            have hkeyEq := statusNoticeKey_eq_ok hkey huid'
            obtain ⟨after, event, hchange, hafter⟩ := changeStatus_accepted hupdated hevents hrecords (by
              intro id workspace hworkspace hderived
              rw [hkeyEq] at hderived
              exact hfree id workspace hworkspace hderived)
            refine ⟨after, _, bind_eq_ok.mpr ⟨key, hkey, hchange⟩, hafter, ?_⟩
            intro other hother
            rcases List.mem_append.mp hother with hmem | hmem
            · exact hrecords other hmem
            · exact ⟨event, List.mem_singleton.mp hmem⟩
      obtain ⟨logged', hlogged'⟩ := recordEvent_accepted hevents' hrecords'
      have hdone : patchTask P documents clock taskId (.obj fields) origin = .ok ⟨.obj projected,
          some (withTask documents tasks index (touched updated (clock.today 0) next) logged')⟩ := by
        simp only [patchTask]
        rw [if_neg hknown]
        refine bind_eq_ok.mpr ⟨expected, hexpected, bind_eq_ok.mpr ⟨tasks, hlisted, bind_eq_ok.mpr ⟨_, hfound,
          bind_eq_ok.mpr ⟨r, hheld, ?_⟩⟩⟩⟩
        rw [if_neg hstale]
        refine bind_eq_ok.mpr ⟨indexed, hindexed, bind_eq_ok.mpr ⟨objectiveRecords, hobjectives,
          bind_eq_ok.mpr ⟨objectives, hgrouped, bind_eq_ok.mpr ⟨id, hid, bind_eq_ok.mpr ⟨_, hchanges,
            bind_eq_ok.mpr ⟨aligned, haligned, bind_eq_ok.mpr ⟨status, hprojected, ?_⟩⟩⟩⟩⟩⟩⟩
        dsimp only
        rw [if_neg hchanged]
        exact bind_eq_ok.mpr ⟨next, hnext, bind_eq_ok.mpr ⟨_, hupdated', bind_eq_ok.mpr ⟨logged', hlogged',
          bind_eq_ok.mpr ⟨projected, hshown, rfl⟩⟩⟩⟩
      rw [hdone]
      exact ⟨_, rfl⟩
  | _ => cases h

end Accepted

/-- In every run from a workspace without events: if no client used the key of an unkeyed change of a Task at its
revision, then every unkeyed change of the Task that is accepted with no events is accepted with the events that
there are. The identity of a notice is taken to tell the keys of the log apart. -/
theorem unkeyed_change_accepted {start : Documents} {keys : List String} (hrun : ClientRun P start keys documents)
    (huids : DistinctUids start) (hblank : eventsOf start.activity = []) (hreads : LogReads P documents.activity)
    {tasks : List Json} {taskId uid : String} {index : ℕ} {task : Record} {r : ℤ}
    (hlisted : listAt documents.backlog "tasks" = .ok tasks)
    (hfound : find P.toInterpreter tasks taskId "task" = .ok (index, task)) (huid : task.get "uid" = some (.str uid))
    (hheld : revision task = .ok r) (hunused : unkeyedStatusKey uid r ∉ keys)
    (hidentity : ∀ workspace id, workspaceUid documents = .ok workspace →
      deriveNoticeId P (.str workspace) (.str (unkeyedStatusKey uid r)) = .ok id →
        ∀ notices, logNotices P documents.activity = .ok notices → ∀ notice ∈ notices,
          valueAt notice "notice_id" = .str id → valueAt notice "idempotency_key" = .str (unkeyedStatusKey uid r)) :
    (∀ clock status expected provenance,
      (performed (setTaskStatus P (withoutEvents documents) clock taskId status expected provenance)).isSome →
        (performed (setTaskStatus P documents clock taskId status expected provenance)).isSome) ∧
    ∀ clock patch origin, (performed (patchTask P (withoutEvents documents) clock taskId patch origin)).isSome →
      (performed (patchTask P documents clock taskId patch origin)).isSome := by
  obtain ⟨events, hevents, hrecords⟩ := hreads.listed
  obtain ⟨notices, hnotices⟩ := hreads.notices
  have hfree : FreeKey P documents uid r := by
    intro id workspace hworkspace hderived
    refine findNotice_eq_ok.mpr ⟨notices, hnotices, ?_⟩
    symm
    rw [List.find?_eq_none]
    intro notice hnotice hsame
    rw [Json.same_str_left] at hsame
    have hkey := hidentity workspace id hworkspace hderived notices hnotices notice hnotice hsame
    exact unkeyedStatusKey_free hrun huids hblank hlisted (find_spec P.toInterpreter hfound).1 huid hheld hunused
      hnotices hnotice hkey
  constructor
  · intro clock status expected provenance h
    obtain ⟨after, hafter⟩ := Option.isSome_iff_exists.mp h
    obtain ⟨saved, hsaved⟩ := setTaskStatus_accepted hafter hlisted hfound huid hheld hevents hrecords hfree
    rw [hsaved]
    rfl
  · intro clock patch origin h
    obtain ⟨after, hafter⟩ := Option.isSome_iff_exists.mp h
    obtain ⟨saved, hsaved⟩ := patchTask_accepted hafter hlisted hfound huid hheld hevents hrecords hfree
    rw [hsaved]
    rfl

/-! ## A client that takes the key -/

/-- The key that an unkeyed change takes after the first revision of the sample, sent by a client before it. -/
def clashKey : String := "ts:6f1c2b7e-9a54-4d3e-8f10-2b7c5a9d4e61:1"

/-- The notice of a keyed request with this key, which starts the Task of the sample. -/
def clashNotice : NoticeValues := { startedNotice with
  key := clashKey
  mutationUid := "63047287-b599-54c8-ab32-a2146ae96c6f"
  noticeId := "8bbbdcb0-6dde-5d21-ac2e-5224bfef9e46"
  source := "gui" }

/-- The notice of a keyed request with a key that no unkeyed change takes. -/
def intentNotice : NoticeValues := { clashNotice with
  key := "intent-0001"
  mutationUid := "59a87e7c-7406-5889-bee3-62aa517786d6"
  noticeId := "93561ffa-9d8e-53e5-9cf1-851c4a055628" }

/-- The notice of the later change without a key: the id of the first one, and other revisions. -/
def laterNotice : NoticeValues := { clashNotice with
  afterRevision := some 2
  beforeRevision := 1
  source := "cli"
  statusAfter := some "done"
  statusBefore := some "started"
  summary := "Task status started to done" }

def noticeBlob (v : NoticeValues) : String := String.ofList (Json.compactText (.obj v.record))

def clientPlatform : Platform :=
  asciiPlatform [
    (("6ba7b811-9dad-11d1-80b4-00c04fd430c8", noticeUrl), "abb7e092-26c0-5119-ab88-91f70565f2e4"),
    (("6ba7b811-9dad-11d1-80b4-00c04fd430c8", noticeUrl ++ "/mutation"), "04676b85-2871-5ae1-9a98-3649f6f1aa50"),
    (("abb7e092-26c0-5119-ab88-91f70565f2e4",
        "6f1c2b7e-9a54-4d3e-8f10-2b7c5a9d4e60:ts:6f1c2b7e-9a54-4d3e-8f10-2b7c5a9d4e61:1"),
      "8bbbdcb0-6dde-5d21-ac2e-5224bfef9e46"),
    (("04676b85-2871-5ae1-9a98-3649f6f1aa50",
        "6f1c2b7e-9a54-4d3e-8f10-2b7c5a9d4e60:ts:6f1c2b7e-9a54-4d3e-8f10-2b7c5a9d4e61:1"),
      "63047287-b599-54c8-ab32-a2146ae96c6f"),
    (("abb7e092-26c0-5119-ab88-91f70565f2e4", "6f1c2b7e-9a54-4d3e-8f10-2b7c5a9d4e60:intent-0001"),
      "93561ffa-9d8e-53e5-9cf1-851c4a055628"),
    (("04676b85-2871-5ae1-9a98-3649f6f1aa50", "6f1c2b7e-9a54-4d3e-8f10-2b7c5a9d4e60:intent-0001"),
      "59a87e7c-7406-5889-bee3-62aa517786d6")]
    [(noticeBlob clashNotice, .obj clashNotice.record), (noticeBlob intentNotice, .obj intentNotice.record)]

theorem validateNotice_of_isSome {v : NoticeValues} (h : (validateNotice P (.obj v.record)).toOption.isSome = true) :
    validateNotice P (.obj v.record) = .ok v.record := by
  obtain ⟨notice, hnotice⟩ := exists_of_isSome h
  rw [hnotice, validateNotice_record hnotice]

theorem validateNotice_clash : validateNotice clientPlatform (.obj clashNotice.record) = .ok clashNotice.record :=
  validateNotice_of_isSome (by decide +kernel)

theorem validateNotice_intent : validateNotice clientPlatform (.obj intentNotice.record) = .ok intentNotice.record :=
  validateNotice_of_isSome (by decide +kernel)

theorem validateNotice_later : validateNotice clientPlatform (.obj laterNotice.record) = .ok laterNotice.record :=
  validateNotice_of_isSome (by decide +kernel)

theorem serializeNotice_of_valid {v : NoticeValues} (h : validateNotice P (.obj v.record) = .ok v.record) :
    serializeNotice P (.obj v.record) = .ok (noticeBlob v) := by
  rw [serializeNotice, h, ok_bind]
  rfl

/-- The fields that the key of a notice gives. -/
structure KeyFields (P : Platform) (v : NoticeValues) : Prop where
  uid : noticeUuid P (.str v.workspaceUid) = .ok v.workspaceUid
  token : noticeKey P (.str v.key) = .ok v.key
  mutation : deriveMutationUid P (.str v.workspaceUid) (.str v.key) = .ok v.mutationUid
  id : deriveNoticeId P (.str v.workspaceUid) (.str v.key) = .ok v.noticeId

theorem keyFields_clash : KeyFields clientPlatform clashNotice where
  uid := Effect.Refusing.toOption_eq_some.mp (by decide)
  token := Effect.Refusing.toOption_eq_some.mp (by decide)
  mutation := Effect.Refusing.toOption_eq_some.mp (by decide)
  id := Effect.Refusing.toOption_eq_some.mp (by decide)

theorem keyFields_intent : KeyFields clientPlatform intentNotice where
  uid := Effect.Refusing.toOption_eq_some.mp (by decide)
  token := Effect.Refusing.toOption_eq_some.mp (by decide)
  mutation := Effect.Refusing.toOption_eq_some.mp (by decide)
  id := Effect.Refusing.toOption_eq_some.mp (by decide)

/-- A notice that is valid and has the fields of its key and of the change is built. -/
theorem buildStatusNotice_of_valid {v : NoticeValues} {before after : ℤ} {source statusBefore statusAfter : String}
    (hkey : KeyFields P v) (hvalid : validateNotice P (.obj v.record) = .ok v.record)
    (hv : v = { startedNotice with
      key := v.key, mutationUid := v.mutationUid, noticeId := v.noticeId, afterRevision := some after,
      beforeRevision := before, source := source, statusAfter := some statusAfter, statusBefore := some statusBefore,
      summary := v.summary })
    (hrevision : commitPair "committed" (.int after) = .ok (some after))
    (hpair : pairedStatus "task.status" (.str statusBefore) (.str statusAfter) =
      .ok (some statusBefore, some statusAfter))
    (hsummary : summaryFor P "task.status" "committed" (some statusBefore) (some statusAfter) = .ok v.summary)
    (hundoable : undoableFor "task.status" "committed" (some after) (some statusBefore) (some statusAfter) = true) :
    buildStatusNotice P (.str v.workspaceUid) (.str v.entityUid) before after source v.key statusBefore statusAfter =
      .ok v.record := by
  unfold buildStatusNotice
  rw [hkey.uid, ok_bind, hkey.token, ok_bind, hrevision, ok_bind, hpair, ok_bind]
  dsimp only
  rw [hkey.mutation, ok_bind, hkey.id, ok_bind, hsummary, ok_bind, hundoable, ← hvalid, hv]
  rfl

theorem summaryFor_started : summaryFor clientPlatform "task.status" "committed" (some "open") (some "started") =
    .ok startedNotice.summary :=
  Effect.Refusing.toOption_eq_some.mp (by decide)

/-- The notice of a request of a client, as the sample and its platform know it. -/
structure ClientNotice (v : NoticeValues) : Prop where
  valid : validateNotice clientPlatform (.obj v.record) = .ok v.record
  built : buildStatusNotice clientPlatform (.str startedNotice.workspaceUid) (.str startedNotice.entityUid) 0 1 "gui"
    v.key "open" "started" = .ok v.record
  request : keyedIntentRequest v.key (.obj [("status", .str "started"), ("revision", .int 0)]) = .ok ("started", 0)
  allowed : validateIdempotencyKey v.key = .ok ()
  loads : clientPlatform.loads (noticeBlob v) = some (.obj v.record)
  short : 1 ≤ (noticeBlob v).length ∧ (noticeBlob v).length ≤ 8192

theorem noticeBlob_ne {v w : NoticeValues} (h : Json.compactText (.obj v.record) ≠ Json.compactText (.obj w.record)) :
    noticeBlob v ≠ noticeBlob w :=
  fun hsame ↦ h (String.ofList_injective hsame)

theorem asciiPlatform_lookup (names : List ((String × String) × String)) (texts : List (String × Json)) (text :
    String) :
    (asciiPlatform names texts).loads text = texts.lookup text := rfl

theorem clientNotice_clash : ClientNotice clashNotice where
  valid := validateNotice_clash
  built := by
    apply buildStatusNotice_of_valid keyFields_clash validateNotice_clash
    · rfl
    · rfl
    · rfl
    · exact summaryFor_started
    · rfl
  request := rfl
  allowed := rfl
  loads := by
    rw [clientPlatform, asciiPlatform_lookup, List.lookup_cons, beq_self_eq_true]
  short := by
    rw [noticeBlob, String.length_ofList]
    decide +kernel

theorem clientNotice_intent : ClientNotice intentNotice where
  valid := validateNotice_intent
  built := by
    apply buildStatusNotice_of_valid keyFields_intent validateNotice_intent
    · rfl
    · rfl
    · rfl
    · exact summaryFor_started
    · rfl
  request := rfl
  allowed := rfl
  loads := by
    have hne : noticeBlob intentNotice ≠ noticeBlob clashNotice := noticeBlob_ne (by decide +kernel)
    rw [clientPlatform, asciiPlatform_lookup, List.lookup_cons, beq_false_of_ne hne, List.lookup_cons, beq_self_eq_true]
  short := by
    rw [noticeBlob, String.length_ofList]
    decide +kernel

def clashFact : Record := [("id", .str "PS-000002"), ("type", .str factType), ("task_id", .str "T-0001"),
  ("task_uid", .str "6f1c2b7e-9a54-4d3e-8f10-2b7c5a9d4e61"), ("previous_fact_id", .str "PS-000001"),
  ("prior_revision", .int 0), ("new_revision", .int 1), ("prior_status", .str "open"), ("status", .str "started"),
  ("created_at", .str "2026-09-01T10:00:01Z"), ("actor", .str "local.user"), ("provenance", .str "cli")]

/-- The event of the notice of the keyed request. -/
def clientEvent (v : NoticeValues) : Record := noticeEvent "E-000001" "2026-09-01T10:00:01Z" (.str "T-0001") (noticeBlob v)

/-- The sample after the keyed request, as far as a later change reads it. -/
structure Clashed (documents : Documents) : Prop where
  workspace : documents.workspace = sampleDocuments.workspace
  backlog : documents.backlog = sampleDocuments.backlog.set "tasks" (.arr [.obj startedTask])
  facts : documents.activity.get "planning_status" = some (.arr [.obj sampleFact, .obj clashFact])

variable {v : NoticeValues}

/-- The keyed request is served, and its notice is kept under the key of the client. -/
theorem ClientNotice.served (h : ClientNotice v) : ∃ after, served (setTaskStatusKeyed clientPlatform sampleDocuments
    (sampleClock (sampleMoment 1)) "T-0001" (.obj [("status", .str "started"), ("revision", .int 0)]) v.key
      "/api/v1/tasks/T-0001/status" none) = some after ∧ Clashed after ∧
        after.activity.get "activity" = some (.arr [.obj (clientEvent v)]) := by
  have hrequest : keyedIntentRequest v.key (.obj [("status", .str "started"), ("revision", .int 0)]) =
      .ok ("started", 0) := h.request
  obtain ⟨digest, hdigest⟩ : ∃ digest, rawRequestDigest clientPlatform
      (.obj [("status", .str "started"), ("revision", .int 0)]) none = .ok digest := ⟨_, rfl⟩
  have hkey : validateIdempotencyKey v.key = .ok () := h.allowed
  have hledger : listAt sampleDocuments.activity "idempotency" = .ok [] := rfl
  have hreplay : idempotencyReplay clientPlatform.toInterpreter sampleDocuments.activity sampleDocuments.replies
      ⟨v.key, "PATCH", "/api/v1/tasks/T-0001/status", digest⟩ = .ok none := by
    rw [idempotencyReplay, hkey, ok_bind, hledger, ok_bind, replayFrom]
  have htasks : tasksOf sampleDocuments.backlog = .ok [.obj sampleTask] := rfl
  have hfound : find clientPlatform.toInterpreter [.obj sampleTask] "T-0001" "task" = .ok (0, sampleTask) := rfl
  have hheld : revision sampleTask = .ok 0 := rfl
  have hid : taskIdOf sampleTask = .ok "T-0001" := rfl
  have hstatus : projectedStatus clientPlatform sampleDocuments.backlog sampleDocuments.activity "T-0001" = .ok "open" :=
    Effect.Refusing.toOption_eq_some.mp (by decide +kernel)
  have hnext : nextRevision sampleTask = .ok 1 := rfl
  have htransition : appendTransition sampleDocuments.activity sampleTask "open" "started" 0 1
      ((sampleClock (sampleMoment 1)).now 0).utcNow "local.user" "cli" =
        .ok (sampleDocuments.activity.set "planning_status" (.arr [.obj sampleFact, .obj clashFact]),
          sampleTask.set "status_fact_id" (.str "PS-000002")) := rfl
  have hworkspace : workspaceUid sampleDocuments = .ok startedNotice.workspaceUid := rfl
  have hnumbered : nextId clientPlatform.toInterpreter [] ['E'] 6 = .ok "E-000001" :=
    Effect.Refusing.toOption_eq_some.mp (by decide)
  have hrecorded : recordStatusNotice clientPlatform
      (sampleDocuments.activity.set "planning_status" (.arr [.obj sampleFact, .obj clashFact]))
      (sampleTask.set "status_fact_id" (.str "PS-000002")) startedNotice.workspaceUid ⟨"open", "started", 0, 1, v.key, "gui"⟩
      ((sampleClock (sampleMoment 1)).now 1).utcNow =
        .ok ((sampleDocuments.activity.set "planning_status" (.arr [.obj sampleFact, .obj clashFact])).set "activity"
          (.arr ([] ++ [.obj (noticeEvent "E-000001" ((sampleClock (sampleMoment 1)).now 1).utcNow (.str "T-0001")
            (noticeBlob v))]))) := by
    apply recordStatusNotice_of_free
    · rfl
    · exact h.built
    · exact serializeNotice_of_valid h.valid
    · rfl
    · rfl
    · exact hnumbered
    · rfl
  have hprojected : (projectTask clientPlatform (touched (sampleTask.set "status_fact_id" (.str "PS-000002"))
      "2026-09-01" 1) "started").toOption.isSome = true := by decide
  obtain ⟨projected, hprojected⟩ := exists_of_isSome hprojected
  have hchange : changeStatus clientPlatform sampleDocuments sampleDocuments.activity sampleTask "cli"
      ⟨"open", "started", 0, 1, v.key, "gui"⟩ ((sampleClock (sampleMoment 1)).now 0).utcNow
      ((sampleClock (sampleMoment 1)).now 1).utcNow = .ok
        ((sampleDocuments.activity.set "planning_status" (.arr [.obj sampleFact, .obj clashFact])).set "activity"
          (.arr [.obj (clientEvent v)]), sampleTask.set "status_fact_id" (.str "PS-000002")) := by
    unfold changeStatus
    rw [htransition, ok_bind]
    dsimp only
    rw [hworkspace, ok_bind, hrecorded, ok_bind]
    rfl
  obtain ⟨logged, hlogged⟩ : ∃ logged, recordIdempotency
      ((sampleDocuments.activity.set "planning_status" (.arr [.obj sampleFact, .obj clashFact])).set "activity"
        (.arr [.obj (clientEvent v)])) ⟨v.key, "PATCH", "/api/v1/tasks/T-0001/status", digest⟩ 200
        ((sampleClock (sampleMoment 1)).now 2).utcNow (.frozen (freshResponse projected)) = .ok logged := ⟨_, rfl⟩
  have hserved : setTaskStatusKeyed clientPlatform sampleDocuments (sampleClock (sampleMoment 1)) "T-0001"
      (.obj [("status", .str "started"), ("revision", .int 0)]) v.key "/api/v1/tasks/T-0001/status" none =
        .ok ⟨⟨200, freshResponse projected⟩, some (withTask sampleDocuments [.obj sampleTask] 0
          (touched (sampleTask.set "status_fact_id" (.str "PS-000002")) "2026-09-01" 1) logged)⟩ := by
    unfold setTaskStatusKeyed keyed
    rw [hrequest, ok_bind]
    dsimp only
    rw [hdigest, ok_bind, hreplay, ok_bind]
    dsimp only
    rw [htasks, ok_bind, hfound, ok_bind]
    dsimp only
    rw [hheld, ok_bind, if_neg (by decide), hid, ok_bind, hstatus, ok_bind, if_neg (by decide), hnext, ok_bind,
      hchange, ok_bind]
    dsimp only
    rw [show (sampleClock (sampleMoment 1)).today 0 = "2026-09-01" from rfl, hprojected, ok_bind, hlogged, ok_bind]
    rfl
  refine ⟨withTask sampleDocuments [.obj sampleTask] 0 (touched (sampleTask.set "status_fact_id" (.str "PS-000002"))
    "2026-09-01" 1) logged, ?_, ⟨rfl, rfl, ?_⟩, ?_⟩
  · rw [hserved]
    rfl
  · exact appendTo_get hlogged (by decide)
  · exact appendTo_get hlogged (by decide)

def doneFact : Record := [("id", .str "PS-000003"), ("type", .str factType), ("task_id", .str "T-0001"),
  ("task_uid", .str "6f1c2b7e-9a54-4d3e-8f10-2b7c5a9d4e61"), ("previous_fact_id", .str "PS-000002"),
  ("prior_revision", .int 1), ("new_revision", .int 2), ("prior_status", .str "started"), ("status", .str "done"),
  ("created_at", .str "2026-09-01T10:00:02Z"), ("actor", .str "local.user"), ("provenance", .str "cli")]

/-- The activity before the notice of the later change, and the change. -/
def laterActivity (activity : Record) : Record :=
  activity.set "planning_status" (.arr [.obj sampleFact, .obj clashFact, .obj doneFact])

def laterTask : Record := startedTask.set "status_fact_id" (.str "PS-000003")

def laterChange : StatusChange := ⟨"started", "done", 1, 2, clashKey, "cli"⟩

/-- A later change of the Task without a key comes down to what becomes of its notice. -/
theorem Clashed.setTaskStatus_eq (h : Clashed documents) :
    ∃ projected, setTaskStatus clientPlatform documents (sampleClock (sampleMoment 2)) "T-0001" "done" .null =
      (recordStatusNotice clientPlatform
      (laterActivity documents.activity) laterTask startedNotice.workspaceUid laterChange
        "2026-09-01T10:00:02Z" >>= fun activity ↦ .ok ⟨.obj projected,
          some (withTask documents [.obj startedTask] 0 (touched laterTask "2026-09-01" 2) activity)⟩) := by
  have hlisted : documents.backlog.get "tasks" = some (.arr [.obj startedTask]) := by
    rw [h.backlog]
    exact Dict.get_set_self ..
  have htasks : tasksOf documents.backlog = .ok [.obj startedTask] := by
    rw [tasksOf, field_eq_ok.mpr hlisted, ok_bind]
    rfl
  have hfound : find clientPlatform.toInterpreter [.obj startedTask] "T-0001" "task" = .ok (0, startedTask) := rfl
  have hheld : revision startedTask = .ok 1 := rfl
  have hexpected : expectedRevision 1 .null = .ok 1 := rfl
  have hid : taskIdOf startedTask = .ok "T-0001" := rfl
  have hprojectedNow : projectedStatus clientPlatform (sampleDocuments.backlog.set "tasks" (.arr [.obj startedTask]))
      [("planning_status", .arr [.obj sampleFact, .obj clashFact])] "T-0001" = .ok "started" :=
    Effect.Refusing.toOption_eq_some.mp (by decide +kernel)
  have hstatus : projectedStatus clientPlatform documents.backlog documents.activity "T-0001" = .ok "started" := by
    rw [h.backlog, ← hprojectedNow]
    exact projectedStatus_congr h.facts
  have hnext : nextRevision startedTask = .ok 2 := rfl
  have hkey : statusNoticeKey clientPlatform startedTask 1 = .ok clashKey := rfl
  have hlog : listAt documents.activity "planning_status" = .ok [.obj sampleFact, .obj clashFact] :=
      listAt_of_get h.facts
  have htransition : appendTransition documents.activity startedTask "started" "done" 1 2
      ((sampleClock (sampleMoment 2)).now 0).utcNow "local.user" "cli" =
        .ok (laterActivity documents.activity, laterTask) := by
    unfold appendTransition
    rw [hlog, ok_bind]
    rfl
  have hworkspace : workspaceUid documents = .ok startedNotice.workspaceUid := by
    rw [workspaceUid, h.workspace]
    rfl
  have hprojected : (projectTask clientPlatform (touched laterTask "2026-09-01" 2) "done").toOption.isSome = true := by
    decide
  obtain ⟨projected, hprojected⟩ := exists_of_isSome hprojected
  refine ⟨projected, ?_⟩
  unfold setTaskStatus
  rw [if_neg (by decide), if_neg (by decide), htasks, ok_bind, hfound, ok_bind]
  dsimp only
  rw [hheld, ok_bind, hexpected, ok_bind, if_neg (by decide), hid, ok_bind, hstatus, ok_bind, if_neg (by decide),
    hnext, ok_bind, hkey, ok_bind]
  unfold changeStatus
  dsimp only
  rw [htransition, ok_bind]
  dsimp only
  rw [hworkspace, ok_bind]
  have hsame : recordStatusNotice clientPlatform (laterActivity documents.activity) laterTask startedNotice.workspaceUid
      ⟨"started", "done", 1, 2, clashKey, if "cli" = "cli" then "cli" else "gui"⟩
      ((sampleClock (sampleMoment 2)).now 1).utcNow = recordStatusNotice clientPlatform
        (laterActivity documents.activity) laterTask startedNotice.workspaceUid laterChange "2026-09-01T10:00:02Z" := rfl
  rw [hsame]
  cases recordStatusNotice clientPlatform (laterActivity documents.activity) laterTask startedNotice.workspaceUid
      laterChange "2026-09-01T10:00:02Z" with
  | error refusal => rfl
  | ok activity =>
      rw [ok_bind, show (sampleClock (sampleMoment 2)).today 0 = "2026-09-01" from rfl, ok_bind,
        show (pure (activity, laterTask) : Checked (Record × Record)) = .ok (activity, laterTask) from rfl, ok_bind,
        hprojected]
      rfl

theorem buildStatusNotice_later : buildStatusNotice clientPlatform (.str startedNotice.workspaceUid)
    (.str startedNotice.entityUid) 1 2 "cli" clashKey "started" "done" = .ok laterNotice.record := by
  have hkey : KeyFields clientPlatform laterNotice :=
    ⟨keyFields_clash.uid, keyFields_clash.token, keyFields_clash.mutation, keyFields_clash.id⟩
  apply buildStatusNotice_of_valid hkey validateNotice_later
  · rfl
  · rfl
  · rfl
  · exact Effect.Refusing.toOption_eq_some.mp (by decide)
  · rfl

/-- Without the notice of the client the change is saved. -/
theorem Clashed.saved_without_events (h : Clashed documents) :
    (performed (setTaskStatus clientPlatform (withoutEvents documents) (sampleClock (sampleMoment 2)) "T-0001" "done"
      .null)).isSome := by
  have hblank : Clashed (withoutEvents documents) :=
    ⟨h.workspace, h.backlog, (Dict.get_set_of_ne _ (by decide) _).trans h.facts⟩
  obtain ⟨projected, hstatus⟩ := hblank.setTaskStatus_eq
  have hevents : (laterActivity (withoutEvents documents).activity).get "activity" = some (.arr []) :=
    (Dict.get_set_of_ne _ (by decide) _).trans (Dict.get_set_self ..)
  have hnumbered : nextId clientPlatform.toInterpreter [] ['E'] 6 = .ok "E-000001" :=
    Effect.Refusing.toOption_eq_some.mp (by decide)
  have hrecorded : recordStatusNotice clientPlatform (laterActivity (withoutEvents documents).activity) laterTask
      startedNotice.workspaceUid laterChange "2026-09-01T10:00:02Z" = .ok
        ((laterActivity (withoutEvents documents).activity).set "activity" (.arr ([] ++ [.obj (noticeEvent "E-000001"
          "2026-09-01T10:00:02Z" (.str "T-0001") (noticeBlob laterNotice))]))) := by
    apply recordStatusNotice_of_free
    · rfl
    · exact buildStatusNotice_later
    · exact serializeNotice_of_valid validateNotice_later
    · rw [findNotice, hevents]
      rfl
    · exact listAt_of_get hevents
    · exact hnumbered
    · rfl
  rw [hstatus, hrecorded, ok_bind]
  rfl

/-- The log after the keyed request has the notice of the request. -/
theorem ClientNotice.logged (h : ClientNotice v) {activity : Record}
    (hevents : activity.get "activity" = some (.arr [.obj (clientEvent v)])) :
    logNotices clientPlatform activity = .ok [v.record] := by
  have hread : noticeFromEvent clientPlatform (.obj (clientEvent v)) = .ok (some v.record) :=
    noticeFromEvent_of_parse rfl rfl h.short (parseNotice_serialized (serializeNotice_of_valid h.valid) h.loads)
  rw [logNotices, eventsOf, hevents, List.reverse_singleton, noticesOf, hread, ok_bind]
  rfl

/-- With the notice under its own key the change is refused. -/
theorem Clashed.refused (h : Clashed documents)
    (hevents : documents.activity.get "activity" = some (.arr [.obj (clientEvent clashNotice)])) :
    setTaskStatus clientPlatform documents (sampleClock (sampleMoment 2)) "T-0001" "done" .null =
      receiptError "idempotency_conflict" := by
  obtain ⟨projected, hstatus⟩ := h.setTaskStatus_eq
  have hevents' : (laterActivity documents.activity).get "activity" = some (.arr [.obj (clientEvent clashNotice)]) :=
    (Dict.get_set_of_ne _ (by decide) _).trans hevents
  have hsame : Json.same (valueAt laterNotice.record "notice_id") (valueAt clashNotice.record "notice_id") = true :=
    Json.same_str_left.mpr rfl
  have hfound : findNotice clientPlatform (laterActivity documents.activity) (valueAt laterNotice.record "notice_id") =
      .ok (some clashNotice.record) := by
    refine findNotice_eq_ok.mpr ⟨[clashNotice.record], clientNotice_clash.logged hevents', ?_⟩
    rw [List.find?_cons, hsame]
  have hrecorded : recordStatusNotice clientPlatform (laterActivity documents.activity) laterTask
      startedNotice.workspaceUid laterChange "2026-09-01T10:00:02Z" = receiptError "idempotency_conflict" := by
    apply recordStatusNotice_of_other
    · rfl
    · exact buildStatusNotice_later
    · exact serializeNotice_of_valid validateNotice_later
    · exact hfound
    · exact serializeNotice_of_valid validateNotice_clash
    · exact noticeBlob_ne (by decide)
  rw [hstatus, hrecorded]
  rfl

/-- A client took the key `ts:`, the Task and the revision that its own change leaves: the next change without a
key, which an empty log would take, is refused as a conflict. -/
theorem clientKey_refuses_unkeyed : ∃ after, ClientRun clientPlatform sampleDocuments [clashKey] after ∧
    (performed (setTaskStatus clientPlatform (withoutEvents after) (sampleClock (sampleMoment 2)) "T-0001" "done"
      .null)).isSome ∧
    setTaskStatus clientPlatform after (sampleClock (sampleMoment 2)) "T-0001" "done" .null =
      receiptError "idempotency_conflict" := by
  obtain ⟨after, hserved, hclashed, hevents⟩ := clientNotice_clash.served
  exact ⟨after, ClientRun.refl.keyed _ _ _ _ _ _ hserved, hclashed.saved_without_events, hclashed.refused hevents⟩

/-- After a keyed request with another key the same change is saved. -/
theorem intentNotice_unkeyed_accepted : ∃ after, ClientRun clientPlatform sampleDocuments ["intent-0001"] after ∧
    (performed (setTaskStatus clientPlatform after (sampleClock (sampleMoment 2)) "T-0001" "done" .null)).isSome := by
  obtain ⟨after, hserved, hclashed, hevents⟩ := clientNotice_intent.served
  have hrun : ClientRun clientPlatform sampleDocuments ["intent-0001"] after :=
    ClientRun.refl.keyed _ _ _ _ _ _ hserved
  have huids : DistinctUids sampleDocuments := by
    intro tasks htasks
    cases htasks
    exact List.nodup_singleton _
  have hnotices := clientNotice_intent.logged hevents
  have hreads : LogReads clientPlatform after.activity := by
    refine ⟨⟨_, listAt_of_get hevents, ?_⟩, ⟨_, hnotices⟩⟩
    intro event hevent
    exact ⟨_, List.mem_singleton.mp hevent⟩
  have hlisted : listAt after.backlog "tasks" = .ok [.obj startedTask] := by
    rw [hclashed.backlog]
    exact listAt_set ..
  have hworkspace : workspaceUid after = .ok startedNotice.workspaceUid := by
    rw [workspaceUid, hclashed.workspace]
    rfl
  have hfound : find clientPlatform.toInterpreter [.obj startedTask] "T-0001" "task" = .ok (0, startedTask) := rfl
  have huid : startedTask.get "uid" = some (.str startedNotice.entityUid) := rfl
  have hheld : revision startedTask = .ok 1 := rfl
  have hderived : deriveNoticeId clientPlatform (.str startedNotice.workspaceUid)
      (.str (unkeyedStatusKey startedNotice.entityUid 1)) = .ok clashNotice.noticeId := keyFields_clash.id
  have hother : valueAt intentNotice.record "notice_id" = .str intentNotice.noticeId := rfl
  refine ⟨after, hrun, ?_⟩
  apply (unkeyed_change_accepted hrun huids rfl hreads hlisted hfound huid hheld ?_ ?_).1
  · exact hclashed.saved_without_events
  · decide
  · intro workspace id hworkspace' hid notices hnotices' notice hnotice hsame
    rw [hworkspace] at hworkspace'
    cases hworkspace'
    rw [hderived] at hid
    cases hid
    rw [hnotices] at hnotices'
    cases hnotices'
    rw [List.mem_singleton.mp hnotice, hother, Json.str.injEq] at hsame
    exact absurd hsame (by decide)

end WorkStack.Service
