import WorkStack.Effect.Acyclic
import WorkStack.Service.OutcomeRuns
import WorkStack.Service.StatusRuns

/-!
# Parents and dependencies over runs

A Task names its parent and its dependencies by their ids. A patch walks over the relationships of the stored
Tasks before it accepts a new one, and a new Task may name any Task there is. The walk decides whether one Task
leads to another, so no run of commands leaves a relationship to a Task that is not there, or a cycle.
-/

namespace WorkStack.Service

open Effect Effect.Outcome Python Relation

variable {P : Platform} {kind : Relationship} {tasks : List Json} {indexed : Dict String Record} {a b x : String}

/-! ## The walk -/

/-- One Task of an index is related to another. -/
def Points (kind : Relationship) (indexed : Dict String Record) (a b : String) : Prop :=
  ∃ task related, indexed.get a = some task ∧ relatedTo kind task = .ok related ∧ b ∈ related

/-- A walk goes on from a Task it has not visited to the Tasks this one is related to. -/
theorem reachesFrom_task {target current : String} {visited rest : List String} {task : Record}
    (hne : current ≠ target) (hvisited : current ∉ visited) (htask : indexed.get current = some task) :
    reachesFrom kind indexed target visited (current :: rest) = (do
      let related ← relatedTo kind task
      reachesFrom kind indexed target (current :: visited) (related.reverse ++ rest)) := by
  rw [reachesFrom, if_neg hne, dif_neg hvisited, htask]
  dsimp only
  split
  · next refusal hrelated => rw [hrelated, error_bind]
  · next related hrelated => rw [hrelated, ok_bind]

/-- A walk that arrives has followed a path. -/
theorem reachesFrom_true {target : String} {visited pending : List String}
    (h : reachesFrom kind indexed target visited pending = .ok true) :
    ∃ start ∈ pending, ReflTransGen (Points kind indexed) start target := by
  induction visited, pending using reachesFrom.induct kind indexed target with
  | case1 visited =>
      rw [reachesFrom] at h
      cases h
  | case2 visited rest => exact ⟨target, List.mem_cons_self .., .refl⟩
  | case3 visited current rest hne hvisited ih =>
      rw [reachesFrom, if_neg hne, dif_pos hvisited] at h
      obtain ⟨start, hstart, hpath⟩ := ih h
      exact ⟨start, List.mem_cons_of_mem _ hstart, hpath⟩
  | case4 visited current rest hne hvisited htask ih =>
      rw [reachesFrom, if_neg hne, dif_neg hvisited, htask] at h
      obtain ⟨start, hstart, hpath⟩ := ih h
      exact ⟨start, List.mem_cons_of_mem _ hstart, hpath⟩
  | case5 visited current rest hne hvisited task htask refusal hrelated =>
      rw [reachesFrom_task hne hvisited htask, hrelated] at h
      cases h
  | case6 visited current rest hne hvisited task htask related hrelated ih =>
      rw [reachesFrom_task hne hvisited htask, hrelated, ok_bind] at h
      obtain ⟨start, hstart, hpath⟩ := ih h
      rcases List.mem_append.mp hstart with hnew | hrest
      · refine ⟨current, List.mem_cons_self .., hpath.head ?_⟩
        exact ⟨task, related, htask, hrelated, List.mem_reverse.mp hnew⟩
      · exact ⟨start, List.mem_cons_of_mem _ hrest, hpath⟩

/-- A walk that does not arrive has seen a set of Tasks that no relationship leaves. -/
theorem reachesFrom_false {target : String} {visited pending : List String} (hnew : target ∉ visited)
    (h : reachesFrom kind indexed target visited pending = .ok false) :
    ∃ seen : String → Prop, (∀ a, a ∈ visited ∨ a ∈ pending → seen a) ∧ ¬seen target ∧
      ∀ a b, seen a → a ∉ visited → Points kind indexed a b → seen b := by
  induction visited, pending using reachesFrom.induct kind indexed target with
  | case1 visited => exact ⟨(· ∈ visited), by simp, hnew, fun a b ha hnot ↦ absurd ha hnot⟩
  | case2 visited rest =>
      rw [reachesFrom, if_pos rfl] at h
      cases h
  | case3 visited current rest hne hvisited ih =>
      rw [reachesFrom, if_neg hne, dif_pos hvisited] at h
      obtain ⟨seen, hseen, htarget, hclosed⟩ := ih hnew h
      refine ⟨seen, fun a ha ↦ hseen a ?_, htarget, hclosed⟩
      grind
  | case4 visited current rest hne hvisited htask ih =>
      rw [reachesFrom, if_neg hne, dif_neg hvisited, htask] at h
      obtain ⟨seen, hseen, htarget, hclosed⟩ := ih (by grind) h
      refine ⟨seen, fun a ha ↦ hseen a (by grind), htarget, fun a b ha hnot hpoints ↦ ?_⟩
      obtain ⟨task, related, hget, hrelated, hb⟩ := hpoints
      exact hclosed a b ha (by grind) ⟨task, related, hget, hrelated, hb⟩
  | case5 visited current rest hne hvisited task htask refusal hrelated =>
      rw [reachesFrom_task hne hvisited htask, hrelated] at h
      cases h
  | case6 visited current rest hne hvisited task htask related hrelated ih =>
      rw [reachesFrom_task hne hvisited htask, hrelated, ok_bind] at h
      obtain ⟨seen, hseen, htarget, hclosed⟩ := ih (by grind) h
      refine ⟨seen, fun a ha ↦ hseen a (by grind), htarget, fun a b ha hnot hpoints ↦ ?_⟩
      by_cases hcurrent : a = current
      · obtain ⟨other, others, hget, hothers, hb⟩ := hpoints
        apply hseen b
        grind
      · exact hclosed a b ha (by grind) hpoints

/-- What a walk decides, as a statement about paths. -/
theorem not_path_of_walk {starts : List String} {target : String}
    (h : relationshipReaches kind indexed starts target = .ok false) {start : String} (hstart : start ∈ starts) :
    ¬ReflTransGen (Points kind indexed) start target := by
  obtain ⟨seen, hseen, htarget, hclosed⟩ := reachesFrom_false List.not_mem_nil h
  apply not_reaches_of_closed (fun a b ha ↦ hclosed a b ha List.not_mem_nil) _ htarget
  exact hseen start (.inr (List.mem_reverse.mpr hstart))

/-- The walk decides whether the relationships lead from one of the starts to the target. -/
theorem relationshipReaches_iff {starts : List String} {target : String} {reaches : Bool}
    (h : relationshipReaches kind indexed starts target = .ok reaches) :
    reaches = true ↔ ∃ start ∈ starts, ReflTransGen (Points kind indexed) start target := by
  cases reaches with
  | true =>
      obtain ⟨start, hstart, hpath⟩ := reachesFrom_true h
      simpa using ⟨start, List.mem_reverse.mp hstart, hpath⟩
  | false =>
      have hnone : ∀ start ∈ starts, ¬ReflTransGen (Points kind indexed) start target :=
        fun start hstart ↦ not_path_of_walk h hstart
      simpa using hnone

/-- A Task leads to one it depends on. -/
theorem sampleIndex_reaches : ∃ start ∈ ["T-0001"],
    ReflTransGen (Points .dependencies [("T-0001", [("dependencies", .arr [.str "T-0002"])])]) start "T-0002" := by
  apply (relationshipReaches_iff ?_).mp rfl
  rw [relationshipReaches, List.reverse_singleton, reachesFrom_task (by decide) (by decide) rfl]
  change reachesFrom _ _ "T-0002" _ ["T-0002"] = .ok true
  rw [reachesFrom, if_pos rfl]

/-- No id that is checked for a cycle leads to the target. -/
theorem cyclicIds_nil {target : String} {ids : List String} (h : cyclicIds kind indexed target ids = .ok []) :
    ∀ id ∈ ids, relationshipReaches kind indexed [id] target = .ok false := by
  induction ids with
  | nil => exact fun id hid ↦ absurd hid List.not_mem_nil
  | cons id ids ih =>
      obtain ⟨reaches, hreaches, h⟩ := bind_eq_ok.mp h
      obtain ⟨cyclic, hcyclic, h⟩ := bind_eq_ok.mp h
      cases reaches with
      | true => cases h
      | false =>
          cases h
          exact List.forall_mem_cons.mpr ⟨hreaches, ih hcyclic⟩

/-! ## The Tasks of a backlog -/

/-- The field of a Task that names the Tasks it is related to. -/
def Relationship.field : Relationship → String
  | parent => "parent_id"
  | dependencies => "dependencies"

/-- A record names a Task. -/
def Names (kind : Relationship) (record : Record) (b : String) : Prop :=
  ∃ related, relatedTo kind record = .ok related ∧ b ∈ related

/-- One Task of a list is related to another. -/
def Related (kind : Relationship) (tasks : List Json) (a b : String) : Prop :=
  ∃ record : Record, .obj record ∈ tasks ∧ record.get "id" = some (.str a) ∧ Names kind record b

/-- Every relationship leads to a Task there is, and none leads back to where it started. -/
structure Sound (kind : Relationship) (tasks : List Json) : Prop where
  listed : ∀ a b, Related kind tasks a b → b ∈ taskIds tasks
  acyclic : Acyclic (Related kind tasks)

theorem names_congr {record other : Record} (h : record.get kind.field = other.get kind.field) :
    Names kind record b ↔ Names kind other b := by
  have hrelated : relatedTo kind record = relatedTo kind other := by
    cases kind with
    | parent => simp only [relatedTo, valueAt, show record.get "parent_id" = other.get "parent_id" from h]
    | dependencies => simp only [relatedTo, listAt, show record.get "dependencies" = other.get "dependencies" from h]
  rw [Names, Names, hrelated]

theorem mem_nonemptyTexts {items : List Json} (h : b ∈ nonemptyTexts items) : .str b ∈ items := by
  induction items with
  | nil => exact absurd h List.not_mem_nil
  | cons item items ih =>
      cases item with
      | str text =>
          rw [nonemptyTexts] at h
          split at h
          · exact List.mem_cons_of_mem _ (ih h)
          · rw [List.mem_cons] at h ⊢
            exact h.imp (congrArg Json.str) ih
      | _ => exact List.mem_cons_of_mem _ (ih h)

/-- The dependencies that a record names are among its texts. -/
theorem names_dependencies {record : Record} {items : List Json} (h : record.get "dependencies" = some (.arr items))
    (hnames : Names .dependencies record b) : .str b ∈ items := by
  obtain ⟨related, hrelated, hb⟩ := hnames
  obtain ⟨listed, hlisted, hrelated⟩ := bind_eq_ok.mp hrelated
  rw [listAt_of_get h] at hlisted
  cases hlisted
  cases hrelated
  exact mem_nonemptyTexts hb

/-- The parent that a record names is its text. -/
theorem names_parent {record : Record} (hnames : Names .parent record b) :
    valueAt record "parent_id" = .str b ∧ b ≠ "" := by
  obtain ⟨related, hrelated, hb⟩ := hnames
  rw [relatedTo] at hrelated
  split at hrelated
  · next parent hparent =>
      cases hrelated
      split at hb
      · exact absurd hb List.not_mem_nil
      · next hne =>
          rw [List.mem_singleton] at hb
          exact ⟨hb ▸ hparent, hb ▸ hne⟩
  · cases hrelated
    exact absurd hb List.not_mem_nil

theorem mem_taskIds : a ∈ taskIds tasks ↔ ∃ record : Record, .obj record ∈ tasks ∧ record.get "id" = some (.str a) := by
  unfold taskIds
  rw [List.mem_filterMap]
  constructor
  · rintro ⟨item, hitem, hid⟩
    split at hid
    · next record =>
        split at hid
        · next id hget =>
            cases hid
            exact ⟨record, hitem, hget⟩
        · cases hid
    · cases hid
  · rintro ⟨record, hrecord, hid⟩
    exact ⟨.obj record, hrecord, by simp only [hid]⟩

/-- Tasks with distinct ids are told apart by them. -/
theorem task_unique (hdistinct : (taskIds tasks).Nodup) {record other : Record} (hrecord : .obj record ∈ tasks)
    (hother : .obj other ∈ tasks) (hid : record.get "id" = some (.str a)) (hsame : other.get "id" = some (.str a)) :
    record = other := by
  obtain ⟨before, rest, rfl⟩ := List.append_of_mem hrecord
  have hsplit : taskIds (before ++ .obj record :: rest) = taskIds before ++ a :: taskIds rest := by
    simp only [taskIds, List.filterMap_append, List.filterMap_cons, hid]
  rw [hsplit, List.nodup_middle, List.nodup_cons, List.mem_append] at hdistinct
  rw [List.mem_append, List.mem_cons, Json.obj.injEq] at hother
  rcases hother with hbefore | hsame' | hrest
  · exact absurd (.inl (mem_taskIds.mpr ⟨other, hbefore, hsame⟩)) hdistinct.1
  · exact hsame'.symm
  · exact absurd (.inr (mem_taskIds.mpr ⟨other, hrest, hsame⟩)) hdistinct.1

/-- An index holds the Tasks of a list under their distinct ids, and nothing else. -/
theorem get_recordsById {result : Dict String Record} (hdistinct : (taskIds tasks).Nodup)
    (h : recordsById indexed tasks = .ok result) {record : Record} :
    result.get a = some record ↔
      (.obj record ∈ tasks ∧ record.get "id" = some (.str a)) ∨ a ∉ taskIds tasks ∧ indexed.get a = some record := by
  induction tasks generalizing indexed with
  | nil =>
      cases h
      simp [taskIds]
  | cons item tasks ih =>
      obtain ⟨first, hfirst, hindexed⟩ := bind_eq_ok.mp h
      clear h
      rw [asRecord_eq_ok] at hfirst
      subst hfirst
      obtain ⟨value, hvalue, hindexed⟩ := bind_eq_ok.mp hindexed
      rw [field_eq_ok] at hvalue
      cases value with
      | str id =>
          have hcons : taskIds (.obj first :: tasks) = id :: taskIds tasks := by
            simp only [taskIds, List.filterMap_cons, hvalue]
          rw [hcons, List.nodup_cons] at hdistinct
          rw [ih hdistinct.2 hindexed, hcons, Dict.get_set, List.mem_cons, List.mem_cons, not_or, Json.obj.injEq]
          have hmem : a ∈ taskIds tasks ↔ _ := mem_taskIds
          grind
      | _ => cases hindexed

/-! ## What a write does to the relationships -/

/-- Where no relationship is new, they stay sound. -/
theorem Sound.kept (h : Sound kind tasks) {changed : List Json} (hids : taskIds changed = taskIds tasks)
    (hrelated : ∀ a b, Related kind changed a b → Related kind tasks a b) : Sound kind changed := by
  constructor
  · intro a b hab
    rw [hids]
    exact h.listed a b (hrelated a b hab)
  · intro a hcycle
    exact h.acyclic a (TransGen.mono hrelated a a hcycle)

/-- They stay sound where the relationships of one Task lead to Tasks from which it was not reached. -/
theorem Sound.redirected (h : Sound kind tasks) {changed : List Json} (hids : ∀ id ∈ taskIds tasks, id ∈ taskIds changed)
    (hother : ∀ a b, a ≠ x → Related kind changed a b → Related kind tasks a b)
    (hnew : ∀ b, Related kind changed x b → b ∈ taskIds tasks ∧ ¬ReflTransGen (Related kind tasks) b x) :
    Sound kind changed := by
  constructor
  · intro a b hab
    by_cases ha : a = x
    · exact hids b (hnew b (ha ▸ hab)).1
    · exact hids b (h.listed a b (hother a b ha hab))
  · exact h.acyclic.redirected hother fun b hb ↦ (hnew b hb).2

/-- A Task of a changed list is the one that was put there, or an old one. -/
theorem related_set {index : ℕ} {updated : Record} (h : Related kind (tasks.set index (.obj updated)) a b) :
    Related kind tasks a b ∨ updated.get "id" = some (.str a) ∧ Names kind updated b := by
  obtain ⟨record, hrecord, hid, hnames⟩ := h
  rcases List.mem_or_eq_of_mem_set hrecord with hold | hnew
  · exact .inl ⟨record, hold, hid, hnames⟩
  · cases hnew
    exact .inr ⟨hid, hnames⟩

/-- A Task that keeps its relationships of a kind can be written to. -/
theorem Sound.set_kept (h : Sound kind tasks) {index : ℕ} {task updated : Record}
    (hfound : tasks[index]? = some (.obj task)) (hid : updated.get "id" = task.get "id")
    (hnames : updated.get kind.field = task.get kind.field) : Sound kind (tasks.set index (.obj updated)) := by
  apply h.kept (taskIds_set hfound hid)
  intro a b hab
  rcases related_set hab with hold | ⟨hown, hnew⟩
  · exact hold
  · exact ⟨task, List.mem_of_getElem? hfound, hid.symm.trans hown, (names_congr hnames).mp hnew⟩

/-- A Task can be given relationships to Tasks that do not lead to it. -/
theorem Sound.set (h : Sound kind tasks) (hdistinct : (taskIds tasks).Nodup) {index : ℕ} {task updated : Record}
    (hfound : tasks[index]? = some (.obj task)) (hid : updated.get "id" = task.get "id")
    (hx : task.get "id" = some (.str x))
    (hnames : ∀ b, Names kind updated b → b ∈ taskIds tasks ∧ ¬ReflTransGen (Related kind tasks) b x) :
    Sound kind (tasks.set index (.obj updated)) := by
  have hids := taskIds_set hfound hid
  have hplaced : .obj updated ∈ tasks.set index (.obj updated) :=
    List.mem_set (List.getElem?_eq_some_iff.mp hfound).1 _
  apply h.redirected (x := x)
  · intro id hmem
    rwa [hids]
  · intro a b ha hab
    rcases related_set hab with hold | ⟨hown, -⟩
    · exact hold
    · rw [hid, hx] at hown
      cases hown
      exact absurd rfl ha
  · intro b ⟨record, hrecord, hrecordId, hrecordNames⟩
    have hsame := task_unique (hids ▸ hdistinct) hrecord hplaced hrecordId (hid.trans hx)
    exact hnames b (hsame ▸ hrecordNames)

/-- A new Task can be related to any Task there is. -/
theorem Sound.append (h : Sound kind tasks) {created : Record} (hx : created.get "id" = some (.str x))
    (hnew : x ∉ taskIds tasks) (hnames : ∀ b, Names kind created b → b ∈ taskIds tasks) :
    Sound kind (tasks ++ [.obj created]) := by
  have hcases : ∀ a b, Related kind (tasks ++ [.obj created]) a b →
      Related kind tasks a b ∨ a = x ∧ Names kind created b := by
    intro a b ⟨record, hrecord, hid, hrelated⟩
    rw [List.mem_append, List.mem_singleton] at hrecord
    rcases hrecord with hold | hcreated
    · exact .inl ⟨record, hold, hid, hrelated⟩
    · cases hcreated
      rw [hx] at hid
      cases hid
      exact .inr ⟨rfl, hrelated⟩
  have hold : ∀ a b, Related kind tasks a b → a ∈ taskIds tasks :=
    fun a b ⟨record, hrecord, hid, _⟩ ↦ mem_taskIds.mpr ⟨record, hrecord, hid⟩
  apply h.redirected (x := x)
  · intro id hid
    rw [taskIds, List.filterMap_append]
    exact List.mem_append_left _ hid
  · intro a b ha hab
    exact (hcases a b hab).resolve_right fun hown ↦ ha hown.1
  · intro b hb
    have hlisted : b ∈ taskIds tasks := by
      rcases hcases x b hb with hrelated | ⟨-, hrelated⟩
      · exact h.listed x b hrelated
      · exact hnames b hrelated
    refine ⟨hlisted, fun hpath ↦ ?_⟩
    rcases hpath.cases_tail with hsame | ⟨c, -, hlast⟩
    · exact hnew (hsame ▸ hlisted)
    · exact hnew (h.listed c x hlast)

/-! ## New Tasks -/

theorem mem_knownIds {known : List Json} (h : knownIds tasks = .ok known) (ha : known.any (Json.same (.str a)) = true) :
    a ∈ taskIds tasks := by
  induction tasks generalizing known with
  | nil =>
      cases h
      cases ha
  | cons item tasks ih =>
      obtain ⟨record, hrecord, hknown⟩ := bind_eq_ok.mp h
      clear h
      rw [asRecord_eq_ok] at hrecord
      subst hrecord
      obtain ⟨id, hid, hknown⟩ := bind_eq_ok.mp hknown
      split at hknown
      · obtain ⟨rest, hrest, hknown⟩ := bind_eq_ok.mp hknown
        cases hknown
        rw [List.any_cons, Bool.or_eq_true, Json.same_str_left] at ha
        rcases ha with hsame | hin
        · rw [hsame, field_eq_ok] at hid
          exact mem_taskIds.mpr ⟨record, List.mem_cons_self .., hid⟩
        · obtain ⟨other, hother, hotherId⟩ := mem_taskIds.mp (ih hrest hin)
          exact mem_taskIds.mpr ⟨other, List.mem_cons_of_mem _ hother, hotherId⟩
      · cases hknown

/-- The relationships of a new Task lead to Tasks there are. -/
theorem normalizeNewTaskRelationships_known {parentId parent : Option String} {requested dependencies : List String}
    (h : normalizeNewTaskRelationships P tasks parentId requested = .ok (parent, dependencies)) :
    (∀ id, parent = some id → id ≠ "" → id ∈ taskIds tasks) ∧ ∀ id ∈ dependencies, id ∈ taskIds tasks := by
  obtain ⟨known, hknown, h⟩ := bind_eq_ok.mp h
  obtain ⟨hunknown, h⟩ := Refusing.ite_eq_ok.mp h
  cases h
  have hall := List.filter_eq_nil_iff.mp (not_not.mp hunknown)
  constructor
  · intro id hparent hne
    have hmem : id ∈ List.filter (· ≠ "") (Option.toList _) :=
      List.mem_filter.mpr ⟨Option.mem_toList.mpr hparent, by simpa using hne⟩
    have hfound := hall id (mem_sortedSet.mpr (List.mem_append_left _ hmem))
    exact mem_knownIds hknown (by simpa using hfound)
  · intro id hid
    have hfound := hall id (mem_sortedSet.mpr (List.mem_append_right _ hid))
    exact mem_knownIds hknown (by simpa using hfound)

/-- The Tasks of a backlog have ids of their own, and sound relationships. -/
def BacklogSound (documents : Documents) : Prop :=
  ∀ tasks, listAt documents.backlog "tasks" = .ok tasks → (taskIds tasks).Nodup ∧ ∀ kind, Sound kind tasks

theorem BacklogSound.distinct {documents : Documents} (h : BacklogSound documents) : DistinctIds documents :=
  fun tasks htasks ↦ (h tasks htasks).1

/-- A new Task is related to Tasks there are, and no Task to it. -/
theorem BacklogSound.add {documents after : Documents} (h : BacklogSound documents) (s : SavedTask P documents after) :
    BacklogSound after := by
  intro changed hchanged
  refine ⟨(s.elsewhere h.distinct).distinct changed hchanged, fun kind ↦ ?_⟩
  obtain ⟨id, parent, dependencies, hnext, hknown, hid, hparent, hdependencies⟩ := appendTask_eq_ok s.appended
  have hkept : ∀ name, name ≠ "status_fact_id" → s.created.get name = s.record.get name := s.kept
  rw [s.tasks_after, Except.ok.injEq] at hchanged
  rw [← hchanged]
  obtain ⟨hparents, hlisted⟩ := normalizeNewTaskRelationships_known hknown
  apply ((h s.tasks s.listed).2 kind).append ((hkept _ (by decide)).trans hid) (nextTaskDisplay_new hnext)
  intro b hb
  cases kind with
  | parent =>
      obtain ⟨hvalue, hne⟩ := names_parent hb
      rw [valueAt_of_get ((hkept _ (by decide)).trans hparent)] at hvalue
      cases parent with
      | none => cases hvalue
      | some parent =>
          cases hvalue
          exact hparents _ rfl hne
  | dependencies =>
      have hitem := names_dependencies ((hkept _ (by decide)).trans hdependencies) hb
      obtain ⟨dependency, hdependency, hsame⟩ := List.mem_map.mp hitem
      cases hsame
      exact hlisted _ hdependency

/-! ## Patches -/

/-- A walk over the index that does not arrive shows that the Tasks are not related that way. -/
theorem not_related_of_walk (hdistinct : (taskIds tasks).Nodup) (hindexed : recordsById [] tasks = .ok indexed)
    (h : relationshipReaches kind indexed [b] x = .ok false) : ¬ReflTransGen (Related kind tasks) b x := by
  intro hpath
  apply not_path_of_walk h (List.mem_singleton_self b)
  apply ReflTransGen.mono _ b x hpath
  intro a c ⟨record, hrecord, hid, related, hrelated, hc⟩
  exact ⟨record, related, (get_recordsById hdistinct hindexed).mpr (.inl ⟨hrecord, hid⟩), hrelated, hc⟩

theorem mem_taskIds_of_indexed (hdistinct : (taskIds tasks).Nodup) (hindexed : recordsById [] tasks = .ok indexed)
    (h : ¬(indexed.get b).isNone = true) : b ∈ taskIds tasks := by
  obtain ⟨record, hrecord⟩ := Option.ne_none_iff_exists'.mp (mt Option.isNone_iff_eq_none.mpr h)
  rcases (get_recordsById hdistinct hindexed).mp hrecord with hlisted | ⟨-, hempty⟩
  · exact mem_taskIds.mpr ⟨record, hlisted⟩
  · cases hempty

/-- Dependencies that are accepted lead to Tasks there are, and not back. -/
theorem validatePatchDependencies_ok {changes : Record} (hdistinct : (taskIds tasks).Nodup)
    (hindexed : recordsById [] tasks = .ok indexed) (h : validatePatchDependencies x indexed changes = .ok ())
    {value : Json} (hvalue : changes.get "dependencies" = some value) :
    ∃ items, value = .arr items ∧ ∀ b, .str b ∈ items →
      b ∈ taskIds tasks ∧ ¬ReflTransGen (Related .dependencies tasks) b x := by
  rw [validatePatchDependencies, checkField, hvalue] at h
  obtain ⟨items, hitems, h⟩ := bind_eq_ok.mp h
  obtain ⟨ids, hids, h⟩ := bind_eq_ok.mp h
  obtain ⟨hknown, h⟩ := Refusing.ite_eq_ok.mp h
  obtain ⟨cyclic, hcyclic, h⟩ := bind_eq_ok.mp h
  obtain ⟨hnone, -⟩ := Refusing.ite_eq_ok.mp h
  rw [not_not] at hnone
  rw [hnone] at hcyclic
  refine ⟨items, asList_eq_ok.mp hitems, fun b hb ↦ ?_⟩
  have hmem := mem_textsOf hids hb
  have hmissing := List.filter_eq_nil_iff.mp (not_not.mp (not_or.mp hknown).1) b hmem
  exact ⟨mem_taskIds_of_indexed hdistinct hindexed (by simpa using hmissing),
    not_related_of_walk hdistinct hindexed (cyclicIds_nil hcyclic b hmem)⟩

/-- A parent that is accepted is a Task there is, and does not lead back. -/
theorem normalizeAndValidatePatchParent_ok {changes final : Record} (hdistinct : (taskIds tasks).Nodup)
    (hindexed : recordsById [] tasks = .ok indexed)
    (h : normalizeAndValidatePatchParent P.toInterpreter x indexed changes = .ok final) :
    final.get "parent_id" = none ∨ ∃ value, final.get "parent_id" = some value ∧
      ∀ b, value = .str b → b ≠ "" → b ∈ taskIds tasks ∧ ¬ReflTransGen (Related .parent tasks) b x := by
  rcases normalizeField_self h with ⟨-, hnone⟩ | ⟨value, normal, -, hnormal, hsome⟩
  · exact .inl hnone
  · refine .inr ⟨normal, hsome, fun b hb hne ↦ ?_⟩
    subst hb
    obtain ⟨parent, -, hnormal⟩ := bind_eq_ok.mp hnormal
    obtain ⟨-, hnormal⟩ := Refusing.ite_eq_ok.mp hnormal
    cases parent with
    | none => cases hnormal
    | some parent =>
        dsimp only at hnormal
        split at hnormal
        · next hempty =>
            cases hnormal
            exact absurd hempty hne
        · obtain ⟨hknown, hnormal⟩ := Refusing.ite_eq_ok.mp hnormal
          obtain ⟨reaches, hreaches, hnormal⟩ := bind_eq_ok.mp hnormal
          obtain ⟨hreaches', hnormal⟩ := Refusing.ite_eq_ok.mp hnormal
          cases hnormal
          rw [Bool.not_eq_true] at hreaches'
          rw [hreaches'] at hreaches
          exact ⟨mem_taskIds_of_indexed hdistinct hindexed hknown, not_related_of_walk hdistinct hindexed hreaches⟩

/-- A patch leaves the relationships of a kind alone, or leads them to Tasks from which its Task is not reached. -/
theorem SavedPatch.names {documents after : Documents} {clock : Clock} {taskId : String} {patch : Record}
    {origin : Option String} (s : SavedPatch P documents after clock taskId patch origin)
    (hdistinct : (taskIds s.tasks).Nodup) (kind : Relationship) :
    (touched s.updated (clock.today 0) s.next).get kind.field = s.task.get kind.field ∨
      ∀ b, Names kind (touched s.updated (clock.today 0) s.next) b →
        b ∈ taskIds s.tasks ∧ ¬ReflTransGen (Related kind s.tasks) b s.id := by
  obtain ⟨scalar, collected, final, -, -, hdependencies, hfinal, hchanges, -⟩ := patchChangeSet_ok _ s.changes_eq
  obtain ⟨parents, hparents, haligned⟩ := bind_eq_ok.mp s.aligned_eq
  obtain ⟨⟨⟩, -, haligned⟩ := bind_eq_ok.mp haligned
  have hafter : (touched s.updated (clock.today 0) s.next).get kind.field =
      (final.get kind.field).or (s.task.get kind.field) := by
    rw [s.get_after (by cases kind <;> decide), ← Except.ok.inj haligned,
      get_alignParents hparents (by cases kind <;> decide), hchanges, Dict.get_erase, if_neg (by cases kind <;> decide)]
  cases hkept : final.get kind.field with
  | none =>
      rw [hkept, Option.none_or] at hafter
      exact .inl hafter
  | some value =>
      rw [hkept, Option.some_or] at hafter
      refine .inr fun b hb ↦ ?_
      cases kind with
      | parent =>
          rcases normalizeAndValidatePatchParent_ok hdistinct s.index_eq hfinal with hnone | ⟨other, hother, hknown⟩
          · cases hnone.symm.trans hkept
          · cases hother.symm.trans hkept
            obtain ⟨hvalue, hne⟩ := names_parent hb
            exact hknown b ((valueAt_of_get hafter).symm.trans hvalue) hne
      | dependencies =>
          have hcollected : collected.get "dependencies" = some value :=
            (get_normalizeField hfinal (by decide)).symm.trans hkept
          obtain ⟨items, hitems, hknown⟩ := validatePatchDependencies_ok hdistinct s.index_eq hdependencies hcollected
          subst hitems
          exact hknown b (names_dependencies hafter hb)

/-! ## Runs -/

section Runs

variable {documents after : Documents} {clock : Clock}

/-- A write to one Task that keeps its id and the Tasks it names. -/
theorem BacklogSound.replaces (h : BacklogSound documents) {index : ℕ} {task updated : Record}
    (hreplaces : Replaces documents after tasks index task updated) (hid : updated.get "id" = task.get "id")
    (hnames : ∀ kind : Relationship, updated.get kind.field = task.get kind.field) : BacklogSound after := by
  intro changed hchanged
  obtain ⟨hdistinct, hsound⟩ := h tasks hreplaces.listed
  rw [hreplaces.tasks_after, Except.ok.injEq] at hchanged
  rw [← hchanged]
  refine ⟨?_, fun kind ↦ (hsound kind).set_kept hreplaces.found hid (hnames kind)⟩
  rwa [taskIds_set hreplaces.found hid]

/-- A change of a status keeps the id of its Task and the Tasks it names. -/
theorem BacklogSound.changeStatus (h : BacklogSound documents) {index : ℕ} {task updated activity activity' : Record}
    {provenance day factAt noticeAt : String} {change : StatusChange} {next : ℤ}
    (hreplaces : Replaces documents after tasks index task (touched updated day next))
    (hchange : changeStatus P documents activity task provenance change factAt noticeAt = .ok (activity', updated)) :
    BacklogSound after := by
  have hkept : ∀ name, name ∉ ["status_fact_id", "updated_at", "revision"] →
      (touched updated day next).get name = task.get name := by
    intro name hname
    simp only [List.mem_cons, List.not_mem_nil, or_false, not_or] at hname
    rw [get_touched _ _ _ hname.2.1 hname.2.2, changeStatus_task hchange hname.1]
  exact h.replaces hreplaces (hkept _ (by decide)) fun kind ↦ hkept _ (by cases kind <;> decide)

theorem BacklogSound.patchTask (h : BacklogSound documents) {taskId : String} {patch : Json} {origin : Option String}
    (hsaved : performed (patchTask P documents clock taskId patch origin) = some after) : BacklogSound after := by
  obtain ⟨result, hsaved⟩ := performed_eq_some hsaved
  obtain ⟨fields, rfl, ⟨s⟩⟩ := patchTask_saved hsaved
  intro changed hchanged
  obtain ⟨hdistinct, hsound⟩ := h s.tasks s.listed
  rw [s.replaces.tasks_after, Except.ok.injEq] at hchanged
  rw [← hchanged]
  refine ⟨?_, fun kind ↦ ?_⟩
  · rwa [taskIds_set s.replaces.found s.revises.id]
  · rcases s.names hdistinct kind with hkept | hnames
    · exact (hsound kind).set_kept s.replaces.found s.revises.id hkept
    · exact (hsound kind).set hdistinct s.replaces.found s.revises.id (taskIdOf_eq_ok s.id_eq) hnames

theorem BacklogSound.linkTask (h : BacklogSound documents) {objectiveId taskId : String}
    (hsaved : performed (linkTask P.toInterpreter documents clock objectiveId taskId) = some after) :
    BacklogSound after := by
  obtain ⟨result, hsaved⟩ := performed_eq_some hsaved
  obtain ⟨tasks, index, task, next, linked, links, hreplaces, -⟩ := linkTask_saved hsaved
  have hkept : ∀ name, name ∉ ["objective_ids", "updated_at", "revision"] → (touched (task.set "objective_ids"
      (textsJson (sortedSet (links ++ [P.upper (P.strip objectiveId)])))) (clock.today 0) next).get name =
        task.get name := by
    intro name hname
    simp only [List.mem_cons, List.not_mem_nil, or_false, not_or] at hname
    rw [get_touched _ _ _ hname.2.1 hname.2.2, Dict.get_set_of_ne _ (Ne.symm hname.1)]
  exact h.replaces hreplaces (hkept _ (by decide)) fun kind ↦ hkept _ (by cases kind <;> decide)

/-- A request to one of the commands that write to Tasks. -/
inductive TaskRequest where
  | add (task : NewTask)
  | create (body : Json) (key path : String)
  | link (objectiveId taskId : String)
  | change (request : StatusRequest)

/-- The documents a request saves. -/
def serveTask (P : Platform) (documents : Documents) : Clock × TaskRequest → Option Documents
  | (clock, .add task) => performed (addTask P documents clock task)
  | (clock, .create body key path) => served (createTask P documents clock body key path)
  | (clock, .link objectiveId taskId) => performed (linkTask P.toInterpreter documents clock objectiveId taskId)
  | (clock, .change request) => serveStatus P documents (clock, request)

theorem BacklogSound.serveTask (h : BacklogSound documents) (request : TaskRequest)
    (hsaved : serveTask P documents (clock, request) = some after) : BacklogSound after := by
  cases request with
  | add task =>
      obtain ⟨s⟩ := addTask_saved hsaved
      exact h.add s
  | create body key path =>
      obtain ⟨s⟩ := createTask_saved hsaved
      exact h.add s
  | link objectiveId taskId => exact h.linkTask hsaved
  | change request =>
      cases request with
      | patch taskId patch origin => exact h.patchTask hsaved
      | status taskId status expected provenance =>
          obtain ⟨s, -⟩ := setTaskStatus_changes hsaved
          exact h.changeStatus s.replaces s.change_eq
      | keyedStatus taskId body key path requestDigest =>
          rcases setTaskStatusKeyed_changes hsaved with ⟨hbacklog, -⟩ | ⟨s, -⟩
          · unfold BacklogSound
            rwa [hbacklog]
          · exact h.changeStatus s.replaces s.change_eq
      | undo noticeId body key path requestDigest =>
          obtain ⟨s⟩ := undo_saved hsaved
          have hreplaces : Replaces documents after s.tasks s.index s.task (touched s.updated (clock.today 0) s.next) :=
            ⟨s.listed, (taskForNotice_spec s.found).2.1, congrArg Documents.backlog s.after_eq⟩
          exact h.changeStatus hreplaces s.change_eq

/-- No run of the commands that write to Tasks relates a Task to one that is not there, or closes a cycle of parents
or of dependencies. -/
theorem relationships_stay_sound {start : Documents} (h : BacklogSound start) (run : List (Clock × TaskRequest)) :
    BacklogSound (Requests.after (Service.serveTask P) start run) :=
  Requests.invariant_after h fun _ request _ hsound hsaved ↦ hsound.serveTask request.2 hsaved

/-- A second Task depends on the first, which is then asked to depend on the second. -/
theorem sampleDocuments_relationships : BacklogSound (Requests.after (Service.serveTask (asciiPlatform [] []))
    sampleDocuments [(sampleClock (sampleMoment 20), .add { title := "Next", dependencies := ["T-0001"] }),
      (sampleClock (sampleMoment 25), .change (.patch "T-0001" (.obj [("revision", .int 0),
        ("dependencies", .arr [.str "T-0002"])]) none))]) := by
  apply relationships_stay_sound
  intro tasks htasks
  cases htasks
  refine ⟨by decide, fun kind ↦ ?_⟩
  have hnone : ∀ a b, ¬Related kind [.obj sampleTask] a b := by
    rintro a b ⟨record, hrecord, -, related, hrelated, hb⟩
    cases List.mem_singleton.mp hrecord
    have hempty : relatedTo kind sampleTask = .ok [] := by cases kind <;> rfl
    cases hempty.symm.trans hrelated
    exact absurd hb List.not_mem_nil
  constructor
  · exact fun a b hab ↦ absurd hab (hnone a b)
  · intro a hcycle
    obtain ⟨b, hab, -⟩ := TransGen.head'_iff.mp hcycle
    exact hnone a b hab

/-- Every request advances the Tasks: it writes to one with the next revision, or adds one. -/
theorem tasksAdvance_serveTask {request : TaskRequest} (hsaved : serveTask P documents (clock, request) = some after) :
    TasksAdvance documents after := by
  have hadded (s : SavedTask P documents after) : TasksAdvance documents after := by
    intro tasks htasks
    cases s.listed.symm.trans htasks
    exact ⟨_, s.tasks_after, listAdvances_append _ _⟩
  cases request with
  | add task => exact (addTask_saved hsaved).elim hadded
  | create body key path => exact (createTask_saved hsaved).elim hadded
  | link objectiveId taskId =>
      obtain ⟨result, hsaved⟩ := performed_eq_some hsaved
      obtain ⟨tasks, index, task, next, linked, links, hreplaces, hnext, -⟩ := linkTask_saved hsaved
      obtain ⟨current, hcurrent, hnext⟩ := nextRevision_eq_ok hnext
      refine (TaskWrite.one hreplaces (revises_touched hcurrent hnext ?_ ?_)).tasksAdvance
      · exact Dict.get_set_of_ne _ (by decide) _
      · exact Dict.get_set_of_ne _ (by decide) _
  | change request =>
      cases request with
      | patch => exact (patchTask_writes hsaved).1.tasksAdvance
      | status => exact (Writes.status _ _ _ _ _ hsaved).advances.tasks
      | keyedStatus => exact (Writes.keyedStatus _ _ _ _ _ _ hsaved).advances.tasks
      | undo => exact (Writes.undo _ _ _ _ _ _ hsaved).advances.tasks

/-- No run removes a Task or writes to one without raising its revision, so a revision tells which version it is. -/
theorem revisions_tell_versions (start : Documents) (run : List (Clock × TaskRequest)) :
    TasksAdvance start (Requests.after (Service.serveTask P) start run) := by
  apply Requests.invariant_after (advances_refl (P := P) start).tasks
  intro documents request after hadvances hsaved tasks htasks
  obtain ⟨middle, hmiddle, hfirst⟩ := hadvances tasks htasks
  obtain ⟨last, hlast, hsecond⟩ := tasksAdvance_serveTask hsaved middle hmiddle
  exact ⟨last, hlast, hfirst.trans hsecond⟩

end Runs

end WorkStack.Service
