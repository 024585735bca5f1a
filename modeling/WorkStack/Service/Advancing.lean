import WorkStack.Service.TaskSteps

/-!
# Records that advance

Whatever a service writes to a record, it raises the revision and keeps the identity, and it adds records
only at the end of their list. So a record that is found by its identity is found in the same place after
any number of writes, as it was or with a later revision.
-/

namespace WorkStack.Service

open Effect.Outcome Python

/-! ## One record -/

/-- A write to a record: its identity is kept and its revision is raised. -/
structure Revises (record after : Record) : Prop where
  id : after.get "id" = record.get "id"
  uid : after.get "uid" = record.get "uid"
  raised : ∃ m n, revision record = .ok m ∧ revision after = .ok n ∧ m < n

theorem Revises.trans {a b c : Record} (hab : Revises a b) (hbc : Revises b c) : Revises a c := by
  obtain ⟨l, m, hl, hm, hlt⟩ := hab.raised
  obtain ⟨m', n, hm', hn, hlt'⟩ := hbc.raised
  rw [hm] at hm'
  cases hm'
  exact ⟨hbc.id.trans hab.id, hbc.uid.trans hab.uid, l, n, hl, hn, hlt.trans hlt'⟩

variable {record : Record}

theorem revision_of_get {n : ℤ} (h : record.get "revision" = some (.int n)) (hlow : 0 ≤ n) (hhigh : n ≤ maxRevision) :
    revision record = .ok n := by
  unfold revision
  rw [h]
  simp only [hlow, hhigh, and_self, if_true]

theorem revision_bounds {n : ℤ} (h : revision record = .ok n) :
    record.get "revision" = some (.int n) ∧ 0 ≤ n ∧ n ≤ maxRevision := by
  unfold revision at h
  split at h
  · cases h
  · next value hvalue =>
      split at h
      · next hbounds =>
          cases h
          exact ⟨hvalue, hbounds⟩
      · cases h
  · cases h

theorem nextRevision_eq_ok {next : ℤ} (h : nextRevision record = .ok next) :
    ∃ current, revision record = .ok current ∧ next = current + 1 ∧ next ≤ maxRevision := by
  obtain ⟨current, hcurrent, h⟩ := bind_eq_ok.mp h
  obtain ⟨-, -, hhigh⟩ := revision_bounds hcurrent
  split at h
  · cases h
  · next hne =>
      cases h
      exact ⟨current, hcurrent, rfl, by omega⟩

theorem nextNoticeRevision_eq_ok {next : ℤ} (h : nextNoticeRevision record = .ok next) :
    ∃ current, revision record = .ok current ∧ next = current + 1 ∧ next ≤ maxRevision := by
  obtain ⟨current, hcurrent, h⟩ := bind_eq_ok.mp h
  split at h
  · cases h
  · cases h
    exact ⟨current, hcurrent, rfl, by omega⟩

/-- A record with the next revision under the same identity is a write to it. -/
theorem revises_of_next {record after : Record} {current next : ℤ} (hcurrent : revision record = .ok current)
    (hnext : next = current + 1 ∧ next ≤ maxRevision) (hrevision : after.get "revision" = some (.int next))
    (hid : after.get "id" = record.get "id") (huid : after.get "uid" = record.get "uid") : Revises record after := by
  have hlow := (revision_bounds hcurrent).2.1
  exact ⟨hid, huid, current, next, hcurrent, revision_of_get hrevision (by omega) hnext.2, by omega⟩

/-! ## Lists of records -/

/-- An item of a list is as it was, or a record that was written to. -/
def ItemAdvances (item after : Json) : Prop :=
  after = item ∨ ∃ record record', item = .obj record ∧ after = .obj record' ∧ Revises record record'

/-- The items of a list advance in their places, and others may come after them. -/
def ListAdvances (items after : List Json) : Prop :=
  ∀ (index : ℕ) item, items[index]? = some item → ∃ item', after[index]? = some item' ∧ ItemAdvances item item'

theorem ItemAdvances.trans {a b c : Json} (hab : ItemAdvances a b) (hbc : ItemAdvances b c) : ItemAdvances a c := by
  rcases hab with rfl | ⟨record, record', rfl, rfl, hrevises⟩
  · exact hbc
  · rcases hbc with rfl | ⟨middle, last, hmiddle, rfl, hlast⟩
    · exact .inr ⟨record, record', rfl, rfl, hrevises⟩
    · cases hmiddle
      exact .inr ⟨record, last, rfl, rfl, hrevises.trans hlast⟩

theorem ItemAdvances.of_record {item : Json} (h : ItemAdvances (.obj record) item) :
    ∃ after, item = .obj after ∧ (after = record ∨ Revises record after) := by
  rcases h with rfl | ⟨record', after, hrecord, rfl, hrevises⟩
  · exact ⟨record, rfl, .inl rfl⟩
  · cases hrecord
    exact ⟨after, rfl, .inr hrevises⟩

theorem ListAdvances.refl (items : List Json) : ListAdvances items items :=
  fun _ item hitem ↦ ⟨item, hitem, .inl rfl⟩

theorem ListAdvances.trans {a b c : List Json} (hab : ListAdvances a b) (hbc : ListAdvances b c) :
    ListAdvances a c := by
  intro index item hitem
  obtain ⟨middle, hmiddle, hfirst⟩ := hab index item hitem
  obtain ⟨last, hlast, hsecond⟩ := hbc index middle hmiddle
  exact ⟨last, hlast, hfirst.trans hsecond⟩

theorem ListAdvances.tail {item item' : Json} {items items' : List Json}
    (h : ListAdvances (item :: items) (item' :: items')) : ItemAdvances item item' ∧ ListAdvances items items' := by
  constructor
  · obtain ⟨other, hother, hadvances⟩ := h 0 item rfl
    cases hother
    exact hadvances
  · intro index other hother
    exact h (index + 1) other hother

theorem listAdvances_append (items new : List Json) : ListAdvances items (items ++ new) := by
  intro index item hitem
  refine ⟨item, ?_, .inl rfl⟩
  rw [List.getElem?_append_left (List.getElem?_eq_some_iff.mp hitem).1]
  exact hitem

/-- Writing to one record of a list lets the list advance. -/
theorem listAdvances_set {items : List Json} {index : ℕ} {record after : Record}
    (h : items[index]? = some (.obj record)) (hrevises : Revises record after) :
    ListAdvances items (items.set index (.obj after)) := by
  intro other item hitem
  by_cases hindex : index = other
  · subst hindex
    rw [h] at hitem
    cases hitem
    refine ⟨.obj after, ?_, .inr ⟨record, after, rfl, rfl, hrevises⟩⟩
    rw [List.getElem?_set_self (List.getElem?_eq_some_iff.mp h).1]
  · exact ⟨item, by rw [List.getElem?_set_ne hindex]; exact hitem, .inl rfl⟩

/-! ## Finding records -/

/-- The Task of a notice stays the first one with its identity. -/
theorem taskForNotice_advances {entityUid : Json} {start index : ℕ} {items after : List Json} {task : Record}
    (h : ListAdvances items after) (hfind : taskForNotice entityUid start items = .ok (index, task)) :
    ∃ task', taskForNotice entityUid start after = .ok (index, task') ∧ (task' = task ∨ Revises task task') := by
  induction items generalizing start after with
  | nil => cases hfind
  | cons item items ih =>
      cases after with
      | nil =>
          obtain ⟨other, hother, -⟩ := h 0 _ rfl
          cases hother
      | cons item' after =>
          obtain ⟨hitem, hitems⟩ := h.tail
          cases item with
          | obj candidate =>
              obtain ⟨candidate', rfl, hsame⟩ := hitem.of_record
              have huid : valueAt candidate' "uid" = valueAt candidate "uid" := by
                rcases hsame with rfl | hrevises
                · rfl
                · rw [valueAt, valueAt, hrevises.uid]
              simp only [taskForNotice, huid] at hfind ⊢
              split at hfind
              · next hwanted =>
                  cases hfind
                  rw [if_pos hwanted]
                  exact ⟨candidate', rfl, hsame⟩
              · next hwanted =>
                  rw [if_neg hwanted]
                  exact ih hitems hfind
          | _ =>
              rcases hitem with rfl | ⟨record, -, hrecord, -, -⟩
              · exact @ih (start + 1) _ hitems hfind
              · cases hrecord

end WorkStack.Service
