import Mathlib

/-!
# Slots of a list

The items of a list that are wanted occupy its slots. The slots are filled with the items of another list, one after
the other, and everything between them stays where it is. Where the other list has as many items as there are slots,
nothing but the old items of the slots is replaced.

Items are also collected from a list, each at its first place.
-/

namespace WorkStack.Effect.Slots

variable {α : Type}

/-! ## Filling slots -/

/-- The slots of a list, filled from the front. A slot that nothing is left for keeps its item. -/
def refill (wanted : α → Bool) : List α → List α → List α
  | _, [] => []
  | [], item :: items => item :: refill wanted [] items
  | next :: rest, item :: items =>
      if wanted item then next :: refill wanted rest items else item :: refill wanted (next :: rest) items

variable {wanted : α → Bool} {filling items : List α}

@[simp] theorem length_refill : (refill wanted filling items).length = items.length := by
  induction items generalizing filling with
  | nil => cases filling <;> rfl
  | cons item items ih =>
      cases filling with
      | nil => rw [refill, List.length_cons, List.length_cons, ih]
      | cons next rest =>
          rw [refill]
          split <;> rw [List.length_cons, List.length_cons, ih]

/-- What is between the slots stays where it is. -/
theorem getElem?_refill {i : ℕ} {a : α} (h : items[i]? = some a) (ha : wanted a = false) :
    (refill wanted filling items)[i]? = some a := by
  induction items generalizing filling i with
  | nil => cases h
  | cons item items ih =>
      cases filling with
      | nil =>
          cases i with
          | zero => exact h
          | succ i => exact ih h
      | cons next rest =>
          rw [refill]
          cases i with
          | zero =>
              have hitem : item = a := Option.some.inj h
              rw [hitem, ha]
              rfl
          | succ i =>
              split
              · exact ih h
              · exact ih h

/-- Where there are as many items as slots, the slots are exchanged for them. -/
theorem refill_perm (h : filling.length = (items.filter wanted).length) :
    (refill wanted filling items).Perm (filling ++ items.filter fun a ↦ !wanted a) := by
  induction items generalizing filling with
  | nil =>
      have hnone : filling = [] := List.length_eq_zero_iff.mp h
      rw [hnone]
      exact List.Perm.nil
  | cons item items ih =>
      by_cases hitem : wanted item = true
      · rw [List.filter_cons_of_pos hitem, List.length_cons] at h
        cases filling with
        | nil => cases h
        | cons next rest =>
            rw [refill, if_pos hitem, List.filter_cons_of_neg (by simp [hitem]), List.cons_append]
            exact (ih (Nat.succ.inj h)).cons next
      · rw [List.filter_cons_of_neg hitem] at h
        have hkept : (item :: items).filter (fun a ↦ !wanted a) = item :: items.filter fun a ↦ !wanted a :=
          List.filter_cons_of_pos (by simp [hitem])
        have hrefill : refill wanted filling (item :: items) = item :: refill wanted filling items := by
          cases filling with
          | nil => rfl
          | cons next rest => rw [refill, if_neg hitem]
        rw [hrefill, hkept]
        exact ((ih h).cons item).trans List.perm_middle.symm

/-- Where there are as many wanted items as slots, they are what the slots hold. -/
theorem filter_refill (h : filling.length = (items.filter wanted).length) (hwanted : ∀ a ∈ filling, wanted a = true) :
    (refill wanted filling items).filter wanted = filling := by
  induction items generalizing filling with
  | nil =>
      have hnone : filling = [] := List.length_eq_zero_iff.mp h
      rw [hnone]
      rfl
  | cons item items ih =>
      by_cases hitem : wanted item = true
      · rw [List.filter_cons_of_pos hitem, List.length_cons] at h
        cases filling with
        | nil => cases h
        | cons next rest =>
            obtain ⟨hnext, hrest⟩ := List.forall_mem_cons.mp hwanted
            rw [refill, if_pos hitem, List.filter_cons_of_pos hnext, ih (Nat.succ.inj h) hrest]
      · rw [List.filter_cons_of_neg hitem] at h
        have hrefill : refill wanted filling (item :: items) = item :: refill wanted filling items := by
          cases filling with
          | nil => rfl
          | cons next rest => rw [refill, if_neg hitem]
        rw [hrefill, List.filter_cons_of_neg hitem, ih h hwanted]

/-! ## Collecting items -/

variable [DecidableEq α]

/-- The items that are allowed and not yet kept, behind those that are kept. -/
def collect (allowed : α → Bool) : List α → List α → List α
  | kept, [] => kept
  | kept, item :: items =>
      if allowed item = false ∨ item ∈ kept then collect allowed kept items else collect allowed (kept ++ [item]) items

variable {allowed : α → Bool} {kept : List α}

theorem mem_collect {a : α} : a ∈ collect allowed kept items ↔ a ∈ kept ∨ a ∈ items ∧ allowed a = true := by
  induction items generalizing kept with
  | nil => simp [collect]
  | cons item items ih =>
      rw [collect]
      split
      · rename_i hskip
        rw [ih, List.mem_cons]
        constructor
        · rintro (hkept | ⟨hmem, hallowed⟩)
          · exact .inl hkept
          · exact .inr ⟨.inr hmem, hallowed⟩
        · rintro (hkept | ⟨rfl | hmem, hallowed⟩)
          · exact .inl hkept
          · rcases hskip with hskip | hskip
            · rw [hallowed] at hskip
              cases hskip
            · exact .inl hskip
          · exact .inr ⟨hmem, hallowed⟩
      · rename_i hskip
        obtain ⟨hallowed, -⟩ := not_or.mp hskip
        rw [Bool.not_eq_false] at hallowed
        rw [ih, List.mem_append, List.mem_singleton, List.mem_cons]
        constructor
        · rintro ((hkept | rfl) | ⟨hmem, ha⟩)
          · exact .inl hkept
          · exact .inr ⟨.inl rfl, hallowed⟩
          · exact .inr ⟨.inr hmem, ha⟩
        · rintro (hkept | ⟨rfl | hmem, ha⟩)
          · exact .inl (.inl hkept)
          · exact .inl (.inr rfl)
          · exact .inr ⟨hmem, ha⟩

theorem nodup_collect (h : kept.Nodup) : (collect allowed kept items).Nodup := by
  induction items generalizing kept with
  | nil => exact h
  | cons item items ih =>
      rw [collect]
      split
      · exact ih h
      · rename_i hskip
        refine ih (List.nodup_append.mpr ⟨h, List.nodup_singleton item, ?_⟩)
        intro a ha b hb heq
        rw [List.mem_singleton.mp hb] at heq
        exact (not_or.mp hskip).2 (heq ▸ ha)

/-- Items that are all kept add nothing. -/
theorem collect_of_subset (h : ∀ a ∈ items, a ∈ kept) : collect allowed kept items = kept := by
  induction items with
  | nil => rfl
  | cons item items ih =>
      obtain ⟨hitem, hitems⟩ := List.forall_mem_cons.mp h
      rw [collect, if_pos (.inr hitem), ih hitems]

/-- Items without repeats that are allowed are collected as they are. -/
theorem collect_of_nodup (hallowed : ∀ a ∈ items, allowed a = true) (h : (kept ++ items).Nodup) :
    collect allowed kept items = kept ++ items := by
  induction items generalizing kept with
  | nil => rw [collect, List.append_nil]
  | cons item items ih =>
      obtain ⟨hitem, hitems⟩ := List.forall_mem_cons.mp hallowed
      have hnew : item ∉ kept := fun hmem ↦ (List.nodup_append.mp h).2.2 item hmem item (List.mem_cons_self ..) rfl
      have hsplit : kept ++ item :: items = kept ++ [item] ++ items := by rw [List.append_assoc, List.singleton_append]
      rw [hsplit] at h
      rw [collect, if_neg (by simp [hitem, hnew]), ih hitems h, ← hsplit]

end WorkStack.Effect.Slots
