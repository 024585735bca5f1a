import WorkStack.Python.Sorting

/-!
# The first items of an order

Items are put in order by a key that no two of them share, and the first so many are taken. Which items these are
can be told from the items alone: an item is taken where fewer than so many come before it.
-/

namespace WorkStack.Effect.Ranking

variable {α β κ ι : Type} [LinearOrder κ]

/-- Items in the order of their keys. -/
def inOrder (key : α → κ) (items : List α) : List α := items.insertionSort fun a b ↦ key a ≤ key b

theorem perm_inOrder (key : α → κ) (items : List α) : (inOrder key items).Perm items := List.perm_insertionSort _ items

@[simp] theorem mem_inOrder {key : α → κ} {items : List α} {a : α} : a ∈ inOrder key items ↔ a ∈ items :=
  (perm_inOrder key items).mem_iff

/-- Items with different keys are put in increasing order. -/
theorem pairwise_inOrder {key : α → κ} {items : List α} (h : (items.map key).Nodup) :
    (inOrder key items).Pairwise fun a b ↦ key a < key b := by
  have hsorted : (inOrder key items).Pairwise fun a b ↦ key a ≤ key b :=
    List.pairwise_insertionSort (fun a b ↦ key a ≤ key b) items
  have hnodup : ((inOrder key items).map key).Nodup := ((perm_inOrder key items).map key).nodup_iff.mpr h
  exact (hsorted.and (List.pairwise_map.mp hnodup)).imp fun ⟨hle, hne⟩ ↦ lt_of_le_of_ne hle hne

/-- Choosing some of the items and ordering them can be done in either order. -/
theorem inOrder_filter {key : α → κ} {items : List α} (h : (items.map key).Nodup) (p : α → Bool) :
    inOrder key (items.filter p) = (inOrder key items).filter p :=
  Python.insertionSort_eq_of_perm key ((perm_inOrder key items).symm.filter p)
    (List.Pairwise.filter p (pairwise_inOrder h))

/-- An item is among the first of an increasing list where few enough are below it. -/
theorem mem_take_iff {key : α → κ} {sorted : List α} (h : sorted.Pairwise fun a b ↦ key a < key b) (n : ℕ) {a : α} :
    a ∈ sorted.take n ↔ a ∈ sorted ∧ (sorted.filter fun b ↦ decide (key b < key a)).length < n := by
  induction sorted generalizing n with
  | nil => simp
  | cons b sorted ih =>
      obtain ⟨hb, hsorted⟩ := List.pairwise_cons.mp h
      cases n with
      | zero => simp
      | succ n =>
          rw [List.take_succ_cons, List.mem_cons, List.mem_cons, ih hsorted]
          by_cases ha : a ∈ sorted
          · have hbelow : key b < key a := hb a ha
            have hne : a ≠ b := by
              rintro rfl
              exact lt_irrefl _ hbelow
            simp [ha, hne, hbelow]
          · constructor
            · rintro (rfl | ⟨hmem, -⟩)
              · refine ⟨.inl rfl, ?_⟩
                have hnone : sorted.filter (fun b ↦ decide (key b < key a)) = [] := by
                  rw [List.filter_eq_nil_iff]
                  intro c hc
                  simpa using (hb c hc).le
                simp [hnone]
              · exact absurd hmem ha
            · rintro ⟨rfl | hmem, -⟩
              · exact .inl rfl
              · exact absurd hmem ha

/-- Taking the first of some items, and the first of the chosen ones among them, shows the same exactly when the
first items are chosen and are shown alike. -/
theorem take_map_eq_iff {items : List α} {p : α → Bool} {f g : α → β} {name : α → ι}
    (hname : (items.map name).Nodup) (hshow : ∀ a ∈ items, ∀ b ∈ items, f a = g b → name a = name b) (n : ℕ) :
    ((items.filter p).take n).map f = (items.take n).map g ↔ ∀ a ∈ items.take n, p a = true ∧ f a = g a := by
  induction items generalizing n with
  | nil => simp
  | cons a items ih =>
      cases n with
      | zero => simp
      | succ n =>
          rw [List.map_cons, List.nodup_cons] at hname
          have hrest := ih hname.2 (fun b hb c hc ↦ hshow b (.tail _ hb) c (.tail _ hc)) n
          rw [List.take_succ_cons, List.map_cons, List.forall_mem_cons]
          by_cases hp : p a = true
          · rw [List.filter_cons_of_pos hp, List.take_succ_cons, List.map_cons, List.cons.injEq, hrest]
            simp [hp]
          · rw [List.filter_cons_of_neg hp]
            refine iff_of_false ?_ fun h ↦ hp h.1.1
            intro heq
            cases hchosen : (items.filter p).take (n + 1) with
            | nil => simp [hchosen] at heq
            | cons b chosen =>
                rw [hchosen, List.map_cons, List.cons.injEq] at heq
                have hb : b ∈ items := by
                  have hmem : b ∈ (items.filter p).take (n + 1) := by simp [hchosen]
                  exact (List.mem_filter.mp (List.mem_of_mem_take hmem)).1
                have hsame := hshow b (.tail _ hb) a (.head _) heq.1
                exact hname.1 (hsame ▸ List.mem_map_of_mem hb)

end WorkStack.Effect.Ranking
