import Mathlib
import WorkStack.Json

/-!
# Truth values and sorted sets

The idioms `value or default` and `sorted(set(...))` of the interpreter.
-/

namespace WorkStack.Python

/-- `bool(value)`. A number is false where its text has no digit but zeros before the exponent. -/
def truthy : Json → Bool
  | .null => false
  | .bool value => value
  | .int value => value ≠ 0
  | .float lexeme => (lexeme.toList.takeWhile fun c ↦ c ≠ 'e').any fun c ↦ c ∉ ['0', '.', '-']
  | .str text => text ≠ ""
  | .arr items => !items.isEmpty
  | .obj fields => !fields.isEmpty

/-- Whether a value can be a key or a member of a set. -/
def hashable : Json → Bool
  | .arr _ => false
  | .obj _ => false
  | _ => true

/-- `sorted(set(texts))` -/
def sortedSet (texts : List String) : List String := texts.dedup.insertionSort (· ≤ ·)

@[simp] theorem mem_sortedSet {texts : List String} {text : String} : text ∈ sortedSet texts ↔ text ∈ texts := by
  unfold sortedSet
  rw [List.mem_insertionSort, List.mem_dedup]

theorem nodup_sortedSet (texts : List String) : (sortedSet texts).Nodup := by
  have hperm : (sortedSet texts).Perm texts.dedup := List.perm_insertionSort _ _
  exact hperm.nodup_iff.mpr (List.nodup_dedup _)

/-- Items with increasing keys are what sorting by the key makes of them in any order. -/
theorem insertionSort_eq_of_perm {α κ : Type} [LinearOrder κ] (key : α → κ) {items sorted : List α}
    (hperm : items.Perm sorted) (hsorted : sorted.Pairwise fun a b ↦ key a < key b) :
    items.insertionSort (fun a b ↦ key a ≤ key b) = sorted := by
  have hsort : (items.insertionSort fun a b ↦ key a ≤ key b).Pairwise fun a b ↦ key a ≤ key b :=
    List.pairwise_insertionSort (fun a b ↦ key a ≤ key b) items
  have hall : (items.insertionSort fun a b ↦ key a ≤ key b).Perm sorted :=
    (List.perm_insertionSort _ items).trans hperm
  refine hall.eq_of_pairwise ?_ hsort (hsorted.imp le_of_lt)
  intro a b ha hb hab hba
  have ha' : a ∈ sorted := hall.mem_iff.mp ha
  have hnodup : (sorted.map key).Nodup := List.pairwise_map.mpr (hsorted.imp LT.lt.ne)
  exact List.inj_on_of_nodup_map hnodup ha' hb (le_antisymm hab hba)

section Stable

variable {α : Type} {r s : α → α → Prop} [DecidableRel s] (htotal : ∀ a b, s a b ∨ s b a)
  (htrans : ∀ a b c, s a b → s b c → s a c)
include htotal htrans

theorem pairwise_orderedInsert_stable {a : α} {items : List α} (hitems : items.Pairwise fun a b ↦ s a b ∧ (s b a → r a b))
    (hfirst : ∀ b ∈ items, r a b) : (items.orderedInsert s a).Pairwise fun a b ↦ s a b ∧ (s b a → r a b) := by
  induction items with
  | nil => exact List.pairwise_singleton _ _
  | cons b items ih =>
      obtain ⟨hb, hrest⟩ := List.pairwise_cons.mp hitems
      obtain ⟨hab, hfirst⟩ := List.forall_mem_cons.mp hfirst
      by_cases h : s a b
      · rw [List.orderedInsert_cons_of_le s items h, List.pairwise_cons]
        refine ⟨?_, hitems⟩
        intro c hc
        rcases List.mem_cons.mp hc with rfl | hc
        · exact ⟨h, fun _ ↦ hab⟩
        · exact ⟨htrans a b c h (hb c hc).1, fun _ ↦ hfirst c hc⟩
      · rw [List.orderedInsert_of_not_le s items h, List.pairwise_cons]
        refine ⟨?_, ih hrest hfirst⟩
        intro c hc
        rcases List.mem_orderedInsert s |>.mp hc with rfl | hc
        · exact ⟨(htotal c b).resolve_left h, fun hcb ↦ absurd hcb h⟩
        · exact hb c hc

/-- Sorting is stable: items that the new order does not tell apart keep the order they had. -/
theorem pairwise_insertionSort_stable {items : List α} (h : items.Pairwise r) :
    (items.insertionSort s).Pairwise fun a b ↦ s a b ∧ (s b a → r a b) := by
  induction items with
  | nil => exact List.Pairwise.nil
  | cons a items ih =>
      obtain ⟨ha, hrest⟩ := List.pairwise_cons.mp h
      rw [List.insertionSort_cons]
      exact pairwise_orderedInsert_stable htotal htrans (ih hrest) fun b hb ↦ ha b ((List.mem_insertionSort s).mp hb)

end Stable

example : sortedSet ["b", "a", "b"] = ["a", "b"] := by decide

end WorkStack.Python
