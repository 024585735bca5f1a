import Mathlib

/-!
# Relations without cycles

A relation is acyclic when no path comes back to its start. Where only the arrows that leave one point are
replaced, no cycle appears as long as no new arrow leads to a point from which the old arrows come back.
-/

namespace WorkStack.Effect

open Relation

variable {α : Type*} {r r' : α → α → Prop} {a b x : α}

/-- No path comes back to its start. -/
def Acyclic (r : α → α → Prop) : Prop := ∀ a, ¬TransGen r a a

/-- A set that no arrow leaves shows what cannot be reached from it. -/
theorem not_reaches_of_closed {S : α → Prop} (hclosed : ∀ a b, S a → r a b → S b) (ha : S a) (hb : ¬S b) :
    ¬ReflTransGen r a b := by
  intro hpath
  apply hb
  clear hb
  induction hpath with
  | refl => exact ha
  | tail _ hstep ih => exact hclosed _ _ ih hstep

/-- A path of the changed relation is an old path, or an old path leads to the point of the change. -/
theorem path_of_redirected (hother : ∀ a b, a ≠ x → r' a b → r a b) (h : ReflTransGen r' a b) :
    ReflTransGen r a b ∨ ReflTransGen r a x := by
  induction h using ReflTransGen.head_induction_on with
  | refl => exact Or.inl .refl
  | @head a c hstep _ ih =>
      by_cases ha : a = x
      · exact Or.inr (ha ▸ .refl)
      · exact ih.imp (.head (hother a c ha hstep)) (.head (hother a c ha hstep))

/-- So is a path that is not empty, or it goes through the point of the change. -/
theorem path_through_redirected (hother : ∀ a b, a ≠ x → r' a b → r a b) (h : TransGen r' a b) :
    TransGen r a b ∨ ReflTransGen r' a x ∧ TransGen r' x b := by
  induction h using TransGen.head_induction_on with
  | @single a hstep =>
      by_cases ha : a = x
      · exact Or.inr ⟨ha ▸ .refl, ha ▸ .single hstep⟩
      · exact Or.inl (.single (hother a b ha hstep))
  | @head a c hstep hrest ih =>
      by_cases ha : a = x
      · exact Or.inr ⟨ha ▸ .refl, ha ▸ .head hstep hrest⟩
      · exact ih.imp (.head (hother a c ha hstep)) (And.imp_left (.head hstep))

/-- Redirecting the arrows that leave a point closes no cycle, unless the old arrows lead back from a new goal. -/
theorem Acyclic.redirected (h : Acyclic r) (hother : ∀ a b, a ≠ x → r' a b → r a b)
    (hnew : ∀ b, r' x b → ¬ReflTransGen r b x) : Acyclic r' := by
  have hpoint : ¬TransGen r' x x := by
    intro hcycle
    obtain ⟨b, hstep, hback⟩ := TransGen.head'_iff.mp hcycle
    exact hnew b hstep ((path_of_redirected hother hback).elim id id)
  intro a hcycle
  rcases path_through_redirected hother hcycle with hold | ⟨hto, hfrom⟩
  · exact h a hold
  · exact hpoint (hfrom.trans_left hto)

end WorkStack.Effect
