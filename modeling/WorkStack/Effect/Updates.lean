import Mathlib

/-!
# Sets of updates

A list of updates is made one after the other. What no update changes is what the list leaves alone.
-/

namespace WorkStack.Effect.Updates

variable {α ι : Type} {act : ι → α → α}

/-- The updates of a list, one after the other. -/
def applyAll (act : ι → α → α) (updates : List ι) (x : α) : α := updates.foldl (fun x update ↦ act update x) x

@[simp] theorem applyAll_nil (x : α) : applyAll act [] x = x := rfl

@[simp] theorem applyAll_cons (update : ι) (updates : List ι) (x : α) :
    applyAll act (update :: updates) x = applyAll act updates (act update x) := rfl

theorem applyAll_kept {β : Type} {part : α → β} (h : ∀ update x, part (act update x) = part x) (updates : List ι) (x : α) :
    part (applyAll act updates x) = part x := by
  induction updates generalizing x with
  | nil => rfl
  | cons update updates ih => rw [applyAll_cons, ih, h]

end WorkStack.Effect.Updates
