import Mathlib

/-!
# Computations that may refuse

A validation either returns a value or refuses with an error. Its steps are peeled apart by the
rules below, so a proof never unfolds the plumbing between them.
-/

namespace WorkStack.Effect.Outcome

variable {ε α β : Type}

theorem bind_eq_ok {x : Except ε α} {f : α → Except ε β} {b : β} :
    (x >>= f) = .ok b ↔ ∃ a, x = .ok a ∧ f a = .ok b := by
  cases x with
  | error e => simp [bind, Except.bind]
  | ok a => simp [bind, Except.bind]

theorem bind_eq_error {x : Except ε α} {f : α → Except ε β} {e : ε} :
    (x >>= f) = .error e ↔ x = .error e ∨ ∃ a, x = .ok a ∧ f a = .error e := by
  cases x with
  | error e => simp [bind, Except.bind]
  | ok a => simp [bind, Except.bind]

@[simp] theorem ok_bind (a : α) (f : α → Except ε β) : (Except.ok a >>= f) = f a := rfl

@[simp] theorem error_bind (e : ε) (f : α → Except ε β) :
    ((Except.error e : Except ε α) >>= f) = .error e := rfl

theorem guard_eq_ok {p : Prop} [Decidable p] {e : ε} :
    (if p then Except.ok () else .error e : Except ε Unit) = .ok () ↔ p := by
  by_cases hp : p <;> simp [hp]

/-- A check of every item passes exactly when each item passes. -/
theorem forM_eq_ok {items : List α} {check : α → Except ε Unit} :
    items.forM check = .ok () ↔ ∀ item ∈ items, check item = .ok () := by
  induction items with
  | nil => simp [List.forM, pure, Except.pure]
  | cons item items ih =>
      change (check item >>= fun _ ↦ items.forM check) = _ ↔ _
      rw [bind_eq_ok]
      constructor
      · rintro ⟨⟨⟩, hitem, hitems⟩ other hother
        rcases List.mem_cons.mp hother with rfl | hother
        · exact hitem
        · exact ih.mp hitems other hother
      · intro h
        exact ⟨(), h item (List.mem_cons_self ..), ih.mpr fun other hother ↦
          h other (List.mem_cons_of_mem _ hother)⟩

end WorkStack.Effect.Outcome
