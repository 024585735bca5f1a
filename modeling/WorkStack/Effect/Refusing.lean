import Mathlib

/-!
# Computations that may refuse

A computation that may refuse succeeds when every part of it does, and then its parts can be taken
apart again.
-/

namespace WorkStack.Effect.Refusing

variable {ε α β : Type}

theorem bind_eq_ok {x : Except ε α} {f : α → Except ε β} {b : β} :
    x >>= f = .ok b ↔ ∃ a, x = .ok a ∧ f a = .ok b := by
  cases x with
  | error e =>
      constructor
      · intro h
        cases h
      · rintro ⟨a, ha, -⟩
        cases ha
  | ok a =>
      constructor
      · exact fun h ↦ ⟨a, rfl, h⟩
      · rintro ⟨a', ha, hb⟩
        cases ha
        exact hb

/-- Two computations that begin alike have the same first result. -/
theorem bind_both_eq_ok {γ : Type} {x : Except ε α} {f : α → Except ε β} {g : α → Except ε γ} {b : β} {c : γ}
    (hf : x >>= f = .ok b) (hg : x >>= g = .ok c) : ∃ a, x = .ok a ∧ f a = .ok b ∧ g a = .ok c := by
  obtain ⟨a, ha, hb⟩ := bind_eq_ok.mp hf
  obtain ⟨a', ha', hc⟩ := bind_eq_ok.mp hg
  rw [ha] at ha'
  cases ha'
  exact ⟨a, ha, hb, hc⟩

theorem pure_eq_ok {a b : α} : (pure a : Except ε α) = .ok b ↔ a = b := by
  constructor
  · intro h
    cases h
    rfl
  · rintro rfl
    rfl

theorem toOption_eq_some {x : Except ε α} {a : α} : x.toOption = some a ↔ x = .ok a := by
  cases x with
  | error e => simp [Except.toOption]
  | ok b => simp [Except.toOption]

/-- A check that refuses where its condition fails. -/
theorem ite_eq_ok {c : Prop} [Decidable c] {x : Except ε α} {e : ε} {b : α} :
    (if c then .error e else x) = .ok b ↔ ¬c ∧ x = .ok b := by
  by_cases hc : c
  · simp [hc]
  · simp [hc]

/-- A check that goes on where its condition holds. -/
theorem ite_ok_eq_ok {c : Prop} [Decidable c] {x : Except ε α} {e : ε} {b : α} :
    (if c then x else .error e) = .ok b ↔ c ∧ x = .ok b := by
  by_cases hc : c
  · simp [hc]
  · simp [hc]

/-- Every item is computed, one after the other. -/
theorem mapM_eq_ok {f : α → Except ε β} {items : List α} {results : List β} :
    items.mapM f = .ok results ↔ List.Forall₂ (fun item result ↦ f item = .ok result) items results := by
  induction items generalizing results with
  | nil =>
      rw [List.mapM_nil, pure_eq_ok, List.forall₂_nil_left_iff, eq_comm]
  | cons item items ih =>
      rw [List.mapM_cons, bind_eq_ok, List.forall₂_cons_left_iff]
      constructor
      · rintro ⟨result, hresult, hrest⟩
        obtain ⟨rest, hmap, hpure⟩ := bind_eq_ok.mp hrest
        exact ⟨result, rest, hresult, ih.mp hmap, (pure_eq_ok.mp hpure).symm⟩
      · rintro ⟨result, rest, hresult, hmap, rfl⟩
        exact ⟨result, hresult, bind_eq_ok.mpr ⟨rest, ih.mpr hmap, rfl⟩⟩

end WorkStack.Effect.Refusing
