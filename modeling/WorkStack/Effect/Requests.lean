import Mathlib

/-!
# Runs of requests

A request is served in a state and either saves a new state or leaves the state alone, because it
was refused or had nothing to change. A run serves one request after the other. What one saving step
keeps, or decides, is kept or decided by every run.
-/

namespace WorkStack.Effect.Requests

variable {σ α : Type} (serve : σ → α → Option σ)

/-- The state after a run. -/
def after : σ → List α → σ
  | s, [] => s
  | s, request :: run => after ((serve s request).getD s) run

/-- The states a run saves, in their order. -/
def saved : σ → List α → List σ
  | _, [] => []
  | s, request :: run =>
      match serve s request with
      | some s' => s' :: saved s' run
      | none => saved s run

/-- The saving steps of a run: the states they started from and their requests. -/
def savingSteps : σ → List α → List (σ × α)
  | _, [] => []
  | s, request :: run =>
      match serve s request with
      | some s' => (s, request) :: savingSteps s' run
      | none => savingSteps s run

variable {serve} {s : σ} {run : List α}

/-- An invariant of every saving step is one of every run. -/
theorem invariant_after {P : σ → Prop} (hstart : P s)
    (hstep : ∀ s request s', P s → serve s request = some s' → P s') : P (after serve s run) := by
  induction run generalizing s with
  | nil => exact hstart
  | cons request run ih =>
      apply ih
      cases hserve : serve s request with
      | none => exact hstart
      | some s' => exact hstep s request s' hstart hserve

/-- An invariant of every saving step that meets a condition is one of every run whose saving steps
meet it. -/
theorem invariant_after_of_steps {P : σ → Prop} {Fair : σ → α → Prop} (hstart : P s)
    (hstep : ∀ s request s', P s → Fair s request → serve s request = some s' → P s')
    (hfair : ∀ step ∈ savingSteps serve s run, Fair step.1 step.2) : P (after serve s run) := by
  induction run generalizing s with
  | nil => exact hstart
  | cons request run ih =>
      unfold after
      unfold savingSteps at hfair
      cases hserve : serve s request with
      | none =>
          rw [hserve] at hfair
          exact ih hstart hfair
      | some s' =>
          rw [hserve] at hfair
          have hfirst := hfair (s, request) (List.mem_cons_self ..)
          apply ih (hstep s request s' hstart hfirst hserve)
          intro step hmem
          exact hfair step (List.mem_cons_of_mem _ hmem)

/-- An invariant of every saving step whose request meets a condition is one of every run of such requests. -/
theorem invariant_after_of_mem {P : σ → Prop} {Meets : α → Prop} (hstart : P s)
    (hstep : ∀ s request s', P s → Meets request → serve s request = some s' → P s')
    (hmeets : ∀ request ∈ run, Meets request) : P (after serve s run) := by
  induction run generalizing s with
  | nil => exact hstart
  | cons request run ih =>
      have hrest : ∀ request ∈ run, Meets request := fun other hother ↦ hmeets other (List.mem_cons_of_mem _ hother)
      unfold after
      cases hserve : serve s request with
      | none => exact ih hstart hrest
      | some s' => exact ih (hstep s request s' hstart (hmeets request (List.mem_cons_self ..)) hserve) hrest

/-- What every saving step leaves in relation is in relation after every run. -/
theorem relates_after {P : σ → Prop} {R : σ → σ → Prop} (hrefl : ∀ s, R s s)
    (htrans : ∀ a b c, R a b → R b c → R a c) (hstart : P s)
    (hstep : ∀ s request s', P s → serve s request = some s' → P s' ∧ R s s') : R s (after serve s run) := by
  induction run generalizing s with
  | nil => exact hrefl s
  | cons request run ih =>
      unfold after
      cases hserve : serve s request with
      | none => exact ih hstart
      | some s' =>
          obtain ⟨hnext, hrelates⟩ := hstep s request s' hstart hserve
          exact htrans s s' _ hrelates (ih hnext)

theorem after_append (first rest : List α) :
    after serve s (first ++ rest) = after serve (after serve s first) rest := by
  induction first generalizing s with
  | nil => rfl
  | cons request first ih => exact ih

/-- Where every saving step decides for itself, whether it saves a good state, a run saves good
states exactly when all its saving steps decide so. -/
theorem forall_saved_iff {Good : σ → Prop} {Fair : σ → α → Prop}
    (hstep : ∀ s request s', serve s request = some s' → (Good s' ↔ Fair s request)) :
    (∀ s' ∈ saved serve s run, Good s') ↔ ∀ step ∈ savingSteps serve s run, Fair step.1 step.2 := by
  induction run generalizing s with
  | nil => simp [saved, savingSteps]
  | cons request run ih =>
      cases hserve : serve s request with
      | none => simpa [saved, savingSteps, hserve] using ih
      | some s' => simp [saved, savingSteps, hserve, hstep s request s' hserve, ih]

/-- The same where a step that starts in a good state decides for itself. -/
theorem forall_saved_iff_of_good {Good : σ → Prop} {Fair : σ → α → Prop} (hstart : Good s)
    (hstep : ∀ s request s', Good s → serve s request = some s' → (Good s' ↔ Fair s request)) :
    (∀ s' ∈ saved serve s run, Good s') ↔ ∀ step ∈ savingSteps serve s run, Fair step.1 step.2 := by
  induction run generalizing s with
  | nil => simp [saved, savingSteps]
  | cons request run ih =>
      cases hserve : serve s request with
      | none => simpa [saved, savingSteps, hserve] using ih hstart
      | some s' =>
          have hfirst := hstep s request s' hstart hserve
          by_cases hfair : Fair s request
          · simp [saved, savingSteps, hserve, hfirst, hfair, ih (hfirst.mpr hfair)]
          · simp [saved, savingSteps, hserve, hfirst, hfair]

end WorkStack.Effect.Requests
