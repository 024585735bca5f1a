import WorkStack.Effect.Refusing

/-!
# Computations that take one step at a time

A computation over a state that outlives it: it reads, it takes steps that each change the state at once,
and it may refuse. What it passed through is remembered, since a process can end, or a step fail, behind
any of its steps.
-/

namespace WorkStack.Effect

variable {σ ε α β : Type}

/-- What a computation did: the state after each of its steps, the state it ends in, and its result. -/
structure Ran (σ ε α : Type) where
  steps : List σ
  state : σ
  result : Except ε α

def Stepwise (σ ε α : Type) := σ → Ran σ ε α

namespace Stepwise

def bind (m : Stepwise σ ε α) (f : α → Stepwise σ ε β) : Stepwise σ ε β := fun s ↦
  match (m s).result with
  | .ok a => ⟨(m s).steps ++ (f a (m s).state).steps, (f a (m s).state).state, (f a (m s).state).result⟩
  | .error e => ⟨(m s).steps, (m s).state, .error e⟩

instance : Monad (Stepwise σ ε) where
  pure a := fun s ↦ ⟨[], s, .ok a⟩
  bind := bind

/-- A look at the state, which may refuse. -/
def read (f : σ → Except ε α) : Stepwise σ ε α := fun s ↦ ⟨[], s, f s⟩

def refuse (e : ε) : Stepwise σ ε α := read fun _ ↦ .error e

/-- One step. -/
def step (f : σ → σ) : Stepwise σ ε Unit := fun s ↦ ⟨[f s], f s, .ok ()⟩

/-- A change of what the process remembers for itself, which is no step. -/
def remember (f : σ → σ) : Stepwise σ ε Unit := fun s ↦ ⟨[], f s, .ok ()⟩

/-- Go on where a computation refuses. -/
def attempt (m : Stepwise σ ε α) : Stepwise σ ε (Option α) := fun s ↦
  ⟨(m s).steps, (m s).state, .ok (m s).result.toOption⟩

/-- The same computation, with its result seen through a function. -/
def mapped (f : α → β) (m : Stepwise σ ε α) : Stepwise σ ε β := fun s ↦ ⟨(m s).steps, (m s).state, (m s).result.map f⟩

/-- The state behind the first `k` steps; behind all of them it is the one the computation ends in. -/
def stopped (m : Stepwise σ ε α) (s : σ) (k : ℕ) : σ :=
  if k ≤ (m s).steps.length then ((s :: (m s).steps)[k]?).getD s else (m s).state

theorem stopped_mem (m : Stepwise σ ε α) (s : σ) (k : ℕ) :
    m.stopped s k = s ∨ m.stopped s k ∈ (m s).steps ∨ m.stopped s k = (m s).state := by
  unfold stopped
  by_cases hk : k ≤ (m s).steps.length
  · rw [if_pos hk]
    cases k with
    | zero => exact .inl rfl
    | succ k =>
        right
        left
        have hget : (s :: (m s).steps)[k + 1]? = some (m s).steps[k] := by
          rw [List.getElem?_cons_succ, List.getElem?_eq_getElem]
        rw [hget, Option.getD_some]
        exact List.getElem_mem _
  · rw [if_neg hk]
    exact .inr (.inr rfl)

@[simp] theorem pure_apply (a : α) (s : σ) : (pure a : Stepwise σ ε α) s = ⟨[], s, .ok a⟩ := rfl

@[simp] theorem refuse_apply (e : ε) (s : σ) : (refuse e : Stepwise σ ε α) s = ⟨[], s, .error e⟩ := rfl

@[simp] theorem read_apply (f : σ → Except ε α) (s : σ) : read f s = ⟨[], s, f s⟩ := rfl

@[simp] theorem step_apply (f : σ → σ) (s : σ) : (step f : Stepwise σ ε Unit) s = ⟨[f s], f s, .ok ()⟩ := rfl

@[simp] theorem remember_apply (f : σ → σ) (s : σ) : (remember f : Stepwise σ ε Unit) s = ⟨[], f s, .ok ()⟩ := rfl

variable {f : α → Stepwise σ ε β} {m : Stepwise σ ε α}

theorem bind_of_ok {s : σ} {a : α} (h : (m s).result = .ok a) :
    (m >>= f) s = ⟨(m s).steps ++ (f a (m s).state).steps, (f a (m s).state).state, (f a (m s).state).result⟩ := by
  change bind m f s = _
  rw [bind, h]

theorem bind_of_error {s : σ} {e : ε} (h : (m s).result = .error e) :
    (m >>= f) s = ⟨(m s).steps, (m s).state, .error e⟩ := by
  change bind m f s = _
  rw [bind, h]

/-- A computation of one step, and what comes after it. -/
theorem bind_of_step {s t : σ} {a : α} (h : m s = ⟨[t], t, .ok a⟩) :
    (m >>= f) s = ⟨t :: (f a t).steps, (f a t).state, (f a t).result⟩ := by
  rw [bind_of_ok (a := a) (by rw [h]), h]
  rfl

theorem bind_of_refused {s : σ} {e : ε} (h : m s = ⟨[], s, .error e⟩) :
    (m >>= f) s = ⟨[], s, .error e⟩ := by
  rw [bind_of_error (e := e) (by rw [h]), h]

theorem read_bind_ok {f : σ → Except ε α} {g : α → Stepwise σ ε β} {s : σ} {a : α} (h : f s = .ok a) :
    (read f >>= g) s = g a s := by
  rw [bind_of_ok (a := a) h]
  rfl

theorem read_bind_error {f : σ → Except ε α} {g : α → Stepwise σ ε β} {s : σ} {e : ε} (h : f s = .error e) :
    (read f >>= g) s = ⟨[], s, .error e⟩ := by
  rw [bind_of_error (e := e) h]
  rfl

theorem remember_bind (f : σ → σ) (g : Unit → Stepwise σ ε β) (s : σ) : (remember f >>= g) s = g () (f s) := rfl

end Stepwise

end WorkStack.Effect
