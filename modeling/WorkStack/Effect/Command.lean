import WorkStack.Effect.Program

/-!
# Commands with process memory and exceptions

A command is a program that also reads and writes the memory of the process running it, and that
may end in an exception. What was written to memory before an exception stays written.

Every command keeps the rules of programs: the rules below only sort the outcomes into the two ways
a command can end.
-/

namespace WorkStack.Effect

variable {S : Signature} {σ ε α β : Type}

def Command (S : Signature) (σ ε α : Type) := σ → Prog S (Except ε α × σ)

/-- The operations a command may perform, and how it may change the memory. -/
structure Footprint (S : Signature) (σ : Type) where
  op : S.Op → Prop
  memory : σ → σ → Prop
  refl : ∀ m, memory m m
  trans : ∀ m m' m'', memory m m' → memory m' m'' → memory m m''

/-- These operations, with the memory left as it is. -/
def Footprint.same (P : S.Op → Prop) : Footprint S σ := ⟨P, Eq, fun _ ↦ rfl, fun _ _ _ ↦ Eq.trans⟩

/-- These operations, with anything done to the memory. -/
def Footprint.any (P : S.Op → Prop) : Footprint S σ :=
  ⟨P, fun _ _ ↦ True, fun _ ↦ trivial, fun _ _ _ _ _ ↦ trivial⟩

namespace Command

instance : Monad (Command S σ ε) where
  pure value := fun memory ↦ .pure (.ok value, memory)
  bind c f := fun memory ↦ (c memory).bind fun
    | (.ok value, memory') => f value memory'
    | (.error error, memory') => .pure (.error error, memory')

def throw (error : ε) : Command S σ ε α := fun memory ↦ .pure (.error error, memory)

def catching (c : Command S σ ε α) (handler : ε → Command S σ ε α) : Command S σ ε α :=
  fun memory ↦ (c memory).bind fun
    | (.ok value, memory') => .pure (.ok value, memory')
    | (.error error, memory') => handler error memory'

def ofExcept : Except ε α → Command S σ ε α
  | .ok value => pure value
  | .error error => throw error

def memory : Command S σ ε σ := fun memory ↦ .pure (.ok memory, memory)

def remember (f : σ → σ) : Command S σ ε Unit := fun memory ↦ .pure (.ok (), f memory)

def perform (o : S.Op) : Command S σ ε (S.Answer o) :=
  fun memory ↦ .op o fun answer ↦ .pure (.ok answer, memory)

/-- Run the body once for every item, from left to right. -/
def fold {ι : Type} (body : β → ι → Command S σ ε β) : List ι → β → Command S σ ε β
  | [], acc => pure acc
  | item :: items, acc => do
      let acc ← body acc item
      fold body items acc

/-! ## Rules -/

variable {M : Machine S}

/-- `Q` holds where the command returns and `R` where it raises. -/
def wp (C : Contract M) (c : Command S σ ε α) (Q : α → σ → M.World → Prop)
    (R : ε → σ → M.World → Prop) (memory : σ) (w : M.World) : Prop :=
  Effect.wp C (c memory) (fun outcome u ↦ match outcome with
    | (.ok value, memory') => Q value memory' u
    | (.error error, memory') => R error memory' u) w

variable {c : Command S σ ε α} {I : M.World → Prop}

section Rules

variable {C : Contract M} {Q Q' : α → σ → M.World → Prop} {R R' : ε → σ → M.World → Prop}
variable {m : σ} {w : M.World}

@[simp] theorem wp_pure (value : α) :
    wp C (pure value : Command S σ ε α) Q R m w ↔ Q value m w := Iff.rfl

@[simp] theorem wp_throw (error : ε) :
    wp C (throw error : Command S σ ε α) Q R m w ↔ R error m w := Iff.rfl

@[simp] theorem wp_memory {Q : σ → σ → M.World → Prop} :
    wp C (memory : Command S σ ε σ) Q R m w ↔ Q m m w := Iff.rfl

@[simp] theorem wp_remember (f : σ → σ) {Q : Unit → σ → M.World → Prop} :
    wp C (remember f : Command S σ ε Unit) Q R m w ↔ Q () (f m) w := Iff.rfl

@[simp] theorem wp_ofExcept_ok (value : α) :
    wp C (ofExcept (.ok value) : Command S σ ε α) Q R m w ↔ Q value m w := Iff.rfl

@[simp] theorem wp_ofExcept_error (error : ε) :
    wp C (ofExcept (.error error) : Command S σ ε α) Q R m w ↔ R error m w := Iff.rfl

theorem wp_ofExcept (result : Except ε α) (hok : ∀ value, result = .ok value → Q value m w)
    (herror : ∀ error, result = .error error → R error m w) :
    wp C (ofExcept result : Command S σ ε α) Q R m w := by
  cases result with
  | ok value => exact hok value rfl
  | error error => exact herror error rfl

@[simp] theorem wp_crash_perform (o : S.Op) {Q : S.Answer o → σ → M.World → Prop} :
    wp (crashContract M I) (perform o : Command S σ ε (S.Answer o)) Q R m w ↔
      I w ∧ Q (M.perform o w).1 m (M.perform o w).2 :=
  wp_crash_op o _

theorem wp_mono (h : wp C c Q R m w) (hQ : ∀ a m u, Q a m u → Q' a m u) (hR : ∀ e m u, R e m u → R' e m u) :
    wp C c Q' R' m w := by
  refine Effect.wp_mono h ?_
  rintro ⟨a | e, m'⟩ u
  · exact hR a m' u
  · exact hQ e m' u

theorem wp_and (h : wp C c Q R m w) (h' : wp C c Q' R' m w) :
    wp C c (fun a m u ↦ Q a m u ∧ Q' a m u) (fun e m u ↦ R e m u ∧ R' e m u) m w := by
  apply Effect.wp_mono (Effect.wp_and h h')
  rintro ⟨a | e, m'⟩ u hu
  · exact hu
  · exact hu

theorem wp_bind (c : Command S σ ε β) (f : β → Command S σ ε α) :
    wp C (c >>= f) Q R m w ↔ wp C c (fun b ↦ wp C (f b) Q R) R m w := by
  refine (Effect.wp_bind (c m) _).trans ⟨fun h ↦ Effect.wp_mono h ?_, fun h ↦ Effect.wp_mono h ?_⟩
  all_goals
    rintro ⟨e | b, m'⟩ u hb
    · exact hb
    · exact hb

theorem wp_catching (c : Command S σ ε α) (handler : ε → Command S σ ε α) :
    wp C (c.catching handler) Q R m w ↔ wp C c Q (fun e ↦ wp C (handler e) Q R) m w := by
  refine (Effect.wp_bind (c m) _).trans ⟨fun h ↦ Effect.wp_mono h ?_, fun h ↦ Effect.wp_mono h ?_⟩
  all_goals
    rintro ⟨e | b, m'⟩ u hb
    · exact hb
    · exact hb

theorem wp_ite {p : Prop} [Decidable p] {c d : Command S σ ε α} (hc : p → wp C c Q R m w)
    (hd : ¬p → wp C d Q R m w) : wp C (if p then c else d) Q R m w := by
  by_cases hp : p
  · rw [if_pos hp]
    exact hc hp
  · rw [if_neg hp]
    exact hd hp

/-- A step of a longer command, with what it establishes named. -/
theorem wp_seq {c : Command S σ ε β} {f : β → Command S σ ε α} {P : β → σ → M.World → Prop}
    {R' : ε → σ → M.World → Prop} (hc : wp C c P R' m w) (hf : ∀ b m u, P b m u → wp C (f b) Q R m u)
    (hR : ∀ e m u, R' e m u → R e m u) : wp C (c >>= f) Q R m w :=
  (wp_bind c f).mpr (wp_mono hc hf hR)

/-- The loop rule: the invariant names the items that are still to come. -/
theorem wp_fold {ι : Type} (body : β → ι → Command S σ ε β)
    {I : List ι → β → σ → M.World → Prop}
    (hbody : ∀ acc item items m u, I (item :: items) acc m u →
      wp C (body acc item) (fun acc' ↦ I items acc') R m u)
    (items : List ι) (acc : β) (h : I items acc m w) :
    wp C (fold body items acc) (I []) R m w := by
  induction items generalizing acc m w with
  | nil => exact h
  | cons item items ih =>
      rw [fold, wp_bind]
      exact wp_mono (hbody acc item items m w h) (fun acc' m' u h' ↦ ih acc' h') fun _ _ _ ↦ id

end Rules

/-! ## Footprints -/

def Within (F : Footprint S σ) (c : Command S σ ε α) : Prop :=
  ∀ m, (c m).Within F.op fun outcome ↦ F.memory m outcome.2

variable {ι : Type} {f : α → Command S σ ε β} {body : β → ι → Command S σ ε β} {handler : ε → Command S σ ε α}

namespace Within

variable {F : Footprint S σ}

theorem pure (value : α) : (Pure.pure value : Command S σ ε α).Within F := fun m ↦ F.refl m

theorem throw (error : ε) : (Command.throw error : Command S σ ε α).Within F := fun m ↦ F.refl m

theorem memory : (Command.memory : Command S σ ε σ).Within F := fun m ↦ F.refl m

theorem remember {f : σ → σ} (hf : ∀ m, F.memory m (f m)) :
    (Command.remember f : Command S σ ε Unit).Within F := hf

theorem ofExcept (result : Except ε α) : (Command.ofExcept result : Command S σ ε α).Within F := by
  cases result with
  | ok value => exact pure value
  | error error => exact throw error

theorem perform {o : S.Op} (ho : F.op o) :
    (Command.perform o : Command S σ ε (S.Answer o)).Within F :=
  fun m ↦ ⟨ho, fun _ ↦ F.refl m⟩

theorem bind (hc : c.Within F) (hf : ∀ a, (f a).Within F) : (c >>= f).Within F := by
  intro m
  apply (hc m).bind
  rintro ⟨e | a, m'⟩ hm
  · exact hm
  · exact (hf a m').mono (fun _ h ↦ h) fun _ h ↦ F.trans _ _ _ hm h

theorem catching (hc : c.Within F) (hh : ∀ e, (handler e).Within F) : (c.catching handler).Within F := by
  intro m
  apply (hc m).bind
  rintro ⟨e | a, m'⟩ hm
  · exact (hh e m').mono (fun _ h ↦ h) fun _ h ↦ F.trans _ _ _ hm h
  · exact hm

theorem fold (hbody : ∀ acc item, (body acc item).Within F) (items : List ι) (acc : β) :
    (Command.fold body items acc).Within F := by
  induction items generalizing acc with
  | nil => exact pure acc
  | cons item items ih => exact bind (hbody acc item) ih

theorem ite {p : Prop} [Decidable p] {c d : Command S σ ε α} (hc : c.Within F) (hd : d.Within F) :
    (if p then c else d).Within F := by
  by_cases hp : p
  · rwa [if_pos hp]
  · rwa [if_neg hp]

theorem mono {G : Footprint S σ} (hc : c.Within F) (hop : ∀ o, F.op o → G.op o)
    (hmemory : ∀ m m', F.memory m m' → G.memory m m') :
    c.Within G :=
  fun m ↦ (hc m).mono hop fun outcome ↦ hmemory m outcome.2

theorem any {P : S.Op → Prop} (hc : c.Within F) (hop : ∀ o, F.op o → P o) :
    c.Within (.any P) :=
  hc.mono hop fun _ _ _ ↦ trivial

/-- An invariant of certain operations is kept by every command made of them. -/
theorem wp {C : Contract M} {m : σ} {w : M.World} (hc : c.Within F) (hrely : ∀ u v, I u → C.rely u v → I v)
    (hstep : ∀ o u, F.op o → I u → C.assume o u → C.ensure o u ∧ I (M.perform o u).2) (hw : I w) :
    Command.wp C c (fun _ m' u ↦ I u ∧ F.memory m m')
      (fun _ m' u ↦ I u ∧ F.memory m m') m w := by
  apply Effect.wp_mono (Prog.Within.wp (hc m) hrely hstep hw)
  rintro ⟨e | a, m'⟩ u hu
  · exact hu
  · exact hu

end Within

/-! ## Uninterrupted execution -/

def run (M : Machine S) (c : Command S σ ε α) (m : σ) (w : M.World) :
    (Except ε α × σ) × M.World := (c m).run M w

section Run

variable (m : σ) (w : M.World)

@[simp] theorem run_pure (value : α) :
    (pure value : Command S σ ε α).run M m w = ((.ok value, m), w) := rfl

@[simp] theorem run_throw (error : ε) :
    (throw error : Command S σ ε α).run M m w = ((.error error, m), w) := rfl

@[simp] theorem run_memory : (memory : Command S σ ε σ).run M m w = ((.ok m, m), w) := rfl

@[simp] theorem run_remember (f : σ → σ) :
    (remember f : Command S σ ε Unit).run M m w = ((.ok (), f m), w) := rfl

@[simp] theorem run_perform (o : S.Op) :
    (perform o : Command S σ ε (S.Answer o)).run M m w =
      ((.ok (M.perform o w).1, m), (M.perform o w).2) := rfl

@[simp] theorem run_ofExcept (result : Except ε α) :
    (ofExcept result : Command S σ ε α).run M m w = ((result, m), w) := by
  cases result <;> rfl

end Run

/-- The contract of a command that nobody disturbs and that may crash anywhere. -/
abbrev undisturbed (M : Machine S) : Contract M := crashContract M fun _ ↦ True

/-- What is shown of an undisturbed command holds where its execution ends. -/
theorem run_cases {Q : α → σ → M.World → Prop} {R : ε → σ → M.World → Prop} {m : σ} {w : M.World}
    (h : wp (undisturbed M) c Q R m w) :
    (∃ a m' w', c.run M m w = ((.ok a, m'), w') ∧ Q a m' w') ∨
      ∃ e m' w', c.run M m w = ((.error e, m'), w') ∧ R e m' w' := by
  have hrun := wp_crash_run h
  rcases hresult : (c m).run M w with ⟨⟨e | a, m'⟩, w'⟩
  · rw [hresult] at hrun
    exact .inr ⟨e, m', w', hresult, hrun⟩
  · rw [hresult] at hrun
    exact .inl ⟨a, m', w', hresult, hrun⟩

/-- A command that nobody disturbs ends. -/
theorem exists_run (M : Machine S) (c : Command S σ ε α) (m : σ) (w : M.World) :
    ∃ outcome n w' events, Run M (alone M) (c m) w events (.pure (outcome, n)) w' := by
  obtain ⟨events, hrun⟩ := Run.of_run (c m) w
  exact ⟨_, _, _, events, hrun⟩

/-! ## Observations -/

/-- Run alone from `m` and `w`, the command leaves the world as it is at every step and ends with
this outcome and memory. -/
def Observes (M : Machine S) (w : M.World) (c : Command S σ ε α) (m : σ) (outcome : Except ε α)
    (m' : σ) : Prop :=
  (c m).Observes M w (outcome, m')

namespace Observes

variable {w : M.World} {m n k : σ}

theorem pure (value : α) : Observes M w (Pure.pure value : Command S σ ε α) m (.ok value) m := rfl

theorem throw (error : ε) : Observes M w (Command.throw error : Command S σ ε α) m (.error error) m :=
  rfl

theorem memory : Observes M w (Command.memory : Command S σ ε σ) m (.ok m) m := rfl

theorem remember (f : σ → σ) :
    Observes M w (Command.remember f : Command S σ ε Unit) m (.ok ()) (f m) := rfl

theorem ofExcept (result : Except ε α) :
    Observes M w (Command.ofExcept result : Command S σ ε α) m result m := by
  cases result <;> rfl

theorem bind {a : α} {outcome : Except ε β} (hc : Observes M w c m (.ok a) n) (hf : Observes M w (f a) n outcome k) :
    Observes M w (c >>= f) m outcome k :=
  Prog.Observes.bind hc hf

theorem bind_error {error : ε} (hc : Observes M w c m (.error error) n) : Observes M w (c >>= f) m (.error error) n :=
  Prog.Observes.bind hc (show Prog.Observes M w (.pure _) _ from rfl)

theorem catching_ok {a : α} (hc : Observes M w c m (.ok a) n) : Observes M w (c.catching handler) m (.ok a) n :=
  Prog.Observes.bind hc (show Prog.Observes M w (.pure _) _ from rfl)

variable {outcome : Except ε α}

theorem catching_error {error : ε} (hc : Observes M w c m (.error error) n)
    (hh : Observes M w (handler error) n outcome k) :
    Observes M w (c.catching handler) m outcome k :=
  Prog.Observes.bind hc hh

/-- An outcome computed step by step from what the steps return. -/
theorem bind_except {x : Except ε α} {g : α → Except ε β} (hc : Observes M w c m x m)
    (hf : ∀ a, Observes M w (f a) m (g a) m) :
    Observes M w (c >>= f) m (x >>= g) m := by
  cases x with
  | error error => exact bind_error hc
  | ok a => exact bind hc (hf a)

theorem fold {g : β → ι → Except ε β} {items : List ι}
    (hbody : ∀ acc, ∀ item ∈ items, Observes M w (body acc item) m (g acc item) m) (acc : β) :
    Observes M w (Command.fold body items acc) m (items.foldlM g acc) m := by
  induction items generalizing acc with
  | nil => exact pure acc
  | cons item items ih =>
      rw [List.foldlM_cons]
      exact bind_except (hbody acc item (List.mem_cons_self ..)) fun acc' ↦
        ih (fun acc other hother ↦ hbody acc other (List.mem_cons_of_mem _ hother)) acc'

/-- A loop whose body never raises. -/
theorem fold_ok {g : β → ι → β} {items : List ι}
    (hbody : ∀ acc, ∀ item ∈ items, Observes M w (body acc item) m (.ok (g acc item)) m) (acc : β) :
    Observes M w (Command.fold body items acc) m (.ok (items.foldl g acc)) m := by
  have hfold := fold hbody acc
  rwa [show (fun acc item ↦ Except.ok (g acc item) : β → ι → Except ε β) =
    fun acc item ↦ Pure.pure (g acc item) from rfl, List.foldlM_pure] at hfold

theorem run (hc : Observes M w c m outcome n) :
    c.run M m w = ((outcome, n), w) :=
  Prog.Observes.run hc

theorem within {F : Footprint S σ} (hobserves : Observes M w c m outcome n) (hc : c.Within F) : F.memory m n :=
  Prog.Within.observes (L := fun outcome ↦ F.memory m outcome.2) (hc m) hobserves

/-- A step of a longer command that only reads. -/
theorem wp_crash_bind {Q : β → σ → M.World → Prop} {R : ε → σ → M.World → Prop} {a : α}
    (hc : Observes M w c m (.ok a) n) (hI : I w) (hf : wp (crashContract M I) (f a) Q R n w) :
    wp (crashContract M I) (c >>= f) Q R m w :=
  (wp_bind c f).mpr (Prog.Observes.wp_crash hc hI hf)

theorem wp_crash {Q : α → σ → M.World → Prop} {R : ε → σ → M.World → Prop} (hc : Observes M w c m outcome n) (hI : I w)
    (hQ : ∀ a, outcome = .ok a → Q a n w) (hR : ∀ e, outcome = .error e → R e n w) :
    wp (crashContract M I) c Q R m w := by
  refine Prog.Observes.wp_crash hc hI ?_
  cases outcome with
  | ok a => exact hQ a rfl
  | error e => exact hR e rfl

end Observes

end Command

end WorkStack.Effect
