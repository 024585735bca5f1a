import Mathlib

/-!
# Programs of atomic steps

A program is a tree of operations: each operation is one atomic step of a machine, and the rest of
the program depends on the answer it got. Between two operations another party may change the
world, and a crash may stop the program before any operation.

The rules below reason about every such execution at once. A contract says what the other party may
do, what is taken for granted when an operation starts, and what has to be shown at that moment.
-/

namespace WorkStack.Effect

/-- The operations a program may use, each with the type of its answer. -/
structure Signature where
  Op : Type
  Answer : Op → Type

/-- A world in which every operation is one atomic step. -/
structure Machine (S : Signature) where
  World : Type
  perform : (o : S.Op) → World → S.Answer o × World

inductive Prog (S : Signature) (α : Type) where
  | pure (value : α)
  | op (o : S.Op) (next : S.Answer o → Prog S α)

variable {S : Signature} {α β : Type}

namespace Prog

def bind (p : Prog S α) (f : α → Prog S β) : Prog S β :=
  match p with
  | pure value => f value
  | op o next => op o fun answer ↦ (next answer).bind f

@[simp] theorem bind_pure (value : α) (f : α → Prog S β) : (pure value).bind f = f value := rfl

@[simp] theorem bind_op (o : S.Op) (next : S.Answer o → Prog S α) (f : α → Prog S β) :
    (op o next).bind f = op o fun answer ↦ (next answer).bind f := rfl

/-- The uninterrupted execution, when no other party acts. -/
def run (M : Machine S) : Prog S α → M.World → α × M.World
  | pure value, w => (value, w)
  | op o next, w => (next (M.perform o w).1).run M (M.perform o w).2

variable {M : Machine S}

@[simp] theorem run_pure (value : α) (w : M.World) : (pure value : Prog S α).run M w = (value, w) :=
  rfl

@[simp] theorem run_op (o : S.Op) (next : S.Answer o → Prog S α) (w : M.World) :
    (op o next).run M w = (next (M.perform o w).1).run M (M.perform o w).2 := rfl

end Prog

/-! ## Executions with another party -/

/-- One step of an execution: of the other party, or of the program with the world it started in. -/
inductive Event (M : Machine S) where
  | env (before after : M.World)
  | own (o : S.Op) (before : M.World)

/-- An execution of `p` from one world to another, stopped when `q` is what is left to do. -/
inductive Run (M : Machine S) (E : M.World → M.World → Prop) :
    Prog S α → M.World → List (Event M) → Prog S α → M.World → Prop
  | refl (p : Prog S α) (w : M.World) : Run M E p w [] p w
  | env {p q : Prog S α} {w w' w'' : M.World} {events : List (Event M)} (move : E w w')
      (rest : Run M E p w' events q w'') : Run M E p w (.env w w' :: events) q w''
  | own {o : S.Op} {next : S.Answer o → Prog S α} {q : Prog S α} {w w'' : M.World}
      {events : List (Event M)}
      (rest : Run M E (next (M.perform o w).1) (M.perform o w).2 events q w'') :
      Run M E (.op o next) w (.own o w :: events) q w''

/-- No other party acts. -/
def alone (M : Machine S) : M.World → M.World → Prop := fun _ _ ↦ False

/-- The worlds in which a crash can leave a program that nobody disturbs. -/
def CrashState (M : Machine S) (p : Prog S α) (w w' : M.World) : Prop :=
  ∃ events q, Run M (alone M) p w events q w'

variable {M : Machine S}

variable {events : List (Event M)} {p : Prog S α}

theorem Run.eq_run {w w' : M.World} {value : α} (h : Run M (alone M) p w events (.pure value) w') :
    p.run M w = (value, w') := by
  generalize hq : Prog.pure value = q at h
  induction h with
  | refl p w => subst hq; rfl
  | env move rest ih => exact move.elim
  | own rest ih => exact ih hq

theorem Run.of_run (p : Prog S α) (w : M.World) :
    ∃ events, Run M (alone M) p w events (.pure (p.run M w).1) (p.run M w).2 := by
  induction p generalizing w with
  | pure value => exact ⟨[], .refl _ _⟩
  | op o next ih =>
      obtain ⟨events, h⟩ := ih (M.perform o w).1 (M.perform o w).2
      exact ⟨.own o w :: events, .own h⟩

theorem Run.mono {E E' : M.World → M.World → Prop} {p q : Prog S α} {w w' : M.World} (h : Run M E p w events q w')
    (hE : ∀ u v, E u v → E' u v) :
    Run M E' p w events q w' := by
  induction h with
  | refl p w => exact .refl p w
  | env move _ ih => exact .env (hE _ _ move) ih
  | own _ ih => exact .own ih

variable {first rest : List (Event M)}

/-- Executions of the parts of a sequence join to one of the whole. -/
theorem Run.bind {E : M.World → M.World → Prop} {f : α → Prog S β} {q : Prog S β} {value : α} {w u w' : M.World}
    (hp : Run M E p w first (.pure value) u) (hf : Run M E (f value) u rest q w') :
    Run M E (p.bind f) w (first ++ rest) q w' := by
  generalize hr : Prog.pure value = r at hp
  induction hp with
  | refl p w =>
      subst hr
      exact hf
  | env move _ ih => exact .env move (ih hf hr)
  | own _ ih => exact .own (ih hf hr)

/-- An execution that stops in the first part of a sequence. -/
theorem Run.within {E : M.World → M.World → Prop} {p p' : Prog S β} {w w' : M.World} (hp : Run M E p w events p' w')
    (f : β → Prog S α) :
    Run M E (p.bind f) w events (p'.bind f) w' := by
  induction hp with
  | refl p w => exact .refl _ w
  | env move _ ih => exact .env move ih
  | own _ ih => exact .own ih

/-- An execution can be looked at where it has come to part of its events. -/
theorem Run.split {E : M.World → M.World → Prop} {p q : Prog S α} {w w' : M.World}
    (first : List (Event M)) {rest : List (Event M)} (h : Run M E p w (first ++ rest) q w') :
    ∃ p' u, Run M E p w first p' u ∧ Run M E p' u rest q w' := by
  induction first generalizing p w with
  | nil => exact ⟨p, w, .refl p w, h⟩
  | cons event first ih =>
      cases h with
      | env move hrest =>
          obtain ⟨p', u, hfirst, hlast⟩ := ih hrest
          exact ⟨p', u, .env move hfirst, hlast⟩
      | own hrest =>
          obtain ⟨p', u, hfirst, hlast⟩ := ih hrest
          exact ⟨p', u, .own hfirst, hlast⟩

theorem Run.trans {E : M.World → M.World → Prop} {p p' q : Prog S α} {w u w' : M.World}
    (hfirst : Run M E p w first p' u) (hrest : Run M E p' u rest q w') :
    Run M E p w (first ++ rest) q w' := by
  induction hfirst with
  | refl p w => exact hrest
  | env move _ ih => exact .env move (ih hrest)
  | own _ ih => exact .own (ih hrest)

/-- Beside a program that has returned only the other party acts, and it may do so beside any other. -/
theorem Run.pure_cases {E : M.World → M.World → Prop} {value : α} {q : Prog S α} {w w' : M.World}
    (h : Run M E (.pure value) w events q w') (p : Prog S β) :
    q = .pure value ∧ Run M E p w events p w' := by
  generalize hr : Prog.pure value = r at h
  induction h with
  | refl r w => exact ⟨rfl, .refl p w⟩
  | env move _ ih => exact ⟨(ih hr).1, .env move (ih hr).2⟩
  | own _ _ => cases hr

/-- What the other party and the steps of an execution keep holds where it stops. -/
theorem Run.keeps {E : M.World → M.World → Prop} {p q : Prog S α} {w w' : M.World} {I : M.World → Prop}
    (h : Run M E p w events q w') (hw : I w) (henv : ∀ u v, E u v → I u → I v)
    (hown : ∀ o u, .own o u ∈ events → I u → I (M.perform o u).2) :
    I w' := by
  induction h with
  | refl p w => exact hw
  | env move _ ih =>
      exact ih (henv _ _ move hw) fun o u hmem ↦ hown o u (List.mem_cons_of_mem _ hmem)
  | own _ ih =>
      apply ih (hown _ _ (List.mem_cons_self ..) hw)
      exact fun o u hmem ↦ hown o u (List.mem_cons_of_mem _ hmem)

theorem Run.env_not_mem {p q : Prog S α} {w w' : M.World} (h : Run M (alone M) p w events q w') (u v : M.World) :
    .env u v ∉ events := by
  induction h with
  | refl p w => exact List.not_mem_nil
  | env move _ _ => exact move.elim
  | own _ ih => simpa using ih

/-- With these events the program has returned, and `Q` holds of what it returned. -/
def Returns (M : Machine S) (E : M.World → M.World → Prop) (p : Prog S α) (w : M.World)
    (events : List (Event M)) (Q : α → M.World → Prop) : Prop :=
  ∃ value w', Run M E p w events (.pure value) w' ∧ Q value w'

namespace Returns

variable {E : M.World → M.World → Prop} {Q : α → M.World → Prop}

theorem pure {value : α} {w : M.World} (h : Q value w) : Returns M E (.pure value) w [] Q :=
  ⟨value, w, .refl _ _, h⟩

theorem own {o : S.Op} {next : S.Answer o → Prog S α} {w : M.World}
    (h : Returns M E (next (M.perform o w).1) (M.perform o w).2 events Q) :
    Returns M E (.op o next) w (.own o w :: events) Q := by
  obtain ⟨value, w', hrun, hvalue⟩ := h
  exact ⟨value, w', .own hrun, hvalue⟩

theorem env {w w' : M.World} (move : E w w') (h : Returns M E p w' events Q) :
    Returns M E p w (.env w w' :: events) Q := by
  obtain ⟨value, u, hrun, hvalue⟩ := h
  exact ⟨value, u, .env move hrun, hvalue⟩

theorem bind {p : Prog S β} {f : β → Prog S α} {value : β} {w u : M.World} (hp : Run M E p w first (.pure value) u)
    (h : Returns M E (f value) u rest Q) : Returns M E (p.bind f) w (first ++ rest) Q := by
  obtain ⟨a, w', hrun, hvalue⟩ := h
  exact ⟨a, w', hp.bind hrun, hvalue⟩

end Returns

/-- An undisturbed program has not started or has made its first step. -/
theorem Run.op_cases {o : S.Op} {next : S.Answer o → Prog S α} {q : Prog S α} {w w' : M.World}
    (h : Run M (alone M) (.op o next) w events q w') :
    (w' = w ∧ events = []) ∨ ∃ rest, events = .own o w :: rest ∧
      Run M (alone M) (next (M.perform o w).1) (M.perform o w).2 rest q w' := by
  cases h with
  | refl => exact .inl ⟨rfl, rfl⟩
  | env move rest => exact move.elim
  | own rest => exact .inr ⟨_, rfl, rest⟩

/-- A prefix of a sequence either stops in its first part or has that part behind it. -/
theorem Run.bind_cases {E : M.World → M.World → Prop} {f : α → Prog S β} {q : Prog S β} {w w' : M.World}
    (h : Run M E (p.bind f) w events q w') :
    (∃ p', Run M E p w events p' w' ∧ q = p'.bind f) ∨
      ∃ value u first rest, events = first ++ rest ∧ Run M E p w first (.pure value) u ∧
        Run M E (f value) u rest q w' := by
  generalize hr : p.bind f = r at h
  induction h generalizing p with
  | refl r w => exact .inl ⟨p, .refl p w, hr.symm⟩
  | env move rest ih =>
      rcases ih hr with ⟨p', hrun, hq⟩ | ⟨value, u, first, rest', hsplit, hfirst, hrest⟩
      · exact .inl ⟨p', .env move hrun, hq⟩
      · exact .inr ⟨value, u, _ :: first, rest', congrArg (_ :: ·) hsplit, .env move hfirst, hrest⟩
  | @own o next q w w'' events rest ih =>
      cases p with
      | pure value =>
          refine .inr ⟨value, w, [], _, rfl, .refl _ w, ?_⟩
          rw [show f value = .op o next from hr]
          exact .own rest
      | op o' next' =>
          simp only [Prog.bind_op, Prog.op.injEq] at hr
          obtain ⟨rfl, hnext⟩ := hr
          rcases ih (congrFun (eq_of_heq hnext) _) with
            ⟨p', hrun, hq⟩ | ⟨value, u, first, rest', hsplit, hfirst, hrest⟩
          · exact .inl ⟨p', .own hrun, hq⟩
          · exact .inr ⟨value, u, _ :: first, rest', congrArg (_ :: ·) hsplit, .own hfirst, hrest⟩

/-- A sequence that has come to its end has both parts behind it. -/
theorem Run.bind_pure_cases {E : M.World → M.World → Prop} {f : α → Prog S β} {result : β} {w w' : M.World}
    (h : Run M E (p.bind f) w events (.pure result) w') :
    ∃ value u first rest, events = first ++ rest ∧ Run M E p w first (.pure value) u ∧
      Run M E (f value) u rest (.pure result) w' := by
  rcases h.bind_cases with ⟨p', hp, hq⟩ | ⟨value, u, first, rest, hsplit, hfirst, hrest⟩
  · cases p' with
    | pure value =>
        rw [Prog.bind_pure] at hq
        refine ⟨value, w', events, [], (List.append_nil _).symm, hp, ?_⟩
        rw [hq]
        exact .refl _ _
    | op o next => cases hq
  · exact ⟨value, u, first, rest, hsplit, hfirst, hrest⟩

/-! ## Contracts -/

/-- What the other party may do, what each own step may take for granted and what it has to
guarantee; both are judged in the world the step starts in. -/
structure Contract (M : Machine S) where
  rely : M.World → M.World → Prop
  assume : S.Op → M.World → Prop
  ensure : S.Op → M.World → Prop
  rely_refl : ∀ w, rely w w
  rely_trans : ∀ u v w, rely u v → rely v w → rely u w

/-- Every execution of `p` from `w` keeps the contract, and ends with `Q` if it ends. -/
def wp (C : Contract M) : Prog S α → (α → M.World → Prop) → M.World → Prop
  | .pure value, Q, w => Q value w
  | .op o next, Q, w => ∀ u, C.rely w u → C.assume o u →
      C.ensure o u ∧ wp C (next (M.perform o u).1) Q (M.perform o u).2

section Rules

variable {C : Contract M} {Q Q' : α → M.World → Prop} {w : M.World}

@[simp] theorem wp_pure (value : α) : wp C (.pure value) Q w ↔ Q value w := Iff.rfl

theorem wp_op (o : S.Op) (next : S.Answer o → Prog S α) :
    wp C (.op o next) Q w ↔ ∀ u, C.rely w u → C.assume o u →
      C.ensure o u ∧ wp C (next (M.perform o u).1) Q (M.perform o u).2 := Iff.rfl

theorem wp_mono (h : wp C p Q w) (hQ : ∀ a u, Q a u → Q' a u) : wp C p Q' w := by
  induction p generalizing w with
  | pure value => exact hQ _ _ h
  | op o next ih =>
      intro u hu hassume
      obtain ⟨hensure, hnext⟩ := h u hu hassume
      exact ⟨hensure, ih _ hnext⟩

theorem wp_bind (p : Prog S β) (f : β → Prog S α) :
    wp C (p.bind f) Q w ↔ wp C p (fun b u ↦ wp C (f b) Q u) w := by
  induction p generalizing w with
  | pure value => rfl
  | op o next ih =>
      simp only [Prog.bind_op, wp_op, ih]

theorem wp_and (h : wp C p Q w) (h' : wp C p Q' w) :
    wp C p (fun a u ↦ Q a u ∧ Q' a u) w := by
  induction p generalizing w with
  | pure value => exact ⟨h, h'⟩
  | op o next ih =>
      intro u hu hassume
      exact ⟨(h u hu hassume).1, ih _ (h u hu hassume).2 (h' u hu hassume).2⟩

/-- What is left to do after a prefix of an execution: the other party may have moved last. -/
def Settled (C : Contract M) (p : Prog S α) (Q : α → M.World → Prop) (w : M.World) : Prop :=
  ∃ u, C.rely u w ∧ wp C p Q u

theorem Settled.of_wp (h : wp C p Q w) : Settled C p Q w := ⟨w, C.rely_refl w, h⟩

/-- The rules are sound for every prefix of every execution. -/
theorem Settled.run {E : M.World → M.World → Prop} {p q : Prog S α} {w' : M.World} (h : Settled C p Q w)
    (hrun : Run M E p w events q w') (hE : ∀ u v, E u v → C.rely u v)
    (hassume : ∀ o u, .own o u ∈ events → C.assume o u) :
    (∀ o u, .own o u ∈ events → C.ensure o u) ∧ Settled C q Q w' := by
  induction hrun with
  | refl p w => exact ⟨by simp, h⟩
  | env move rest ih =>
      obtain ⟨u, hu, hp⟩ := h
      obtain ⟨hensure, hq⟩ := ih ⟨u, C.rely_trans _ _ _ hu (hE _ _ move), hp⟩
        fun o v hv ↦ hassume o v (List.mem_cons_of_mem _ hv)
      refine ⟨fun o v hv ↦ hensure o v ?_, hq⟩
      simpa using hv
  | @own o next q w w'' events rest ih =>
      obtain ⟨u, hu, hp⟩ := h
      obtain ⟨hensure, hnext⟩ := hp w hu (hassume o w (List.mem_cons_self ..))
      obtain ⟨hrest, hq⟩ := ih (.of_wp hnext) fun o v hv ↦ hassume o v (List.mem_cons_of_mem _ hv)
      refine ⟨fun o' v hv ↦ ?_, hq⟩
      rcases List.mem_cons.mp hv with heq | hv
      · cases heq
        exact hensure
      · exact hrest o' v hv

theorem wp_run {E : M.World → M.World → Prop} {p q : Prog S α} {w' : M.World} (h : wp C p Q w)
    (hrun : Run M E p w events q w') (hE : ∀ u v, E u v → C.rely u v)
    (hassume : ∀ o u, .own o u ∈ events → C.assume o u) :
    (∀ o u, .own o u ∈ events → C.ensure o u) ∧ Settled C q Q w' :=
  Settled.run (.of_wp h) hrun hE hassume

end Rules

/-! ## Programs of certain operations -/

/-- Every operation the program may ever perform satisfies `P`, every value it may return `L`. -/
def Prog.Within (P : S.Op → Prop) (L : α → Prop) : Prog S α → Prop
  | .pure value => L value
  | .op o next => P o ∧ ∀ answer, (next answer).Within P L

theorem Prog.Within.mono {P P' : S.Op → Prop} {L L' : α → Prop} (hp : p.Within P L) (h : ∀ o, P o → P' o)
    (hL : ∀ a, L a → L' a) : p.Within P' L' := by
  induction p with
  | pure value => exact hL value hp
  | op o next ih => exact ⟨h o hp.1, fun answer ↦ ih answer (hp.2 answer)⟩

theorem Prog.Within.bind {P : S.Op → Prop} {L : β → Prop} {L' : α → Prop} {p : Prog S β}
    {f : β → Prog S α} (hp : p.Within P L) (hf : ∀ b, L b → (f b).Within P L') :
    (p.bind f).Within P L' := by
  induction p with
  | pure value => exact hf value hp
  | op o next ih => exact ⟨hp.1, fun answer ↦ ih answer (hp.2 answer)⟩

/-- An invariant of certain operations is kept by every program made of them. -/
theorem Prog.Within.wp {C : Contract M} {P : S.Op → Prop} {L : α → Prop} {I : M.World → Prop} {w : M.World}
    (hp : p.Within P L) (hrely : ∀ u v, I u → C.rely u v → I v)
    (hstep : ∀ o u, P o → I u → C.assume o u → C.ensure o u ∧ I (M.perform o u).2) (hw : I w) :
    wp C p (fun a u ↦ I u ∧ L a) w := by
  induction p generalizing w with
  | pure value => exact ⟨hw, hp⟩
  | op o next ih =>
      intro u hu hassume
      obtain ⟨hensure, hnext⟩ := hstep o u hp.1 (hrely w u hw hu) hassume
      exact ⟨hensure, ih _ (hp.2 _) hnext⟩

/-! ## Crash safety -/

/-- The contract of an undisturbed program which keeps `I` in every world it can crash in. -/
def crashContract (M : Machine S) (I : M.World → Prop) : Contract M where
  rely := Eq
  assume _ _ := True
  ensure _ := I
  rely_refl _ := rfl
  rely_trans _ _ _ := Eq.trans

section Crash

variable {I : M.World → Prop} {Q : α → M.World → Prop} {w : M.World}

@[simp] theorem wp_crash_op (o : S.Op) (next : S.Answer o → Prog S α) :
    wp (crashContract M I) (.op o next) Q w ↔
      I w ∧ wp (crashContract M I) (next (M.perform o w).1) Q (M.perform o w).2 := by
  constructor
  · intro h
    exact h w rfl trivial
  · rintro h u rfl -
    exact h

/-- A program that ends in `I` and keeps `I` at each of its steps keeps it in every crash state. -/
theorem CrashState.invariant {w' : M.World} (h : CrashState M p w w') (hp : wp (crashContract M I) p Q w)
    (hQ : ∀ a u, Q a u → I u) : I w' := by
  obtain ⟨events, q, hrun⟩ := h
  obtain ⟨-, u, rfl, hq⟩ := wp_run hp hrun (fun _ _ move ↦ move.elim) fun _ _ _ ↦ trivial
  cases q with
  | pure value => exact hQ _ _ hq
  | op o next => exact (wp_crash_op o next).mp hq |>.1

theorem wp_crash_weaken {I' : M.World → Prop} (hp : wp (crashContract M I) p Q w) (hI : ∀ u, I u → I' u) :
    wp (crashContract M I') p Q w := by
  induction p generalizing w with
  | pure value => exact hp
  | op o next ih =>
      obtain ⟨hhere, hnext⟩ := (wp_crash_op o next).mp hp
      exact (wp_crash_op o next).mpr ⟨hI w hhere, ih _ hnext⟩

theorem wp_crash_run (hp : wp (crashContract M I) p Q w) :
    Q (p.run M w).1 (p.run M w).2 := by
  induction p generalizing w with
  | pure value => exact hp
  | op o next ih => exact ih _ ((wp_crash_op o next).mp hp).2

/-- Run alone from `w`, the program only reads: no step changes the world, and it returns `a`. -/
def Prog.Observes (M : Machine S) (w : M.World) : Prog S α → α → Prop
  | .pure value, a => value = a
  | .op o next, a => (M.perform o w).2 = w ∧ (next (M.perform o w).1).Observes M w a

theorem Prog.Observes.bind {p : Prog S β} {f : β → Prog S α} {b : β} {a : α}
    (hp : p.Observes M w b) (hf : (f b).Observes M w a) : (p.bind f).Observes M w a := by
  induction p with
  | pure value =>
      cases hp
      exact hf
  | op o next ih => exact ⟨hp.1, ih _ hp.2⟩

theorem Prog.Observes.run {a : α} (hp : p.Observes M w a) : p.run M w = (a, w) := by
  induction p with
  | pure value =>
      cases hp
      rfl
  | op o next ih =>
      rw [Prog.run_op, hp.1]
      exact ih _ hp.2

theorem Prog.Within.observes {P : S.Op → Prop} {L : α → Prop} {a : α} (hp : p.Within P L)
    (hobserves : p.Observes M w a) : L a := by
  induction p with
  | pure value =>
      cases hobserves
      exact hp
  | op o next ih => exact ih _ (hp.2 _) hobserves.2

theorem Prog.Observes.exists_run {a : α} (hp : p.Observes M w a) :
    ∃ events, Run M (alone M) p w events (.pure a) w := by
  obtain ⟨events, hrun⟩ := Run.of_run (M := M) p w
  rw [hp.run] at hrun
  exact ⟨events, hrun⟩

/-- While an undisturbed program only reads, its crash state is the world it started in. -/
theorem Prog.Observes.run_until {p q : Prog S α} {a : α} {w' : M.World} (hp : p.Observes M w a)
    (hrun : Run M (alone M) p w events q w') :
    w' = w ∧ ∀ o u, .own o u ∈ events → u = w ∧ (M.perform o w).2 = w := by
  induction hrun with
  | refl p w => exact ⟨rfl, by simp⟩
  | env move rest ih => exact move.elim
  | @own o next q w w'' events rest ih =>
      obtain ⟨hstay, hnext⟩ := hp
      rw [hstay] at ih
      obtain ⟨hend, hevents⟩ := ih hnext
      refine ⟨hend, fun o' u hu ↦ ?_⟩
      rcases List.mem_cons.mp hu with heq | hu
      · cases heq
        exact ⟨rfl, hstay⟩
      · exact hevents o' u hu

/-- A prefix of a sequence whose first part only reads has reached its second part, or has so far
changed nothing. -/
theorem Prog.Observes.bind_cases {p : Prog S β} {f : β → Prog S α} {b : β} {q : Prog S α} {w' : M.World}
    (hp : p.Observes M w b) (hrun : Run M (alone M) (p.bind f) w events q w') :
    (w' = w ∧ ∀ o u, .own o u ∈ events → (M.perform o w).2 = w) ∨
      ∃ first rest, events = first ++ rest ∧
        (∀ o u, .own o u ∈ first → (M.perform o w).2 = w) ∧ Run M (alone M) (f b) w rest q w' := by
  rcases hrun.bind_cases with ⟨p', hrun, -⟩ | ⟨value, u, first, rest, hsplit, hfirst, hrest⟩
  · obtain ⟨hend, hevents⟩ := hp.run_until hrun
    exact .inl ⟨hend, fun o u hu ↦ (hevents o u hu).2⟩
  · have hvalue : (b, w) = (value, u) := hp.run.symm.trans hfirst.eq_run
    cases hvalue
    exact .inr ⟨first, rest, hsplit, fun o u hu ↦ ((hp.run_until hfirst).2 o u hu).2, hrest⟩

/-- Reading needs the invariant only where it already holds. -/
theorem Prog.Observes.wp_crash {a : α} (hp : p.Observes M w a) (hI : I w) (hQ : Q a w) :
    wp (crashContract M I) p Q w := by
  induction p with
  | pure value =>
      cases hp
      exact hQ
  | op o next ih =>
      rw [wp_crash_op, hp.1]
      exact ⟨hI, ih _ hp.2⟩

end Crash

end WorkStack.Effect
