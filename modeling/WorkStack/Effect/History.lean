import WorkStack.Effect.Command

/-!
# Histories of an execution

A history variable is computed from the events of an execution: what the program did and what the
other party did to the world in between. It is not part of the world, but a run can be replayed on a
machine that carries it along, and there it can be used in a contract.

The rule at the end is about a party that disturbs a program. A world is calm as long as nothing has
been disturbed. Whatever a program shows when it runs alone, it shows again if it ends in a calm
world.
-/

namespace WorkStack.Effect

variable {S : Signature} {σ τ ε α : Type} {M : Machine S}

/-- What a history variable records of an own step and of a step of the other party. -/
structure Recorder (M : Machine S) (τ : Type) where
  own : S.Op → M.World → τ → τ
  env : M.World → M.World → τ → τ

namespace Recorder

variable (H : Recorder M τ)

def after : List (Event M) → τ → τ
  | [], t => t
  | .env u v :: events, t => after events (H.env u v t)
  | .own o u :: events, t => after events (H.own o u t)

theorem after_append (events rest : List (Event M)) (t : τ) :
    H.after (events ++ rest) t = H.after rest (H.after events t) := by
  induction events generalizing t with
  | nil => rfl
  | cons event events ih =>
      cases event with
      | env u v => exact ih _
      | own o u => exact ih _

/-- The machine that carries the history beside its world. -/
abbrev machine : Machine S where
  World := M.World × τ
  perform o w := ((M.perform o w.1).1, (M.perform o w.1).2, H.own o w.1 w.2)

def Env (E : M.World → M.World → Prop) (u v : M.World × τ) : Prop :=
  E u.1 v.1 ∧ v.2 = H.env u.1 v.1 u.2

/-- The events of a run, each with the history before it. -/
def annotate : List (Event M) → τ → List (Event H.machine)
  | [], _ => []
  | .env u v :: events, t => .env (u, t) (v, H.env u v t) :: annotate events (H.env u v t)
  | .own o u :: events, t => .own o (u, t) :: annotate events (H.own o u t)

theorem annotate_append (events rest : List (Event M)) (t : τ) :
    H.annotate (events ++ rest) t = H.annotate events t ++ H.annotate rest (H.after events t) := by
  induction events generalizing t with
  | nil => rfl
  | cons event events ih =>
      cases event with
      | env u v => exact congrArg (_ :: ·) (ih _)
      | own o u => exact congrArg (_ :: ·) (ih _)

theorem own_mem_annotate {o : S.Op} {u : M.World} (before rest : List (Event M)) (t : τ) :
    .own o (u, H.after before t) ∈ H.annotate (before ++ .own o u :: rest) t := by
  induction before generalizing t with
  | nil => exact List.mem_cons_self ..
  | cons event before ih =>
      cases event with
      | env u v => exact List.mem_cons_of_mem _ (ih _)
      | own o u => exact List.mem_cons_of_mem _ (ih _)

/-- A run is also a run of the machine that carries the history along. -/
theorem run {E : M.World → M.World → Prop} {p q : Prog S α} {w w' : M.World}
    {events : List (Event M)} (h : Run M E p w events q w') (t : τ) :
    Run H.machine (H.Env E) p (w, t) (H.annotate events t) q (w', H.after events t) := by
  induction h generalizing t with
  | refl p w => exact Run.refl (M := H.machine) p (w, t)
  | env move _ ih => exact .env ⟨move, rfl⟩ (ih _)
  | own _ ih => exact .own (ih _)

/-- Where nothing of what it does is recorded, a reading program reads the same beside a history. -/
theorem observes {P : S.Op → Prop} {L : α → Prop} {p : Prog S α} {a : α} {w : M.World}
    (hp : p.Observes M w a) (hP : p.Within P L) (hown : ∀ o u t, P o → H.own o u t = t) (t : τ) :
    p.Observes H.machine (w, t) a := by
  induction p with
  | pure value => exact hp
  | op o next ih => exact ⟨Prod.ext hp.1 (hown o w t hP.1), ih _ hp.2 (hP.2 _)⟩

end Recorder

/-! ## Calm worlds -/

/-- Nothing was disturbed: the other party keeps a calm world only by leaving it as it is, and these
operations never make a disturbed world calm again. -/
structure Calms (C : Contract M) (P : S.Op → Prop) (calm : M.World → Prop) : Prop where
  rely : ∀ u v, C.rely u v → calm v → u = v
  own : ∀ o u, P o → calm (M.perform o u).2 → calm u
  ensure : ∀ o u, P o → C.ensure o u

variable {C : Contract M} {P : S.Op → Prop} {calm : M.World → Prop}

theorem Calms.wp_disturbed (hC : Calms C P calm) {L : α → Prop} {p : Prog S α} (hp : p.Within P L)
    {Q : α → M.World → Prop} {w : M.World} (hw : ¬calm w) : wp C p (fun a u ↦ calm u → Q a u) w := by
  apply wp_mono (hp.wp (I := fun u ↦ ¬calm u) ?_ ?_ hw)
  · intro a u hu hcalm
    exact absurd hcalm hu.1
  · intro u v hu hrely hcalm
    exact hu (hC.rely u v hrely hcalm ▸ hcalm)
  · intro o u ho hu _
    exact ⟨hC.ensure o u ho, fun hcalm ↦ hu (hC.own o u ho hcalm)⟩

/-- A program that only reads has read what it reads alone, if it ends in a calm world. -/
theorem Calms.wp_observes (hC : Calms C P calm) {L : α → Prop} {p : Prog S α} (hp : p.Within P L)
    {a : α} {w : M.World} (hobserves : p.Observes M w a) :
    wp C p (fun b u ↦ calm u → b = a ∧ u = w) w := by
  induction p with
  | pure value => exact fun _ ↦ ⟨hobserves, rfl⟩
  | op o next ih =>
      intro u hrely _
      refine ⟨hC.ensure o u hp.1, ?_⟩
      by_cases hcalm : calm u
      · cases hC.rely w u hrely hcalm
        have hnext := ih (M.perform o w).1 (hp.2 _) hobserves.2
        rwa [hobserves.1]
      · exact hC.wp_disturbed (hp.2 _) fun hafter ↦ hcalm (hC.own o u hp.1 hafter)

/-- What a reading command has shown of a world holds if it ends in a calm world. -/
theorem Calms.wp_command {F : Footprint S σ} (hC : Calms C F.op calm) {c : Command S σ ε α}
    (hc : c.Within F) {m m' : σ} {outcome : Except ε α} {w : M.World}
    (hobserves : calm w → Command.Observes M w c m outcome m') :
    Command.wp C c (fun a _ u ↦ calm u → outcome = .ok a ∧ u = w) (fun _ _ _ ↦ True) m w := by
  by_cases hcalm : calm w
  · apply wp_mono (hC.wp_observes (hc m) (hobserves hcalm))
    rintro ⟨e | a, n⟩ u h
    · trivial
    · intro hcalm
      obtain ⟨hsame, hworld⟩ := h hcalm
      cases hsame
      exact ⟨rfl, hworld⟩
  · apply wp_mono (hC.wp_disturbed (hc m) (Q := fun _ _ ↦ False) hcalm)
    rintro ⟨e | a, n⟩ u h
    · trivial
    · intro hcalm
      exact (h hcalm).elim

end WorkStack.Effect
