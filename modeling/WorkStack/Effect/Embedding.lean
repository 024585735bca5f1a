import WorkStack.Effect.Command

/-!
# Programs on a larger machine

A machine may know more operations than a program was written for, and its world may hold more than
the program can see. The program runs there as it is: an operation is performed as one of the larger
machine, and whatever was shown of the program in the world it sees is true in the larger world, of
which the rest stays as it was.
-/

namespace WorkStack.Effect

variable {S T : Signature} {σ ε α β ι : Type}

/-- The operations of one signature among those of another. -/
structure Embedding (S T : Signature) where
  op : S.Op → T.Op
  answer : (o : S.Op) → T.Answer (op o) → S.Answer o

variable (e : Embedding S T)

def Prog.lift : Prog S α → Prog T α
  | .pure value => .pure value
  | .op o next => .op (e.op o) fun answer ↦ (next (e.answer o answer)).lift

def Command.lift (c : Command S σ ε α) : Command T σ ε α := fun m ↦ (c m).lift e

/-- How the world of the smaller machine lies in the larger one. -/
structure Embedding.View (M : Machine S) (N : Machine T) (ρ : Type) where
  view : N.World → M.World
  rest : N.World → ρ
  answer : ∀ o w, e.answer o (N.perform (e.op o) w).1 = (M.perform o (view w)).1
  perform : ∀ o w, view (N.perform (e.op o) w).2 = (M.perform o (view w)).2
  frame : ∀ o w, rest (N.perform (e.op o) w).2 = rest w

/-- A contract on the larger machine that is no harder to keep for the embedded operations. -/
structure Embedding.View.Allows {e : Embedding S T} {M : Machine S} {N : Machine T} {ρ : Type}
    (V : e.View M N ρ) (C : Contract M) (D : Contract N) : Prop where
  rely : ∀ w w', D.rely w w' → C.rely (V.view w) (V.view w')
  frame : ∀ w w', D.rely w w' → V.rest w' = V.rest w
  assume : ∀ o w, D.assume (e.op o) w → C.assume o (V.view w)
  ensure : ∀ o w, C.ensure o (V.view w) → D.ensure (e.op o) w

variable {e} {M : Machine S} {N : Machine T} {ρ : Type} {V : e.View M N ρ} {C : Contract M} {D : Contract N}

theorem Prog.wp_lift (h : V.Allows C D) {p : Prog S α} {Q : α → M.World → Prop} {w : N.World}
    (hp : wp C p Q (V.view w)) :
    wp D (p.lift e) (fun a u ↦ Q a (V.view u) ∧ V.rest u = V.rest w) w := by
  induction p generalizing w with
  | pure value => exact ⟨hp, rfl⟩
  | op o next ih =>
      intro u hrely hassume
      obtain ⟨hensure, hnext⟩ := hp (V.view u) (h.rely w u hrely) (h.assume o u hassume)
      refine ⟨h.ensure o u hensure, ?_⟩
      rw [← V.answer, ← V.perform] at hnext
      apply Effect.wp_mono (ih _ hnext)
      rintro a v ⟨hv, hrest⟩
      exact ⟨hv, hrest.trans ((V.frame o u).trans (h.frame w u hrely))⟩

theorem Command.wp_lift (h : V.Allows C D) {c : Command S σ ε α} {Q : α → σ → M.World → Prop}
    {R : ε → σ → M.World → Prop} {m : σ} {w : N.World} (hc : Command.wp C c Q R m (V.view w)) :
    Command.wp D (c.lift e) (fun a n u ↦ Q a n (V.view u) ∧ V.rest u = V.rest w)
      (fun error n u ↦ R error n (V.view u) ∧ V.rest u = V.rest w) m w := by
  apply Effect.wp_mono (Prog.wp_lift h hc)
  rintro ⟨error | a, n⟩ u hu
  · exact hu
  · exact hu

theorem Prog.Within.lift {P : S.Op → Prop} {P' : T.Op → Prop} {L : α → Prop} {p : Prog S α}
    (h : p.Within P L) (hP : ∀ o, P o → P' (e.op o)) : (p.lift e).Within P' L := by
  induction p with
  | pure value => exact h
  | op o next ih => exact ⟨hP o h.1, fun answer ↦ ih _ (h.2 _)⟩

theorem Command.Within.lift {F : Footprint S σ} {P : T.Op → Prop} {c : Command S σ ε α} (h : c.Within F)
    (hP : ∀ o, F.op o → P (e.op o)) : (c.lift e).Within (.any P) :=
  fun m ↦ (Prog.Within.lift (h m) hP).mono (fun _ h ↦ h) fun _ _ ↦ trivial

/-- A program that only reads does so on the larger machine. -/
theorem Prog.Observes.lift {p : Prog S α} {a : α} {w : N.World}
    (hext : ∀ u v, V.view u = V.view v → V.rest u = V.rest v → u = v)
    (hp : p.Observes M (V.view w) a) : (p.lift e).Observes N w a := by
  induction p with
  | pure value => exact hp
  | op o next ih =>
      have hworld : (N.perform (e.op o) w).2 = w :=
        hext _ _ ((V.perform o w).trans hp.1) (V.frame o w)
      refine ⟨hworld, ?_⟩
      have hnext := hp.2
      rw [← V.answer] at hnext
      exact ih _ hnext

theorem Command.Observes.lift {c : Command S σ ε α} {m n : σ} {outcome : Except ε α} {w : N.World}
    (hext : ∀ u v, V.view u = V.view v → V.rest u = V.rest v → u = v)
    (hc : Command.Observes M (V.view w) c m outcome n) : Command.Observes N w (c.lift e) m outcome n :=
  Prog.Observes.lift hext hc

end WorkStack.Effect
