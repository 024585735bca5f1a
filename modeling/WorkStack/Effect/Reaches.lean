import WorkStack.Effect.Command

/-!
# Programs with a point of no return

Before its point of no return an undisturbed program keeps one invariant, from there on another. A
crash then leaves a world of the first kind, with every step so far taken in such a world, or a world
of the second kind.
-/

namespace WorkStack.Effect

variable {S : Signature} {σ ε α β : Type} {M : Machine S} {I J : M.World → Prop}

/-- The program keeps `I` until what is left of it satisfies `D`. -/
inductive Prog.Reaches (M : Machine S) (I : M.World → Prop) (D : Prog S α → M.World → Prop) :
    Prog S α → M.World → Prop
  | here {p : Prog S α} {w : M.World} (h : D p w) : Reaches M I D p w
  | op {o : S.Op} {next : S.Answer o → Prog S α} {w : M.World} (hI : I w)
      (h : Reaches M I D (next (M.perform o w).1) (M.perform o w).2) : Reaches M I D (.op o next) w

theorem Prog.Reaches.run {D : Prog S α → M.World → Prop} {p q : Prog S α} {w w' : M.World}
    {events : List (Event M)} (h : p.Reaches M I D w) (hrun : Run M (alone M) p w events q w') :
    (I w' ∧ ∀ o u, .own o u ∈ events → I u) ∨
      ∃ p' u rest, D p' u ∧ Run M (alone M) p' u rest q w' := by
  induction h generalizing events with
  | here h => exact .inr ⟨_, _, events, h, hrun⟩
  | op hI h ih =>
      rcases hrun.op_cases with ⟨rfl, rfl⟩ | ⟨rest, rfl, hrest⟩
      · exact .inl ⟨hI, by simp⟩
      · apply (ih hrest).imp_left
        intro ⟨hend, hevents⟩
        refine ⟨hend, fun o u hu ↦ ?_⟩
        rcases List.mem_cons.mp hu with heq | hu
        · cases heq
          exact hI
        · exact hevents o u hu

/-- The point of no return of the first part of a sequence is one of the sequence. -/
theorem Prog.Reaches.bind {D : Prog S β → M.World → Prop} {D' : Prog S α → M.World → Prop}
    {p : Prog S β} {f : β → Prog S α} {w : M.World} (h : p.Reaches M I D w)
    (hD : ∀ p u, D p u → D' (p.bind f) u) : (p.bind f).Reaches M I D' w := by
  induction h with
  | here h => exact .here (hD _ _ h)
  | op hI h ih => exact .op hI ih

theorem Prog.Reaches.wp_crash {K : M.World → Prop} {Q : α → M.World → Prop} {p : Prog S α} {w : M.World}
    (h : p.Reaches M I (fun p u ↦ Effect.wp (crashContract M J) p Q u) w) (hI : ∀ u, I u → K u)
    (hJ : ∀ u, J u → K u) : Effect.wp (crashContract M K) p Q w := by
  induction h with
  | here h => exact wp_crash_weaken h hJ
  | op hhere h ih => exact (wp_crash_op _ _).mpr ⟨hI _ hhere, ih⟩

theorem Prog.Observes.reaches {D : Prog S α → M.World → Prop} {p : Prog S β} {f : β → Prog S α} {b : β}
    {w : M.World} (hp : p.Observes M w b) (hI : I w) (hf : (f b).Reaches M I D w) :
    (p.bind f).Reaches M I D w := by
  induction p with
  | pure value =>
      cases hp
      exact hf
  | op o next ih =>
      apply Prog.Reaches.op hI
      rw [hp.1]
      exact ih _ hp.2

namespace Command

variable {m n : σ} {w : M.World} {Q : α → σ → M.World → Prop} {R : ε → σ → M.World → Prop}

/-- The command keeps `I` up to its point of no return, and `J` from there to its end. -/
def Reaches (M : Machine S) (I J : M.World → Prop) (c : Command S σ ε α) (Q : α → σ → M.World → Prop)
    (R : ε → σ → M.World → Prop) (m : σ) (w : M.World) : Prop :=
  (c m).Reaches M I (fun p u ↦ Effect.wp (crashContract M J) p (fun outcome u ↦ match outcome with
    | (.ok value, memory) => Q value memory u
    | (.error error, memory) => R error memory u) u) w

theorem Reaches.of_wp {c : Command S σ ε α} (h : wp (crashContract M J) c Q R m w) :
    c.Reaches M I J Q R m w := .here h

variable {c : Command S σ ε β} {f : β → Command S σ ε α}

theorem Reaches.observes {b : β} (hc : Observes M w c m (.ok b) n) (hI : I w) (hf : (f b).Reaches M I J Q R n w) :
    (c >>= f).Reaches M I J Q R m w :=
  Prog.Observes.reaches hc hI hf

theorem Reaches.perform {o : S.Op} {f : S.Answer o → Command S σ ε α} (hI : I w)
    (h : (f (M.perform o w).1).Reaches M I J Q R m (M.perform o w).2) :
    ((Command.perform o : Command S σ ε (S.Answer o)) >>= f).Reaches M I J Q R m w :=
  .op hI h

/-- The last part of a sequence lies beyond its point of no return. -/
theorem Reaches.seq {P : β → σ → M.World → Prop} {R' : ε → σ → M.World → Prop} (hc : c.Reaches M I J P R' m w)
    (hf : ∀ b m u, P b m u → wp (crashContract M J) (f b) Q R m u) (hR : ∀ e m u, R' e m u → R e m u) :
    (c >>= f).Reaches M I J Q R m w := by
  apply Prog.Reaches.bind hc
  intro p u hp
  rw [Effect.wp_bind]
  apply Effect.wp_mono hp
  rintro ⟨e | b, m'⟩ v hv
  · exact hR _ _ _ hv
  · exact hf _ _ _ hv

theorem Reaches.wp_crash {K : M.World → Prop} {c : Command S σ ε α} (h : c.Reaches M I J Q R m w)
    (hI : ∀ u, I u → K u) (hJ : ∀ u, J u → K u) : wp (crashContract M K) c Q R m w :=
  Prog.Reaches.wp_crash h hI hJ

/-- What a crash leaves of a command with a point of no return. -/
theorem Reaches.crash {c : Command S σ ε α} (h : c.Reaches M I J Q R m w)
    (hQ : ∀ a m u, Q a m u → J u) (hR : ∀ e m u, R e m u → J u) {events : List (Event M)}
    {q : Prog S (Except ε α × σ)} {w' : M.World} (hrun : Run M (alone M) (c m) w events q w') :
    (I w' ∧ ∀ o u, .own o u ∈ events → I u) ∨ J w' := by
  apply (Prog.Reaches.run h hrun).imp_right
  intro ⟨p', u, rest, hp, hrest⟩
  apply CrashState.invariant ⟨rest, q, hrest⟩ hp
  rintro ⟨e | a, m'⟩ v hv
  · exact hR _ _ _ hv
  · exact hQ _ _ _ hv

/-! ## Crashes that can happen -/

theorem crash_here (c : Command S σ ε α) : CrashState M (c m) w w := ⟨[], c m, .refl _ _⟩

theorem crash_observes {b : β} {w' : M.World} (hc : Observes M w c m (.ok b) n) (h : CrashState M (f b n) w w') :
    CrashState M ((c >>= f) m) w w' := by
  obtain ⟨events, q, hrun⟩ := h
  obtain ⟨first, hfirst⟩ := Prog.Observes.exists_run hc
  exact ⟨first ++ events, q, hfirst.bind hrun⟩

theorem crash_perform {o : S.Op} {f : S.Answer o → Command S σ ε α} {w' : M.World}
    (h : CrashState M (f (M.perform o w).1 m) (M.perform o w).2 w') :
    CrashState M (((Command.perform o : Command S σ ε (S.Answer o)) >>= f) m) w w' := by
  obtain ⟨events, q, hrun⟩ := h
  exact ⟨.own o w :: events, q, .own hrun⟩

/-- A crash in the first part of a sequence. -/
theorem crash_within {w' : M.World} (h : CrashState M (c m) w w') (f : β → Command S σ ε α) :
    CrashState M ((c >>= f) m) w w' := by
  obtain ⟨events, q, hrun⟩ := h
  exact ⟨events, _, hrun.within _⟩

end Command

end WorkStack.Effect
