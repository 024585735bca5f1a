import WorkStack.Effect.Command

/-!
# What follows an answer

Two properties of a program that hold whatever its operations answer, and so whatever other parties
do to the world: what a program still does once an operation has given a certain answer, and which
answer it must have got before it can return.
-/

namespace WorkStack.Effect

variable {S : Signature} {σ ε α β ι : Type} {M : Machine S}
variable {bad : (o : S.Op) → S.Answer o → Prop} {P : S.Op → Prop}

namespace Prog

theorem within_true (p : Prog S α) : p.Within (fun _ ↦ True) fun _ ↦ True := by
  induction p with
  | pure value => trivial
  | op o next ih => exact ⟨trivial, ih⟩

/-- After a bad answer the program performs only operations of `P` and returns only values of `L`. -/
def After (bad : (o : S.Op) → S.Answer o → Prop) (P : S.Op → Prop) (L : α → Prop) : Prog S α → Prop
  | .pure _ => True
  | .op o next => ∀ answer, (bad o answer → (next answer).Within P L) ∧ (next answer).After bad P L

variable {p : Prog S β}

theorem After.bind {L : β → Prop} {L' : α → Prop} {f : β → Prog S α} (hp : p.After bad P L)
    (hL : ∀ b, L b → (f b).Within P L') (hf : ∀ b, (f b).After bad P L') :
    (p.bind f).After bad P L' := by
  induction p with
  | pure value => exact hf value
  | op o next ih =>
      intro answer
      exact ⟨fun hbad ↦ ((hp answer).1 hbad).bind hL, ih answer (hp answer).2⟩

theorem After.of_within {Q : S.Op → Prop} {L L' : α → Prop} {p : Prog S α} (hp : p.Within Q L)
    (hQ : ∀ o answer, Q o → ¬bad o answer) : p.After bad P L' := by
  induction p with
  | pure value => trivial
  | op o next ih =>
      intro answer
      exact ⟨fun hbad ↦ absurd hbad (hQ o answer hp.1), ih answer (hp.2 answer)⟩

theorem After.mono {L L' : α → Prop} {p : Prog S α} (hp : p.After bad P L) (hL : ∀ a, L a → L' a) :
    p.After bad P L' := by
  induction p with
  | pure value => trivial
  | op o next ih =>
      intro answer
      exact ⟨fun hbad ↦ ((hp answer).1 hbad).mono (fun _ h ↦ h) hL, ih answer (hp answer).2⟩

theorem Within.run {L : α → Prop} {E : M.World → M.World → Prop} {p q : Prog S α} {w w' : M.World}
    {events : List (Event M)} (h : p.Within P L) (hrun : Run M E p w events q w') :
    (∀ o u, .own o u ∈ events → P o) ∧ q.Within P L := by
  induction hrun with
  | refl p w => exact ⟨by simp, h⟩
  | env move rest ih =>
      obtain ⟨hevents, hq⟩ := ih h
      exact ⟨fun o u hu ↦ hevents o u (by simpa using hu), hq⟩
  | own rest ih =>
      obtain ⟨hevents, hq⟩ := ih (h.2 _)
      refine ⟨fun o u hu ↦ ?_, hq⟩
      rcases List.mem_cons.mp hu with heq | hu
      · cases heq
        exact h.1
      · exact hevents o u hu

/-- A program that has returned performs nothing any more. -/
theorem pure_of_run {E : M.World → M.World → Prop} {value result : α} {w w' : M.World}
    {events : List (Event M)} (hrun : Run M E (.pure value : Prog S α) w events (.pure result) w') :
    (∀ o u, .own o u ∉ events) ∧ result = value := by
  have hwithin : (.pure value : Prog S α).Within (fun _ ↦ False) (· = value) := rfl
  exact hwithin.run hrun

/-- The rest of an execution after a bad answer. -/
theorem After.run {L : α → Prop} {E : M.World → M.World → Prop} {p q : Prog S α} {w w' u : M.World}
    {before rest : List (Event M)} {o : S.Op} (h : p.After bad P L)
    (hrun : Run M E p w (before ++ .own o u :: rest) q w') (hbad : bad o (M.perform o u).1) :
    (∀ o v, .own o v ∈ rest → P o) ∧ q.Within P L ∧
      ∃ p', Run M E p' (M.perform o u).2 rest q w' := by
  induction before generalizing p w with
  | nil =>
      cases hrun with
      | own hrest =>
          obtain ⟨hevents, hq⟩ := ((h _).1 hbad).run hrest
          exact ⟨hevents, hq, _, hrest⟩
  | cons event before ih =>
      cases hrun with
      | env move hrest => exact ih h hrest
      | own hrest => exact ih (h _).2 hrest

/-- Every execution that returns a value of `L` has got an answer of `V`. -/
def Visits (V : (o : S.Op) → S.Answer o → Prop) (L : α → Prop) : Prog S α → Prop
  | .pure value => ¬L value
  | .op o next => ∀ answer, V o answer ∨ (next answer).Visits V L

variable {V : (o : S.Op) → S.Answer o → Prop}

/-- A sequence visits what its first part visits, if it returns only where that part returned. -/
theorem Visits.bind {L : β → Prop} {L' : α → Prop} {f : β → Prog S α} (hp : p.Visits V L)
    (hf : ∀ b, ¬L b → (f b).Visits V L') : (p.bind f).Visits V L' := by
  induction p with
  | pure value => exact hf value hp
  | op o next ih =>
      intro answer
      exact (hp answer).imp_right fun h ↦ ih answer h

theorem Visits.bind_right {L' : α → Prop} {f : β → Prog S α} (hf : ∀ b, (f b).Visits V L') :
    (p.bind f).Visits V L' := by
  induction p with
  | pure value => exact hf value
  | op o next ih => exact fun answer ↦ .inr (ih answer)

/-- The second part of a sequence need not visit anything for values that the first never returns. -/
theorem Visits.bind_only {L : β → Prop} {L' : α → Prop} {f : β → Prog S α} (hp : p.Within P L)
    (hf : ∀ b, L b → (f b).Visits V L') : (p.bind f).Visits V L' := by
  induction p with
  | pure value => exact hf value hp
  | op o next ih => exact fun answer ↦ .inr (ih answer (hp.2 answer))

theorem Visits.run {L : α → Prop} {E : M.World → M.World → Prop} {p q : Prog S α} {value : α}
    {w w' : M.World} {events : List (Event M)} (h : p.Visits V L) (hrun : Run M E p w events q w')
    (hq : q = .pure value) (hvalue : L value) : ∃ o u, .own o u ∈ events ∧ V o (M.perform o u).1 := by
  induction hrun with
  | refl p w =>
      subst hq
      exact absurd hvalue h
  | env move rest ih =>
      obtain ⟨o, u, hu, hV⟩ := ih h hq
      exact ⟨o, u, List.mem_cons_of_mem _ hu, hV⟩
  | @own o next q w w'' events rest ih =>
      rcases h (M.perform o w).1 with hV | hnext
      · exact ⟨o, w, List.mem_cons_self .., hV⟩
      · obtain ⟨o, u, hu, hV⟩ := ih hnext hq
        exact ⟨o, u, List.mem_cons_of_mem _ hu, hV⟩

/-- Every execution that returns a value of `L` has got an answer of `V`, or has performed operations
of `P` only. -/
def Splits (V : (o : S.Op) → S.Answer o → Prop) (P : S.Op → Prop) (L : α → Prop) : Prog S α → Prop
  | .pure _ => True
  | .op o next => (∀ answer, V o answer ∨ (next answer).Visits V L) ∨
      P o ∧ ∀ answer, (next answer).Splits V P L

theorem Splits.of_within {L L' : α → Prop} {p : Prog S α} (hp : p.Within P L') : p.Splits V P L := by
  induction p with
  | pure value => trivial
  | op o next ih => exact .inr ⟨hp.1, fun answer ↦ ih answer (hp.2 answer)⟩

theorem Splits.of_visits {L : α → Prop} {p : Prog S α} (hp : p.Visits V L) : p.Splits V P L := by
  cases p with
  | pure value => trivial
  | op o next => exact .inl hp

theorem Splits.bind {L : β → Prop} {L' : α → Prop} {f : β → Prog S α} (hp : p.Within P L)
    (hf : ∀ b, (f b).Splits V P L') : (p.bind f).Splits V P L' := by
  induction p with
  | pure value => exact hf value
  | op o next ih => exact .inr ⟨hp.1, fun answer ↦ ih answer (hp.2 answer)⟩

/-- What comes after the first part of a sequence performs operations of `P` only. -/
theorem Splits.bind_within {L : β → Prop} {L' : α → Prop} {f : β → Prog S α} (hp : p.Splits V P L)
    (hf : ∀ b, (f b).Within P fun a ↦ L' a → L b) : (p.bind f).Splits V P L' := by
  have hvisits : ∀ {b}, ¬L b → (f b).Visits V L' := by
    intro b hb
    have hb' := hf b
    generalize f b = r at hb'
    induction r with
    | pure value => exact fun hvalue ↦ hb (hb' hvalue)
    | op o next ih => exact fun answer ↦ .inr (ih answer (hb'.2 answer))
  induction p with
  | pure value => exact .of_within (hf value)
  | op o next ih =>
      rcases hp with hleft | ⟨ho, hnext⟩
      · exact .inl fun answer ↦ (hleft answer).imp_right fun h ↦ h.bind fun b hb ↦ hvisits hb
      · exact .inr ⟨ho, fun answer ↦ ih answer (hnext answer)⟩

theorem Splits.run {L : α → Prop} {E : M.World → M.World → Prop} {p q : Prog S α} {value : α}
    {w w' : M.World} {events : List (Event M)} (h : p.Splits V P L) (hrun : Run M E p w events q w')
    (hq : q = .pure value) (hvalue : L value) :
    (∃ o u, .own o u ∈ events ∧ V o (M.perform o u).1) ∨ ∀ o u, .own o u ∈ events → P o := by
  induction hrun with
  | refl p w => exact .inr (by simp)
  | env move rest ih =>
      rcases ih h hq with ⟨o, u, hu, hV⟩ | hP
      · exact .inl ⟨o, u, List.mem_cons_of_mem _ hu, hV⟩
      · exact .inr fun o u hu ↦ hP o u (by simpa using hu)
  | @own o next q w w'' events rest ih =>
      rcases h with hvisits | ⟨ho, hnext⟩
      · left
        exact Visits.run (p := .op o next) hvisits (.own rest) hq hvalue
      · rcases ih (hnext _) hq with ⟨o, u, hu, hV⟩ | hP
        · exact .inl ⟨o, u, List.mem_cons_of_mem _ hu, hV⟩
        · refine .inr fun o' u hu ↦ ?_
          rcases List.mem_cons.mp hu with heq | hu
          · cases heq
            exact ho
          · exact hP o' u hu

end Prog

namespace Command

/-- The operations and the outcomes of a command. -/
def Only (P : S.Op → Prop) (L : Except ε α → Prop) (c : Command S σ ε α) : Prop :=
  ∀ m, (c m).Within P fun outcome ↦ L outcome.1

/-- What a command does after a bad answer. -/
def After (bad : (o : S.Op) → S.Answer o → Prop) (P : S.Op → Prop) (L : Except ε α → Prop)
    (c : Command S σ ε α) : Prop :=
  ∀ m, (c m).After bad P fun outcome ↦ L outcome.1

/-- The command returns only after an answer of `V`. -/
def Visits (V : (o : S.Op) → S.Answer o → Prop) (c : Command S σ ε α) : Prop :=
  ∀ m, (c m).Visits V fun outcome ↦ ∃ value, outcome.1 = .ok value

/-- The command returns only after an answer of `V`, or after operations of `P` only. -/
def Splits (V : (o : S.Op) → S.Answer o → Prop) (P : S.Op → Prop) (c : Command S σ ε α) : Prop :=
  ∀ m, (c m).Splits V P fun outcome ↦ ∃ value, outcome.1 = .ok value

variable {V : (o : S.Op) → S.Answer o → Prop} {L : Except ε α → Prop} {L' : Except ε β → Prop}

variable {body : β → ι → Command S σ ε β}

namespace Only

theorem pure {value : α} (h : L (.ok value)) : (Pure.pure value : Command S σ ε α).Only P L := fun _ ↦ h

theorem throw {error : ε} (h : L (.error error)) : (Command.throw error : Command S σ ε α).Only P L :=
  fun _ ↦ h

theorem bind {c : Command S σ ε β} {f : β → Command S σ ε α} (hc : c.Only P L')
    (hf : ∀ b, L' (.ok b) → (f b).Only P L) (herror : ∀ e, L' (.error e) → L (.error e)) :
    (c >>= f).Only P L := by
  intro m
  apply Prog.Within.bind (hc m)
  rintro ⟨e | b, m'⟩ h
  · exact herror e h
  · exact hf b h m'

theorem perform {o : S.Op} (ho : P o) :
    (Command.perform o : Command S σ ε (S.Answer o)).Only P fun outcome ↦ ∃ answer, outcome = .ok answer :=
  fun _ ↦ ⟨ho, fun answer ↦ ⟨answer, rfl⟩⟩

theorem ofExcept {result : Except ε α} (h : L result) : (Command.ofExcept result : Command S σ ε α).Only P L := by
  cases result with
  | ok value => exact pure h
  | error error => exact throw h

theorem anything (c : Command S σ ε α) : c.Only (fun _ ↦ True) fun _ ↦ True :=
  fun m ↦ Prog.within_true (c m)

/-- A loop whose body always returns. -/
theorem fold (hbody : ∀ acc item, (body acc item).Only P fun outcome ↦ ∃ acc', outcome = .ok acc') (items : List ι)
    (acc : β) :
    (Command.fold body items acc).Only P fun outcome ↦ ∃ acc', outcome = .ok acc' := by
  induction items generalizing acc with
  | nil => exact pure ⟨acc, rfl⟩
  | cons item items ih =>
      rw [Command.fold]
      apply bind (hbody acc item) (fun acc' _ ↦ ih acc')
      rintro e ⟨_, h⟩
      cases h

end Only

namespace After

theorem of_within {F : Footprint S σ} {c : Command S σ ε α} (hc : c.Within F)
    (hF : ∀ o answer, F.op o → ¬bad o answer) : c.After bad P L :=
  fun m ↦ Prog.After.of_within (hc m) hF

theorem mono {L' : Except ε α → Prop} {c : Command S σ ε α} (hc : c.After bad P L')
    (hL : ∀ outcome, L' outcome → L outcome) : c.After bad P L :=
  fun m ↦ (hc m).mono fun outcome ↦ hL outcome.1

theorem pure (value : α) : (Pure.pure value : Command S σ ε α).After bad P L := fun _ ↦ trivial

theorem throw (error : ε) : (Command.throw error : Command S σ ε α).After bad P L := fun _ ↦ trivial

theorem bind {c : Command S σ ε β} {f : β → Command S σ ε α} (hc : c.After bad P L')
    (hok : ∀ b, L' (.ok b) → (f b).Only P L) (herror : ∀ e, L' (.error e) → L (.error e))
    (hf : ∀ b, (f b).After bad P L) : (c >>= f).After bad P L := by
  intro m
  apply Prog.After.bind (hc m)
  · rintro ⟨e | b, m'⟩ h
    · exact herror e h
    · exact hok b h m'
  · rintro ⟨e | b, m'⟩
    · trivial
    · exact hf b m'

/-- The first part of a sequence gives no bad answer. -/
theorem bind_within {F : Footprint S σ} {c : Command S σ ε β} {f : β → Command S σ ε α}
    (hc : c.Within F) (hF : ∀ o answer, F.op o → ¬bad o answer) (hf : ∀ b, (f b).After bad P L) :
    (c >>= f).After bad P L :=
  have hnever : c.After bad P fun _ ↦ False := of_within hc hF
  bind hnever (fun _ h ↦ h.elim) (fun _ h ↦ h.elim) hf

theorem perform_bind {o : S.Op} {f : S.Answer o → Command S σ ε α}
    (hbad : ∀ answer, bad o answer → (f answer).Only P L) (hf : ∀ answer, (f answer).After bad P L) :
    ((Command.perform o : Command S σ ε (S.Answer o)) >>= f).After bad P L :=
  fun m answer ↦ ⟨fun h ↦ hbad answer h m, hf answer m⟩

theorem catching {c : Command S σ ε α} {handler : ε → Command S σ ε α} {L' : Except ε α → Prop}
    (hc : c.After bad P L') (hok : ∀ a, L' (.ok a) → L (.ok a))
    (herror : ∀ e, L' (.error e) → (handler e).Only P L) (hhandler : ∀ e, (handler e).After bad P L) :
    (c.catching handler).After bad P L := by
  intro m
  apply Prog.After.bind (hc m)
  · rintro ⟨e | a, m'⟩ h
    · exact herror e h m'
    · exact hok a h
  · rintro ⟨e | a, m'⟩
    · exact hhandler e m'
    · trivial

/-- A bad answer ends a loop with an error. -/
theorem fold {E : ε → Prop} {items : List ι}
    (hbody : ∀ acc, ∀ item ∈ items, (body acc item).After bad P fun outcome ↦ ∃ e, outcome = .error e ∧ E e) (acc : β) :
    (Command.fold body items acc).After bad P fun outcome ↦ ∃ e, outcome = .error e ∧ E e := by
  induction items generalizing acc with
  | nil => exact pure acc
  | cons item items ih =>
      rw [Command.fold]
      apply bind (hbody acc item (List.mem_cons_self ..))
      · rintro acc' ⟨_, h, _⟩
        cases h
      · rintro e ⟨e', h, hE⟩
        cases h
        exact ⟨e, rfl, hE⟩
      · exact fun acc' ↦ ih (fun acc other hother ↦ hbody acc other (List.mem_cons_of_mem _ hother)) acc'

end After

namespace Visits

theorem throw (error : ε) : (Command.throw error : Command S σ ε α).Visits V := fun _ ⟨_, h⟩ ↦ nomatch h

theorem bind_left {c : Command S σ ε β} {f : β → Command S σ ε α} (hc : c.Visits V) :
    (c >>= f).Visits V := by
  intro m
  apply Prog.Visits.bind (hc m)
  rintro ⟨e | b, m'⟩ h
  · exact fun ⟨_, herror⟩ ↦ nomatch herror
  · exact absurd ⟨b, rfl⟩ h

theorem bind_right {c : Command S σ ε β} {f : β → Command S σ ε α} (hf : ∀ b, (f b).Visits V) :
    (c >>= f).Visits V := by
  intro m
  apply Prog.Visits.bind_right
  rintro ⟨e | b, m'⟩
  · exact fun ⟨_, herror⟩ ↦ nomatch herror
  · exact hf b m'

theorem bind_only {c : Command S σ ε β} {f : β → Command S σ ε α} (hc : c.Only P L')
    (hf : ∀ b, L' (.ok b) → (f b).Visits V) : (c >>= f).Visits V := by
  intro m
  apply Prog.Visits.bind_only (hc m)
  rintro ⟨e | b, m'⟩ h
  · exact fun ⟨_, herror⟩ ↦ nomatch herror
  · exact hf b h m'

theorem perform_bind {o : S.Op} {f : S.Answer o → Command S σ ε α}
    (h : ∀ answer, V o answer ∨ (f answer).Visits V) :
    ((Command.perform o : Command S σ ε (S.Answer o)) >>= f).Visits V :=
  fun m answer ↦ (h answer).imp_right fun hf ↦ hf m

theorem catching {c : Command S σ ε α} {handler : ε → Command S σ ε α} (hc : c.Visits V)
    (hhandler : ∀ e, (handler e).Visits V) : (c.catching handler).Visits V := by
  intro m
  apply Prog.Visits.bind (hc m)
  rintro ⟨e | a, m'⟩ h
  · exact hhandler e m'
  · exact absurd ⟨a, rfl⟩ h

theorem fold {items : List ι} {item : ι} (hitem : item ∈ items) (hbody : ∀ acc, (body acc item).Visits V) (acc : β) :
    (Command.fold body items acc).Visits V := by
  induction items generalizing acc with
  | nil => cases hitem
  | cons other items ih =>
      rw [Command.fold]
      rcases List.mem_cons.mp hitem with rfl | hitem
      · exact bind_left (hbody acc)
      · exact bind_right fun acc' ↦ ih hitem acc'

end Visits

namespace Splits

theorem of_visits {c : Command S σ ε α} (hc : c.Visits V) : c.Splits V P := fun m ↦ .of_visits (hc m)

theorem of_within {c : Command S σ ε α} (hc : c.Within (.same P)) : c.Splits V P :=
  fun m ↦ .of_within (hc m)

theorem bind {c : Command S σ ε β} {f : β → Command S σ ε α} (hc : c.Within (.same P))
    (hf : ∀ b, (f b).Splits V P) : (c >>= f).Splits V P := by
  intro m
  apply Prog.Splits.bind (hc m)
  rintro ⟨e | b, m'⟩
  · trivial
  · exact hf b m'

/-- The value of a command is handed on. -/
theorem map {c : Command S σ ε β} (hc : c.Splits V P) (g : β → α) :
    (c >>= fun b ↦ (Pure.pure (g b) : Command S σ ε α)).Splits V P := by
  intro m
  apply Prog.Splits.bind_within (hc m)
  rintro ⟨e | b, m'⟩
  · exact fun ⟨_, herror⟩ ↦ nomatch herror
  · exact fun _ ↦ ⟨b, rfl⟩

theorem ite {c d : Command S σ ε α} {p : Prop} [Decidable p] (hc : c.Splits V P) (hd : d.Splits V P) :
    (if p then c else d).Splits V P := by
  by_cases hp : p
  · rwa [if_pos hp]
  · rwa [if_neg hp]

end Splits

end Command

/-! ## Sequences that have come to their end -/

namespace Command

variable {E : M.World → M.World → Prop} {w w' : M.World} {events : List (Event M)} {m n : σ}
variable {c : Command S σ ε α} {f : α → Command S σ ε β}

/-- Either the first command raised, and that was all, or the second one followed it. -/
theorem run_bind_cases {outcome : Except ε β}
    (hrun : Run M E ((c >>= f) m) w events (.pure (outcome, n)) w') :
    (∃ error, outcome = .error error ∧ Run M E (c m) w events (.pure (.error error, n)) w') ∨
      ∃ a m' u first rest, events = first ++ rest ∧ Run M E (c m) w first (.pure (.ok a, m')) u ∧
        Run M E (f a m') u rest (.pure (outcome, n)) w' := by
  obtain ⟨⟨result, m'⟩, u, first, rest, hsplit, hfirst, hrest⟩ := Run.bind_pure_cases hrun
  cases result with
  | ok a => exact .inr ⟨a, m', u, first, rest, hsplit, hfirst, hrest⟩
  | error error =>
      obtain ⟨hreturned, hbeside⟩ := hrest.pure_cases (.pure (.error error, m') : Prog S (Except ε α × σ))
      cases hreturned
      exact .inl ⟨error, rfl, hsplit ▸ hfirst.trans hbeside⟩

theorem run_bind_of_error {error : ε} (hrun : Run M E (c m) w events (.pure (.error error, n)) w') :
    Run M E ((c >>= f) m) w events (.pure (.error error, n)) w' := by
  have hbind : Run M E ((c >>= f) m) w (events ++ []) (.pure (.error error, n)) w' := hrun.bind (.refl _ w')
  rwa [List.append_nil] at hbind

end Command

end WorkStack.Effect
