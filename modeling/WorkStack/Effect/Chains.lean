import Mathlib

/-!
# Sealed logs and threads

Two orders run through a log. In the one every entry is sealed after the digest of the entry before
it; in the other the entries of one subject form a thread, in which every entry is linked to the last
one of its subject. Sealing a log again restores the first, whatever was left out before; the second
survives when all entries of some subjects are left out and the rest are linked again. Either order
settles what it adds to the entries.
-/

namespace WorkStack.Effect

/-! ## Lists in step -/

section InStep

variable {α β γ κ : Type}

theorem forall₂_trans {P : α → β → Prop} {Q : β → γ → Prop} {S : α → γ → Prop}
    (hcomp : ∀ a b c, P a b → Q b c → S a c) {as : List α} {bs : List β} {cs : List γ}
    (hP : List.Forall₂ P as bs) (hQ : List.Forall₂ Q bs cs) : List.Forall₂ S as cs := by
  induction hP generalizing cs with
  | nil =>
      cases hQ
      exact List.Forall₂.nil
  | cons hab _ ih =>
      cases hQ with
      | cons hbc hrest => exact List.Forall₂.cons (hcomp _ _ _ hab hbc) (ih hrest)

theorem exists_of_forall₂_right {P : α → β → Prop} {as : List α} {bs : List β} (h : List.Forall₂ P as bs) {b : β}
    (hb : b ∈ bs) : ∃ a ∈ as, P a b := by
  induction h with
  | nil => cases hb
  | cons hab _ ih =>
      rcases List.mem_cons.mp hb with rfl | hrest
      · exact ⟨_, List.mem_cons_self .., hab⟩
      · obtain ⟨a, ha, hP⟩ := ih hrest
        exact ⟨a, List.mem_cons_of_mem _ ha, hP⟩

theorem map_eq_of_forall₂ {P : α → β → Prop} {f : α → κ} {g : β → κ} (hfg : ∀ a b, P a b → f a = g b) {as : List α}
    {bs : List β} (h : List.Forall₂ P as bs) : as.map f = bs.map g := by
  rw [← List.forall₂_eq_eq_eq, List.forall₂_map_left_iff, List.forall₂_map_right_iff]
  exact h.imp hfg

end InStep

/-! ## Sealed logs -/

/-- Where an entry may stand, and what it hands on to the next one. -/
structure Sealing (E D : Type) where
  Sealed : ℕ → Option D → E → Prop
  digest : E → Option D

namespace Sealing

variable {E D ε : Type} (S : Sealing E D)

/-- The entries are sealed one after the other, from a position and a digest on. -/
def Chained : ℕ → Option D → List E → Prop
  | _, _, [] => True
  | n, previous, entry :: entries => S.Sealed n previous entry ∧ Chained (n + 1) (S.digest entry) entries

/-- The digest that a log hands on to what comes after it. -/
def handedOn : Option D → List E → Option D
  | previous, [] => previous
  | _, entry :: entries => handedOn (S.digest entry) entries

/-- A log is sealed through when both of its parts are, the second after the first. -/
theorem chained_append (n : ℕ) (previous : Option D) (entries others : List E) :
    S.Chained n previous (entries ++ others) ↔
      S.Chained n previous entries ∧ S.Chained (n + entries.length) (S.handedOn previous entries) others := by
  induction entries generalizing n previous with
  | nil => simp [Chained, handedOn]
  | cons entry entries ih =>
      rw [List.cons_append, Chained, Chained, ih, handedOn, List.length_cons, and_assoc, Nat.add_right_comm,
        Nat.add_assoc]

theorem handedOn_of_ne_nil (previous : Option D) {entries : List E} (h : entries ≠ []) :
    S.handedOn previous entries = entries.getLast?.bind S.digest := by
  induction entries generalizing previous with
  | nil => contradiction
  | cons entry entries ih =>
      cases entries with
      | nil => rfl
      | cons other others =>
          rw [handedOn, ih _ (by simp), List.getLast?_cons_cons]

/-- Seal the entries one after the other. -/
def sealAll (reseal : ℕ → Option D → E → Except ε E) : ℕ → Option D → List E → Except ε (List E)
  | _, _, [] => .ok []
  | n, previous, entry :: entries => do
      let done ← reseal n previous entry
      let rest ← sealAll reseal (n + 1) (S.digest done) entries
      return done :: rest

variable {S} {reseal : ℕ → Option D → E → Except ε E}

theorem sealAll_cons {n : ℕ} {previous : Option D} {entry done : E} {entries rest : List E}
    (hentry : reseal n previous entry = .ok done)
    (hrest : S.sealAll reseal (n + 1) (S.digest done) entries = .ok rest) :
    S.sealAll reseal n previous (entry :: entries) = .ok (done :: rest) := by
  rw [sealAll, hentry]
  change (S.sealAll reseal (n + 1) (S.digest done) entries >>= _) = _
  rw [hrest]
  rfl

/-- A log is sealed again when every entry can be, where it comes to stand and after any digest that
may come before it there. -/
theorem sealAll_ok (Good : ℕ → Option D → Prop) {Same : E → E → Prop} {n : ℕ} {previous : Option D}
    {entries : List E} (hprevious : Good n previous)
    (hseal : ∀ i entry digest, entries[i]? = some entry → Good (n + i) digest →
      ∃ done, reseal (n + i) digest entry = .ok done ∧ S.Sealed (n + i) digest done ∧
        Good (n + i + 1) (S.digest done) ∧ Same entry done) :
    ∃ done, S.sealAll reseal n previous entries = .ok done ∧ S.Chained n previous done ∧
      List.Forall₂ Same entries done := by
  induction entries generalizing n previous with
  | nil => exact ⟨[], rfl, trivial, List.Forall₂.nil⟩
  | cons entry entries ih =>
      obtain ⟨done, hdone, hsealed, hgood, hsame⟩ := hseal 0 entry previous rfl hprevious
      obtain ⟨rest, hrest, hchained, hrel⟩ := ih hgood fun i other digest hother hdigest ↦ by
        have hshift : n + 1 + i = n + (i + 1) := by omega
        rw [Nat.add_zero, hshift] at hdigest ⊢
        exact hseal (i + 1) other digest hother hdigest
      exact ⟨done :: rest, sealAll_cons hdone hrest, ⟨hsealed, hchained⟩, List.Forall₂.cons hsame hrel⟩

/-- The seals of a log are settled by what its entries are without them. -/
theorem Chained.unique {Same Equal : E → E → Prop} {n : ℕ} {previous : Option D} {entries others : List E}
    (hentries : S.Chained n previous entries) (hothers : S.Chained n previous others)
    (hrel : List.Forall₂ Same entries others)
    (hstep : ∀ k digest entry other, Same entry other → S.Sealed k digest entry → S.Sealed k digest other →
      Equal entry other ∧ S.digest entry = S.digest other) : List.Forall₂ Equal entries others := by
  induction hrel generalizing n previous with
  | nil => exact List.Forall₂.nil
  | cons hsame _ ih =>
      obtain ⟨hequal, hdigest⟩ := hstep _ _ _ _ hsame hentries.1 hothers.1
      exact List.Forall₂.cons hequal (ih hentries.2 (hdigest ▸ hothers.2))

end Sealing

/-! ## Threads -/

/-- Which subject an entry belongs to, if any, and how the entry with a number is linked to the last
one of its subject. -/
structure Threads (E K : Type) where
  subject : E → Option K
  Link : ℕ → Option E → E → Prop

namespace Threads

variable {E K ε : Type} [DecidableEq K] (T : Threads E K)

/-- The entries of every subject are linked, and numbered across all subjects. -/
def Threaded : ℕ → (K → Option E) → List E → Prop
  | _, _, [] => True
  | n, heads, entry :: entries =>
      match T.subject entry with
      | none => Threaded n heads entries
      | some subject => T.Link n (heads subject) entry ∧
          Threaded (n + 1) (Function.update heads subject (some entry)) entries

/-- Link and number the entries again. -/
def relinkAll (relink : ℕ → Option E → E → Except ε E) : ℕ → (K → Option E) → List E → Except ε (List E)
  | _, _, [] => .ok []
  | n, heads, entry :: entries =>
      match T.subject entry with
      | none => (relinkAll relink n heads entries).map (entry :: ·)
      | some subject => do
          let done ← relink n (heads subject) entry
          let rest ← relinkAll relink (n + 1) (Function.update heads subject (some done)) entries
          return done :: rest

variable {T} {relink : ℕ → Option E → E → Except ε E} {heads heads' : K → Option E}

theorem threaded_cons_of_none {n : ℕ} {entry : E} {entries : List E} (h : T.subject entry = none) :
    T.Threaded n heads (entry :: entries) ↔ T.Threaded n heads entries := by
  rw [Threaded, h]

theorem threaded_cons_of_some {n : ℕ} {entry : E} {entries : List E} {subject : K}
    (h : T.subject entry = some subject) :
    T.Threaded n heads (entry :: entries) ↔ T.Link n (heads subject) entry ∧
      T.Threaded (n + 1) (Function.update heads subject (some entry)) entries := by
  rw [Threaded, h]

theorem relinkAll_cons_of_none {n : ℕ} {entry : E} {entries rest : List E} (h : T.subject entry = none)
    (hrest : T.relinkAll relink n heads entries = .ok rest) :
    T.relinkAll relink n heads (entry :: entries) = .ok (entry :: rest) := by
  rw [relinkAll, h, hrest]
  rfl

theorem relinkAll_cons_of_some {n : ℕ} {entry done : E} {entries rest : List E} {subject : K}
    (h : T.subject entry = some subject) (hentry : relink n (heads subject) entry = .ok done)
    (hrest : T.relinkAll relink (n + 1) (Function.update heads subject (some done)) entries = .ok rest) :
    T.relinkAll relink n heads (entry :: entries) = .ok (done :: rest) := by
  rw [relinkAll, h]
  change (relink n (heads subject) entry >>= _) = _
  rw [hentry]
  change (T.relinkAll relink (n + 1) (Function.update heads subject (some done)) entries >>= _) = _
  rw [hrest]
  rfl

theorem rel_update {Same : E → E → Prop} (keep : K → Bool)
    (hheads : ∀ subject, keep subject → Option.Rel Same (heads subject) (heads' subject)) (subject : K)
    {entry entry' : E} (hsame : Same entry entry') :
    ∀ other, keep other → Option.Rel Same (Function.update heads subject (some entry) other)
      (Function.update heads' subject (some entry') other) := by
  intro other hother
  by_cases h : other = subject
  · subst h
    rw [Function.update_self, Function.update_self]
    exact Option.Rel.some hsame
  · rw [Function.update_of_ne h, Function.update_of_ne h]
    exact hheads other hother

/-- When all entries of some subjects are left out, the rest can be linked again. -/
theorem relinkAll_ok {Same : E → E → Prop} {keep : K → Bool} {kept : E → Bool} {i j : ℕ} {entries : List E}
    (hthreaded : T.Threaded i heads entries) (hij : j ≤ i)
    (hheads : ∀ subject, keep subject → Option.Rel Same (heads subject) (heads' subject))
    (hkept : ∀ entry ∈ entries, ∀ subject, T.subject entry = some subject → kept entry = keep subject)
    (hself : ∀ entry ∈ entries, T.subject entry = none → Same entry entry)
    (hsubject : ∀ entry done, Same entry done → T.subject done = T.subject entry)
    (hlink : ∀ m n prior prior' entry, n ≤ m → entry ∈ entries → (T.subject entry).isSome →
      Option.Rel Same prior prior' → T.Link m prior entry →
      ∃ done, relink n prior' entry = .ok done ∧ T.Link n prior' done ∧ Same entry done) :
    ∃ done, T.relinkAll relink j heads' (entries.filter kept) = .ok done ∧ T.Threaded j heads' done ∧
      List.Forall₂ Same (entries.filter kept) done := by
  induction entries generalizing i j heads heads' with
  | nil => exact ⟨[], rfl, trivial, List.Forall₂.nil⟩
  | cons entry entries ih =>
      have hmem : ∀ {other}, other ∈ entries → other ∈ entry :: entries := List.mem_cons_of_mem _
      have hkept' := fun other h ↦ hkept other (hmem h)
      have hself' := fun other h ↦ hself other (hmem h)
      have hlink' := fun m n prior prior' other hnm h ↦ hlink m n prior prior' other hnm (hmem h)
      cases hsub : T.subject entry with
      | none =>
          rw [threaded_cons_of_none hsub] at hthreaded
          obtain ⟨rest, hrest, hthread, hrel⟩ := ih hthreaded hij hheads hkept' hself' hlink'
          by_cases hkeep : kept entry
          · rw [List.filter_cons_of_pos hkeep]
            refine ⟨entry :: rest, relinkAll_cons_of_none hsub hrest, ?_, ?_⟩
            · rw [threaded_cons_of_none hsub]
              exact hthread
            · exact List.Forall₂.cons (hself entry (List.mem_cons_self ..) hsub) hrel
          · rw [List.filter_cons_of_neg hkeep]
            exact ⟨rest, hrest, hthread, hrel⟩
      | some subject =>
          rw [threaded_cons_of_some hsub] at hthreaded
          have hsame := hkept entry (List.mem_cons_self ..) subject hsub
          by_cases hkeep : kept entry
          · have hprior := hheads subject (hsame ▸ hkeep)
            obtain ⟨done, hdone, hlinked, hrelated⟩ := hlink i j _ _ entry hij (List.mem_cons_self ..)
              (by rw [hsub]; rfl) hprior hthreaded.1
            obtain ⟨rest, hrest, hthread, hrel⟩ :=
              ih hthreaded.2 (Nat.succ_le_succ hij) (rel_update keep hheads subject hrelated) hkept' hself' hlink'
            rw [List.filter_cons_of_pos hkeep]
            refine ⟨done :: rest, relinkAll_cons_of_some hsub hdone hrest, ?_, List.Forall₂.cons hrelated hrel⟩
            rw [threaded_cons_of_some ((hsubject entry done hrelated).trans hsub)]
            exact ⟨hlinked, hthread⟩
          · have hother : ∀ other, keep other →
                Option.Rel Same (Function.update heads subject (some entry) other) (heads' other) := by
              intro other hkept
              have hne : other ≠ subject := by
                rintro rfl
                exact hkeep (hsame.trans hkept)
              rw [Function.update_of_ne hne]
              exact hheads other hkept
            obtain ⟨rest, hrest, hthread, hrel⟩ :=
              ih hthreaded.2 (Nat.le_succ_of_le hij) hother hkept' hself' hlink'
            rw [List.filter_cons_of_neg hkeep]
            exact ⟨rest, hrest, hthread, hrel⟩

/-- Entries that are the same for their subjects and links are threaded alike. -/
theorem Threaded.of_forall₂ {Same : E → E → Prop} {n : ℕ} {entries others : List E}
    (h : T.Threaded n heads entries) (hheads : ∀ subject, Option.Rel Same (heads subject) (heads' subject))
    (hrel : List.Forall₂ Same entries others)
    (hsubject : ∀ entry other, Same entry other → T.subject other = T.subject entry)
    (hlink : ∀ k prior prior' entry other, Same entry other → Option.Rel Same prior prior' →
      T.Link k prior entry → T.Link k prior' other) : T.Threaded n heads' others := by
  induction hrel generalizing n heads heads' with
  | nil => trivial
  | @cons entry other _ _ hsame _ ih =>
      have hother := hsubject entry other hsame
      cases hsub : T.subject entry with
      | none =>
          rw [threaded_cons_of_none hsub] at h
          rw [threaded_cons_of_none (hother.trans hsub)]
          exact ih h hheads
      | some subject =>
          rw [threaded_cons_of_some hsub] at h
          rw [threaded_cons_of_some (hother.trans hsub)]
          refine ⟨hlink n _ _ entry other hsame (hheads subject) h.1, ih h.2 ?_⟩
          exact fun k ↦ rel_update (fun _ ↦ true) (fun k _ ↦ hheads k) subject hsame k rfl

/-- The links of a log are settled by what its entries are without them. -/
theorem Threaded.unique {Same Equal : E → E → Prop} {n : ℕ} {entries others : List E}
    (hentries : T.Threaded n heads entries) (hothers : T.Threaded n heads' others)
    (hheads : ∀ subject, Option.Rel Equal (heads subject) (heads' subject))
    (hrel : List.Forall₂ Same entries others)
    (hsubject : ∀ entry other, Same entry other → T.subject other = T.subject entry)
    (hself : ∀ entry other, Same entry other → T.subject entry = none → Equal entry other)
    (hlink : ∀ k prior prior' entry other, Same entry other → (T.subject entry).isSome →
      Option.Rel Equal prior prior' → T.Link k prior entry → T.Link k prior' other → Equal entry other) :
    List.Forall₂ Equal entries others := by
  induction hrel generalizing n heads heads' with
  | nil => exact List.Forall₂.nil
  | @cons entry other _ _ hsame _ ih =>
      have hother := hsubject entry other hsame
      cases hsub : T.subject entry with
      | none =>
          rw [threaded_cons_of_none hsub] at hentries
          rw [threaded_cons_of_none (hother.trans hsub)] at hothers
          exact List.Forall₂.cons (hself entry other hsame hsub) (ih hentries hothers hheads)
      | some subject =>
          rw [threaded_cons_of_some hsub] at hentries
          rw [threaded_cons_of_some (hother.trans hsub)] at hothers
          have hequal := hlink n _ _ entry other hsame (by rw [hsub]; rfl) (hheads subject) hentries.1 hothers.1
          refine List.Forall₂.cons hequal (ih hentries.2 hothers.2 ?_)
          exact fun k ↦ rel_update (fun _ ↦ true) (fun k _ ↦ hheads k) subject hequal k rfl

end Threads

end WorkStack.Effect
