import Mathlib

/-!
# Evicting the oldest

A list may grow too large for its bounds. Then the oldest of its items go, one at a time, except for one item that
is kept. What is left fits, and what has gone is older than what is left of the others.
-/

namespace WorkStack.Effect.Eviction

variable {α κ : Type} [DecidableEq α] [LinearOrder κ] (fits : List α → Bool) (age : α → κ) (retained : α)

/-- The others that are left with the retained item behind them, or nothing if even it does not fit. -/
def evict (others : List α) : Option (List α) :=
  if fits (others ++ [retained]) then some (others ++ [retained])
  else
    match _h : others.argmin age with
    | none => none
    | some victim => evict (others.erase victim)
termination_by others.length
decreasing_by
  have hmem : victim ∈ others := List.argmin_mem _h
  have hpos := List.length_pos_of_mem hmem
  rw [List.length_erase_of_mem hmem]
  omega

variable {fits age retained}

/-- One step: the list fits, or the oldest of the others goes. -/
theorem evict_step {others rows : List α} (h : evict fits age retained others = some rows) :
    (fits (others ++ [retained]) = true ∧ rows = others ++ [retained]) ∨
      ∃ victim ∈ others, (∀ item ∈ others, age victim ≤ age item) ∧
        evict fits age retained (others.erase victim) = some rows := by
  rw [evict] at h
  split at h
  · next hfits => exact .inl ⟨hfits, (Option.some.inj h).symm⟩
  · split at h
    · cases h
    · next victim hvictim =>
      exact .inr ⟨victim, List.argmin_mem hvictim, fun item hitem ↦ List.le_of_mem_argmin hitem hvictim, h⟩

/-- What is left fits, and the others that have gone are not newer than those that are left. -/
theorem evict_eq_some {others rows : List α} (h : evict fits age retained others = some rows) :
    ∃ kept, rows = kept ++ [retained] ∧ kept.Sublist others ∧ fits rows = true ∧
      ∀ item ∈ others, item ∉ kept → ∀ other ∈ kept, age item ≤ age other := by
  induction hlength : others.length using Nat.strongRecOn generalizing others with
  | ind length ih =>
      rcases evict_step h with ⟨hfits, rfl⟩ | ⟨victim, hmem, holdest, hrest⟩
      · refine ⟨others, rfl, List.Sublist.refl _, hfits, ?_⟩
        intro item hitem hgone
        exact absurd hitem hgone
      · have hpos := List.length_pos_of_mem hmem
        have hless : (others.erase victim).length < length := by
          rw [List.length_erase_of_mem hmem]
          omega
        obtain ⟨kept, hrows, hsublist, hfits, hgone⟩ := ih _ hless hrest rfl
        refine ⟨kept, hrows, hsublist.trans List.erase_sublist, hfits, ?_⟩
        intro item hitem hnot other hother
        by_cases hvictim : item = victim
        · rw [hvictim]
          exact holdest other (List.mem_of_mem_erase (hsublist.mem hother))
        · exact hgone item ((List.mem_erase_of_ne hvictim).mpr hitem) hnot other hother

/-- Where the retained item fits by itself, something is left. -/
theorem exists_evict (others : List α) (h : fits [retained] = true) :
    ∃ rows, evict fits age retained others = some rows := by
  induction hlength : others.length using Nat.strongRecOn generalizing others with
  | ind length ih =>
      rw [evict]
      split
      · exact ⟨_, rfl⟩
      · next hfits =>
        split
        · next hnone =>
          rw [List.argmin_eq_none.mp hnone, List.nil_append] at hfits
          exact absurd h hfits
        · next victim hvictim =>
          have hmem : victim ∈ others := List.argmin_mem hvictim
          have hpos := List.length_pos_of_mem hmem
          refine ih _ ?_ _ rfl
          rw [List.length_erase_of_mem hmem]
          omega

end WorkStack.Effect.Eviction
