import Mathlib

/-!
# Receipts that are kept for a while

A log holds at most one entry for a key, and keeps it so when it drops the entries whose time is over and
takes a new one.
-/

namespace WorkStack.Effect.Receipts

variable {ρ κ : Type} [DecidableEq κ] {key : ρ → κ} {entries : List ρ} {entry : ρ}

/-- The entry that a key leads to is the one that has it. -/
theorem find_of_mem (hnodup : (entries.map key).Nodup) (hmem : entry ∈ entries) :
    (entries.find? fun other ↦ key other == key entry) = some entry := by
  cases hfind : entries.find? fun other ↦ key other == key entry with
  | none =>
      have hnot := List.find?_eq_none.mp hfind entry hmem
      simp at hnot
  | some found =>
      have hkey : key found = key entry := by
        have h := List.find?_some hfind
        simpa using h
      rw [List.inj_on_of_nodup_map hnodup (List.mem_of_find?_eq_some hfind) hmem hkey]

omit [DecidableEq κ] in
/-- The keys of what is left are still distinct, and so they are with a new one. -/
theorem nodup_filter_append (alive : ρ → Bool) (hnodup : (entries.map key).Nodup)
    (hnew : key entry ∉ (entries.filter alive).map key) : ((entries.filter alive ++ [entry]).map key).Nodup := by
  rw [List.map_append, List.map_singleton]
  apply List.Nodup.append
  · exact hnodup.sublist (List.filter_sublist.map key)
  · exact List.nodup_singleton _
  · simpa using hnew

end WorkStack.Effect.Receipts
