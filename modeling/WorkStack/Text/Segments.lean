import Mathlib

/-!
# Keys of escaped segments

Segments are joined by a separator. A sign stands before every separator and every sign that belongs to a segment, so
the separators that are left bare are those between the segments, and a key tells its segments.
-/

namespace WorkStack.Text.Segments

variable {α : Type} [DecidableEq α] {sign separator : α}

/-- A segment with a sign before its signs and its separators. -/
def escape (sign separator : α) (text : List α) : List α :=
  text.flatMap fun c ↦ if c = sign ∨ c = separator then [sign, c] else [c]

def join (sign separator : α) (segments : List (List α)) : List α :=
  [separator].intercalate (segments.map (escape sign separator))

/-- What may stand behind an escaped segment. -/
def Bounded (separator : α) (rest : List α) : Prop := rest = [] ∨ ∃ more, rest = separator :: more

theorem escape_cons (c : α) (text : List α) : escape sign separator (c :: text) =
    (if c = sign ∨ c = separator then [sign, c] else [c]) ++ escape sign separator text :=
  List.flatMap_cons

/-- An escaped segment ends where it is bounded. -/
theorem escape_append_inj (hne : sign ≠ separator) {text text' rest rest' : List α} (hrest : Bounded separator rest)
    (hrest' : Bounded separator rest') (h : escape sign separator text ++ rest = escape sign separator text' ++ rest') :
    text = text' ∧ rest = rest' := by
  have hstart : ∀ (c : α) (text tail rest : List α), Bounded separator rest →
      rest ≠ escape sign separator (c :: text) ++ tail := by
    rintro c text tail rest (rfl | ⟨more, rfl⟩) h
    · rw [escape_cons] at h
      split at h <;> cases h
    · rw [escape_cons] at h
      split at h
      · exact hne (List.cons.inj h).1.symm
      · rename_i hplain
        exact hplain (.inr (List.cons.inj h).1.symm)
  induction text generalizing text' with
  | nil =>
      cases text' with
      | nil => exact ⟨rfl, h⟩
      | cons c' text' => exact absurd h (hstart c' text' rest' rest hrest)
  | cons c text ih =>
      cases text' with
      | nil => exact absurd h.symm (hstart c text rest rest' hrest')
      | cons c' text' =>
          rw [escape_cons, escape_cons] at h
          by_cases hc : c = sign ∨ c = separator
          · rw [if_pos hc] at h
            by_cases hc' : c' = sign ∨ c' = separator
            · rw [if_pos hc'] at h
              simp only [List.cons_append, List.nil_append, List.cons.injEq, true_and] at h
              obtain ⟨rfl, h⟩ := h
              obtain ⟨rfl, hrests⟩ := ih h
              exact ⟨rfl, hrests⟩
            · rw [if_neg hc'] at h
              exact absurd (.inl (List.cons.inj h).1.symm) hc'
          · rw [if_neg hc] at h
            by_cases hc' : c' = sign ∨ c' = separator
            · rw [if_pos hc'] at h
              exact absurd (.inl (List.cons.inj h).1) hc
            · rw [if_neg hc'] at h
              simp only [List.cons_append, List.nil_append, List.cons.injEq] at h
              obtain ⟨rfl, h⟩ := h
              obtain ⟨rfl, hrests⟩ := ih h
              exact ⟨rfl, hrests⟩

theorem join_cons (segment : List α) (segments : List (List α)) : ∃ rest,
    join sign separator (segment :: segments) = escape sign separator segment ++ rest ∧ Bounded separator rest ∧
      (segments = [] ↔ rest = []) ∧ (segments ≠ [] → rest = separator :: join sign separator segments) := by
  cases segments with
  | nil =>
      refine ⟨[], ?_, .inl rfl, by simp, by simp⟩
      simp [join, List.intercalate]
  | cons next segments =>
      refine ⟨separator :: join sign separator (next :: segments), ?_, .inr ⟨_, rfl⟩, by simp, fun _ ↦ rfl⟩
      rw [join, List.map_cons, List.map_cons, List.intercalate_cons_cons, join, List.map_cons]
      simp

/-- A key of so many segments tells them. -/
theorem join_inj (hne : sign ≠ separator) {segments segments' : List (List α)}
    (hlength : segments.length = segments'.length) (h : join sign separator segments = join sign separator segments') :
    segments = segments' := by
  induction segments generalizing segments' with
  | nil => exact (List.length_eq_zero_iff.mp hlength.symm).symm
  | cons segment segments ih =>
      cases segments' with
      | nil => cases hlength
      | cons segment' segments' =>
          obtain ⟨rest, hjoin, hrest, hnil, hcons⟩ := @join_cons _ _ sign separator segment segments
          obtain ⟨rest', hjoin', hrest', hnil', hcons'⟩ := @join_cons _ _ sign separator segment' segments'
          rw [hjoin, hjoin'] at h
          obtain ⟨rfl, rfl⟩ := escape_append_inj hne hrest hrest' h
          have hlengths : segments.length = segments'.length := Nat.succ.inj hlength
          by_cases hempty : segments = []
          · have hempty' : segments' = [] := hnil'.mpr (hnil.mp hempty)
            rw [hempty, hempty']
          · have hempty' : segments' ≠ [] := fun h ↦ hempty (hnil.mpr (hnil'.mp h))
            have hsame : separator :: join sign separator segments = separator :: join sign separator segments' :=
              (hcons hempty).symm.trans (hcons' hempty')
            rw [ih hlengths (List.cons.inj hsame).2]

end WorkStack.Text.Segments
