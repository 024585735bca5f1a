import Mathlib

/-!
# Code units

A text in UTF-16: a character of the basic plane is one unit, and any other one is a pair of surrogates. Texts are
compared unit by unit, and texts of the basic plane compare as by their characters.
-/

namespace WorkStack.Text.CodeUnits

/-- The units of a character. -/
def unitsOf (c : Char) : List ℕ :=
  if c.toNat < 0x10000 then [c.toNat]
  else [0xd800 + (c.toNat - 0x10000) / 0x400, 0xdc00 + (c.toNat - 0x10000) % 0x400]

def utf16 (text : String) : List ℕ := text.toList.flatMap unitsOf

/-- `left < right`, as texts. -/
def isBefore (left right : String) : Bool := decide (utf16 left < utf16 right)

/-- A text of the basic plane. -/
def IsBasic (text : String) : Prop := ∀ c ∈ text.toList, c.toNat < 0x10000

theorem utf16_of_isBasic {text : String} (h : IsBasic text) : utf16 text = text.toList.map Char.toNat := by
  rw [utf16, List.map_eq_flatMap]
  apply List.flatMap_congr
  intro c hc
  rw [unitsOf, if_pos (h c hc)]

theorem map_toNat_lt_map_toNat (left right : List Char) :
    left.map Char.toNat < right.map Char.toNat ↔ left < right := by
  induction left generalizing right with
  | nil => cases right <;> simp
  | cons c left ih =>
      cases right with
      | nil => simp
      | cons c' right =>
          rw [List.map_cons, List.map_cons, List.cons_lt_cons_iff, List.cons_lt_cons_iff, ih]
          have hlt : c.toNat < c'.toNat ↔ c < c' := Iff.rfl
          have heq : c.toNat = c'.toNat ↔ c = c' := Char.toNat_inj
          rw [hlt, heq]

/-- Texts of the basic plane compare as by their characters. -/
theorem isBefore_iff {left right : String} (hleft : IsBasic left) (hright : IsBasic right) :
    isBefore left right = true ↔ left < right := by
  rw [isBefore, decide_eq_true_iff, utf16_of_isBasic hleft, utf16_of_isBasic hright, map_toNat_lt_map_toNat]
  rfl

end WorkStack.Text.CodeUnits
