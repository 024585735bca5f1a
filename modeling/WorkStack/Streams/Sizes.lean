import Mathlib
import WorkStack.Python.Decimal
import WorkStack.Streams.Canonical

/-!
# Lengths of canonical bytes

The length of an object in canonical JSON is a sum over its keys, so an object whose values are not
longer, key by key, is not longer either.
-/

open WorkStack.Python

namespace WorkStack

namespace Json

/-- The bytes that a value takes. -/
def size (value : Json) : ℕ := (utf8 (compactText value)).length

theorem utf8_append (text rest : List Char) : utf8 (text ++ rest) = utf8 text ++ utf8 rest :=
  List.flatMap_append

theorem utf8_cons (c : Char) (text : List Char) : utf8 (c :: text) = String.utf8EncodeChar c ++ utf8 text :=
  List.flatMap_cons

/-- A character that is written as one byte, itself. -/
def IsPlain (c : Char) : Prop := 32 ≤ c.toNat ∧ c.toNat < 127 ∧ c ≠ '"' ∧ c ≠ '\\'

instance (c : Char) : Decidable (IsPlain c) := inferInstanceAs (Decidable (_ ∧ _))

theorem length_utf8_of_plain {text : List Char} (h : ∀ c ∈ text, IsPlain c) : (utf8 text).length = text.length := by
  induction text with
  | nil => rfl
  | cons c text ih =>
      obtain ⟨hc, htext⟩ := List.forall_mem_cons.mp h
      have hsize : c.utf8Size = 1 := Char.utf8Size_eq_one_iff.mpr (by
        have hlt : c.toNat < 127 := hc.2.1
        rw [UInt32.le_iff_toNat_le]
        change c.toNat ≤ 127
        omega)
      rw [utf8_cons, List.length_append, String.length_utf8EncodeChar, ih htext, hsize, List.length_cons, add_comm]

theorem escapeChar_of_plain {c : Char} (h : IsPlain c) : escapeChar c = [c] := by
  obtain ⟨hlow, hhigh, hquote, hslash⟩ := h
  have hne : ∀ d : Char, d.toNat < 32 → c ≠ d := by
    rintro d hd rfl
    omega
  unfold escapeChar
  rw [if_neg hquote, if_neg hslash, if_neg (hne _ (by decide)), if_neg (hne _ (by decide)), if_neg (hne _ (by decide)),
    if_neg (by omega), if_neg (by omega), if_neg (by omega)]

theorem flatMap_escapeChar_of_plain {text : List Char} (h : ∀ c ∈ text, IsPlain c) : text.flatMap escapeChar = text := by
  rw [List.flatMap_congr fun c hc ↦ escapeChar_of_plain (h c hc), List.flatMap_singleton']

/-- A text of plain characters takes a byte for each and two for the quotes. -/
theorem size_str_of_plain {text : String} (h : ∀ c ∈ text.toList, IsPlain c) :
    (Json.str text).size = text.length + 2 := by
  have htext : compactText (.str text) = quoted text := by simp [compactText, leaf]
  rw [size, htext, quoted, flatMap_escapeChar_of_plain h, utf8_append, utf8_cons, List.length_append, List.length_append,
    length_utf8_of_plain h, String.length_toList]
  have hquote : (String.utf8EncodeChar '"').length = 1 ∧ (utf8 ['"']).length = 1 := by decide
  rw [hquote.1, hquote.2]
  omega

theorem isPlain_of_isDigit {c : Char} (h : c.isDigit) : IsPlain c := by
  have hc : 48 ≤ c.toNat ∧ c.toNat ≤ 57 := by
    simp only [Char.isDigit, Bool.and_eq_true, decide_eq_true_eq, ge_iff_le, UInt32.le_iff_toNat_le] at h
    exact h
  have hne : ∀ d : Char, d.toNat < 48 ∨ 57 < d.toNat → c ≠ d := by
    rintro d hd rfl
    omega
  exact ⟨by omega, by omega, hne _ (by decide), hne _ (by decide)⟩

/-- A smaller number is not longer. -/
theorem size_int_mono {m n : ℕ} (h : m ≤ n) : (Json.int m).size ≤ (Json.int n).size := by
  have hsize : ∀ k : ℕ, (Json.int k).size = (Nat.toDigits 10 k).length := by
    intro k
    have htext : compactText (.int k) = Nat.toDigits 10 k := by
      have hleaf : compactText (.int k) = (toString (k : ℤ)).toList := by simp [compactText, leaf]
      rw [hleaf]
      exact Nat.toList_repr
    rw [size, htext, length_utf8_of_plain]
    exact fun c hc ↦ isPlain_of_isDigit (Nat.isDigit_of_mem_toDigits (by omega) (by omega) hc)
  rw [hsize, hsize]
  exact length_toDigits_mono h

theorem length_joined (parts : List (List Char)) :
    (utf8 (joined [','] parts)).length = (parts.map fun part ↦ (utf8 part).length + 1).sum - 1 := by
  unfold joined
  induction parts with
  | nil => rfl
  | cons part parts ih =>
      cases parts with
      | nil => simp
      | cons next parts =>
          have hcomma : (utf8 [',']).length = 1 := by decide
          rw [List.intercalate_cons_cons, utf8_append, utf8_append, List.length_append, List.length_append, ih, hcomma]
          simp only [List.map_cons, List.sum_cons]
          omega

theorem compactItems_eq_map (items : List Json) : compactItems items = items.map compactText := by
  induction items with
  | nil => rfl
  | cons item items ih => rw [compactItems, ih, List.map_cons]

theorem size_arr (items : List Json) :
    (Json.arr items).size = 2 + ((items.map fun item ↦ item.size + 1).sum - 1) := by
  have hbrackets : (String.utf8EncodeChar '[').length = 1 ∧ (utf8 [']']).length = 1 := by decide
  rw [size, compactText, utf8_append, utf8_cons, List.length_append, List.length_append, length_joined,
    compactItems_eq_map, List.map_map, hbrackets.1, hbrackets.2]
  change 1 + ((items.map fun item ↦ item.size + 1).sum - 1) + 1 = _
  omega

/-- The size of a list does not depend on the order of its items. -/
theorem size_arr_perm {items others : List Json} (h : items.Perm others) :
    (Json.arr items).size = (Json.arr others).size := by
  rw [size_arr, size_arr, (h.map _).sum_eq]

/-- What one field of an object takes, with what separates it from the rest. -/
def fieldSize (name : String) (value : Json) : ℕ := (utf8 (quoted name)).length + 2 + value.size

theorem size_obj (fields : List (String × Json)) :
    (Json.obj fields).size = 2 + ((fields.map fun field ↦ fieldSize field.1 field.2).sum - 1) := by
  have hperm := (List.perm_insertionSort (fun a b : String × List Char ↦ a.1.toList ≤ b.1.toList)
    (compactFields fields)).map fun field ↦ (utf8 (quoted field.1 ++ ':' :: field.2)).length + 1
  have hsum : ((sortFields (compactFields fields)).map fun field ↦
        (utf8 (quoted field.1 ++ ':' :: field.2)).length + 1).sum =
      (fields.map fun field ↦ fieldSize field.1 field.2).sum := by
    rw [sortFields, hperm.sum_eq, compactFields_eq_map, List.map_map]
    refine congrArg List.sum (List.map_congr_left fun field _ ↦ ?_)
    have hcolon : (String.utf8EncodeChar ':').length = 1 := by decide
    rw [Function.comp_apply, fieldSize, size]
    simp only [utf8_append, utf8_cons, List.length_append, hcolon]
    omega
  rw [size, compactText, utf8_append, utf8_cons, List.length_append, List.length_append, length_joined, List.map_map]
  have hbraces : (String.utf8EncodeChar '{').length = 1 ∧ (utf8 ['}']).length = 1 := by decide
  rw [show (fun part : List Char ↦ (utf8 part).length + 1) ∘
      (fun field : String × List Char ↦ quoted field.1 ++ ':' :: field.2) =
      fun field ↦ (utf8 (quoted field.1 ++ ':' :: field.2)).length + 1 from rfl, hsum, hbraces.1, hbraces.2]
  omega

end Json

namespace Streams

/-- The bytes under a key, and one more when the key is there. -/
def width (value : Option Json) : ℕ := (value.map fun value ↦ value.size + 1).getD 0

namespace Event

theorem fieldsSize_eq_sum (event : Event) :
    (event.items.map fun field ↦ Json.fieldSize field.1 field.2).sum =
      ∑ key ∈ event.keys.toFinset, ((Json.utf8 (Json.quoted key)).length + 1 + width (event.get key)) := by
  rw [Mapping.keys, List.sum_toFinset _ event.nodup, Dict.keys, List.map_map]
  refine congrArg List.sum (List.map_congr_left fun field hfield ↦ ?_)
  have hget : event.get field.1 = some field.2 := (Dict.get_eq_some_iff_mem event.nodup).2 hfield
  rw [Function.comp_apply, hget, Json.fieldSize, width, Option.map_some, Option.getD_some]
  omega

/-- An object whose values are not longer, key by key, is not longer. -/
theorem length_bytes_le {event event' : Event} (h : ∀ key, width (event'.get key) ≤ width (event.get key)) :
    (bytes event').length ≤ (bytes event).length := by
  have hsubset : event'.keys.toFinset ⊆ event.keys.toFinset := by
    intro key hkey
    rw [List.mem_toFinset, Mapping.mem_keys] at hkey ⊢
    cases hget : event.get key with
    | some value => rfl
    | none =>
        obtain ⟨value, hvalue⟩ := Option.isSome_iff_exists.mp hkey
        have hle := h key
        rw [hget, hvalue] at hle
        exact absurd hle (by simp [width])
  have hsum := (Finset.sum_le_sum fun key (_ : key ∈ event'.keys.toFinset) ↦
    Nat.add_le_add_left (h key) ((Json.utf8 (Json.quoted key)).length + 1)).trans
      (Finset.sum_le_sum_of_subset hsubset)
  rw [← fieldsSize_eq_sum, ← fieldsSize_eq_sum] at hsum
  have hobj := Json.size_obj event.items
  have hobj' := Json.size_obj event'.items
  unfold Json.size at hobj hobj'
  unfold bytes Json.compactJson
  rw [hobj, hobj']
  omega

end Event

end Streams

end WorkStack
