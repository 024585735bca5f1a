import Mathlib
import WorkStack.Python.Dict

/-!
# Dictionaries whose keys are distinct

A dictionary holds each of its keys once. Two dictionaries that answer every lookup alike hold the
same items, whatever the order they were inserted in.
-/

namespace WorkStack.Python

variable {κ α : Type} [DecidableEq κ]

namespace Dict

theorem keys_set_of_get_none {d : Dict κ α} {key : κ} (h : get d key = none) (value : α) :
    keys (set key value d) = keys d ++ [key] := by
  rw [set_of_get_none h]
  simp [keys]

theorem nodup_keys_set {d : Dict κ α} (h : (keys d).Nodup) (key : κ) (value : α) :
    (keys (set key value d)).Nodup := by
  by_cases hkey : key ∈ keys d
  · rw [keys_set d value hkey]
    exact h
  · have hnone : get d key = none := by
      rw [mem_keys] at hkey
      simpa using hkey
    rw [keys_set_of_get_none hnone]
    exact List.Nodup.append h (List.nodup_singleton key) (by simpa using hkey)

theorem erase_eq_filter (d : Dict κ α) (key : κ) : erase key d = d.filter fun item ↦ item.1 ≠ key := by
  induction d with
  | nil => rfl
  | cons item items ih =>
      by_cases h : item.1 = key
      · simp [erase, h, ih]
      · simp [erase, h, ih]

theorem nodup_keys_erase {d : Dict κ α} (h : (keys d).Nodup) (key : κ) : (keys (erase key d)).Nodup := by
  rw [erase_eq_filter]
  exact h.sublist (List.filter_sublist.map Prod.fst)

theorem get_eq_some_iff_mem {d : Dict κ α} (h : (keys d).Nodup) {key : κ} {value : α} :
    get d key = some value ↔ (key, value) ∈ d := by
  induction d with
  | nil => simp
  | cons item items ih =>
      rw [keys, List.map_cons, List.nodup_cons] at h
      rw [get_cons, List.mem_cons]
      by_cases hkey : item.1 = key
      · rw [if_pos hkey]
        constructor
        · intro heq
          exact Or.inl (Prod.ext hkey.symm (Option.some.inj heq).symm)
        · rintro (heq | hmem)
          · rw [← heq]
          · exact absurd (List.mem_map.2 ⟨(key, value), hmem, hkey.symm⟩) h.1
      · rw [if_neg hkey, ih h.2]
        constructor
        · exact Or.inr
        · rintro (heq | hmem)
          · exact absurd (congrArg Prod.fst heq).symm hkey
          · exact hmem

/-- Two dictionaries that answer alike hold the same items. -/
theorem perm_of_get_eq {d d' : Dict κ α} (h : (keys d).Nodup) (h' : (keys d').Nodup)
    (hget : ∀ key, get d key = get d' key) : d.Perm d' := by
  rw [List.perm_ext_iff_of_nodup (List.Nodup.of_map Prod.fst h) (List.Nodup.of_map Prod.fst h')]
  rintro ⟨key, value⟩
  rw [← get_eq_some_iff_mem h, ← get_eq_some_iff_mem h', hget]

end Dict

/-- A dictionary: its items, no two of them under one key. -/
structure Mapping (κ α : Type) where
  items : Dict κ α
  nodup : (Dict.keys items).Nodup

namespace Mapping

def empty : Mapping κ α := ⟨[], List.nodup_nil⟩

def get (m : Mapping κ α) (key : κ) : Option α := Dict.get m.items key

def keys (m : Mapping κ α) : List κ := Dict.keys m.items

/-- `m[key] = value` -/
def set (key : κ) (value : α) (m : Mapping κ α) : Mapping κ α :=
  ⟨Dict.set key value m.items, Dict.nodup_keys_set m.nodup key value⟩

/-- `m.pop(key, None)` -/
def erase (key : κ) (m : Mapping κ α) : Mapping κ α :=
  ⟨Dict.erase key m.items, Dict.nodup_keys_erase m.nodup key⟩

/-- `key in m` -/
def has (key : κ) (m : Mapping κ α) : Bool := (m.get key).isSome

@[simp] theorem get_empty (key : κ) : (empty : Mapping κ α).get key = none := rfl

theorem get_set (m : Mapping κ α) (key other : κ) (value : α) :
    (m.set key value).get other = if key = other then some value else m.get other :=
  Dict.get_set m.items key other value

@[simp] theorem get_set_self (m : Mapping κ α) (key : κ) (value : α) : (m.set key value).get key = some value :=
  Dict.get_set_self m.items key value

theorem get_set_of_ne (m : Mapping κ α) {key other : κ} (h : key ≠ other) (value : α) :
    (m.set key value).get other = m.get other :=
  Dict.get_set_of_ne m.items h value

theorem length_set_of_get_some (m : Mapping κ α) {key : κ} {value : α} (h : m.get key = some value) (value' : α) :
    (m.set key value').items.length = m.items.length := by
  have hkeys : Dict.keys (Dict.set key value' m.items) = Dict.keys m.items := by
    apply Dict.keys_set
    rw [Dict.mem_keys]
    change (m.get key).isSome
    rw [h]
    rfl
  have hlength := congrArg List.length hkeys
  simp only [Dict.keys, List.length_map] at hlength
  exact hlength

theorem length_set_of_get_none (m : Mapping κ α) {key : κ} (h : m.get key = none) (value : α) :
    (m.set key value).items.length = m.items.length + 1 := by
  have hkeys := congrArg List.length (Dict.keys_set_of_get_none h value)
  simp only [Dict.keys, List.length_map, List.length_append, List.length_singleton] at hkeys
  exact hkeys

theorem get_erase (m : Mapping κ α) (key other : κ) :
    (m.erase key).get other = if key = other then none else m.get other :=
  Dict.get_erase m.items key other

theorem mem_keys (m : Mapping κ α) (key : κ) : key ∈ m.keys ↔ (m.get key).isSome := Dict.mem_keys m.items key

theorem perm_of_get_eq {m m' : Mapping κ α} (h : ∀ key, m.get key = m'.get key) : m.items.Perm m'.items :=
  Dict.perm_of_get_eq m.nodup m'.nodup h

end Mapping

end WorkStack.Python
