import Mathlib

/-!
# Insertion-ordered dictionaries

A dictionary is the list of its items in the order they were inserted. Setting a key that is
present changes its value in place, setting a new key appends it. Everything a lookup can tell is
settled by the lemmas below, whatever the order.
-/

namespace WorkStack.Python

abbrev Dict (κ α : Type) := List (κ × α)

namespace Dict

variable {κ α : Type} [DecidableEq κ]

def get (d : Dict κ α) (key : κ) : Option α := List.lookup key d

def set (key : κ) (value : α) : Dict κ α → Dict κ α
  | [] => [(key, value)]
  | item :: items => if item.1 = key then (key, value) :: items else item :: set key value items

def erase (key : κ) : Dict κ α → Dict κ α
  | [] => []
  | item :: items => if item.1 = key then erase key items else item :: erase key items

def keys (d : Dict κ α) : List κ := d.map Prod.fst

/-- `d.update(changes)` -/
def update (changes d : Dict κ α) : Dict κ α :=
  d.map (fun item ↦ (item.1, (get changes item.1).getD item.2)) ++
    changes.filter fun item ↦ (get d item.1).isNone

@[simp] theorem get_nil (key : κ) : get ([] : Dict κ α) key = none := rfl

theorem get_cons (item : κ × α) (items : Dict κ α) (key : κ) :
    get (item :: items) key = if item.1 = key then some item.2 else get items key := by
  rw [get, List.lookup_cons]
  by_cases h : item.1 = key
  · simp [h]
  · have hbeq : (key == item.1) = false := beq_false_of_ne (Ne.symm h)
    simp only [hbeq, if_neg h]
    rfl

theorem get_set (d : Dict κ α) (key other : κ) (value : α) :
    get (set key value d) other = if key = other then some value else get d other := by
  induction d with
  | nil => simp [set, get_cons]
  | cons item items ih =>
      by_cases h : item.1 = key
      · by_cases hother : key = other
        · simp [set, h, get_cons, hother]
        · simp [set, h, get_cons, hother]
      · by_cases hother : key = other
        · subst hother
          simpa [set, h, get_cons] using ih
        · rw [if_neg hother] at ih
          simp [set, h, get_cons, hother, ih]

@[simp] theorem get_set_self (d : Dict κ α) (key : κ) (value : α) :
    get (set key value d) key = some value := by
  rw [get_set, if_pos rfl]

theorem get_set_of_ne (d : Dict κ α) {key other : κ} (h : key ≠ other) (value : α) :
    get (set key value d) other = get d other := by
  rw [get_set, if_neg h]

theorem get_erase (d : Dict κ α) (key other : κ) :
    get (erase key d) other = if key = other then none else get d other := by
  induction d with
  | nil => simp [erase]
  | cons item items ih =>
      by_cases h : item.1 = key
      · by_cases hother : key = other
        · simpa [erase, h, hother] using ih
        · rw [if_neg hother] at ih
          simp [erase, h, hother, get_cons, ih]
      · by_cases hother : key = other
        · subst hother
          simpa [erase, h, get_cons] using ih
        · rw [if_neg hother] at ih
          simp [erase, h, hother, get_cons, ih]

theorem get_append (d rest : Dict κ α) (key : κ) : get (d ++ rest) key = (get d key).or (get rest key) := by
  induction d with
  | nil => simp
  | cons item items ih =>
      rw [List.cons_append, get_cons, get_cons, ih]
      by_cases h : item.1 = key
      · rw [if_pos h, if_pos h, Option.some_or]
      · rw [if_neg h, if_neg h]

theorem get_map_value (f : κ → α → α) (d : Dict κ α) (key : κ) :
    get (d.map fun item ↦ (item.1, f item.1 item.2)) key = (get d key).map (f key) := by
  induction d with
  | nil => rfl
  | cons item items ih =>
      rw [List.map_cons, get_cons, get_cons, ih]
      by_cases h : item.1 = key
      · rw [if_pos h, if_pos h, Option.map_some, h]
      · rw [if_neg h, if_neg h]

theorem get_filter_key (p : κ → Bool) (d : Dict κ α) (key : κ) :
    get (d.filter fun item ↦ p item.1) key = if p key then get d key else none := by
  induction d with
  | nil => simp
  | cons item items ih =>
      rw [List.filter_cons, get_cons]
      by_cases hkey : item.1 = key
      · by_cases hp : p key
        · simp [hkey, hp, get_cons]
        · simp [hkey, hp, ih]
      · by_cases hp : p item.1
        · simp [hp, get_cons, hkey, ih]
        · simp [hp, hkey, ih]

/-- An update is seen where it says something. -/
theorem get_update (changes d : Dict κ α) (key : κ) :
    get (update changes d) key = (get changes key).or (get d key) := by
  unfold update
  rw [get_append, get_map_value (fun name value ↦ (get changes name).getD value),
    get_filter_key fun name ↦ (get d name).isNone]
  cases get d key with
  | none => simp
  | some value => cases get changes key <;> simp

theorem mem_keys (d : Dict κ α) (key : κ) : key ∈ keys d ↔ (get d key).isSome := by
  induction d with
  | nil => simp [keys]
  | cons item items ih =>
      rw [get_cons]
      by_cases h : item.1 = key
      · simp [keys, h]
      · simpa [keys, h, Ne.symm h] using ih

/-- Setting a key that is there keeps the keys. -/
theorem keys_set (d : Dict κ α) {key : κ} (value : α) (h : key ∈ keys d) : keys (set key value d) = keys d := by
  induction d with
  | nil => simp [keys] at h
  | cons item items ih =>
      by_cases hkey : item.1 = key
      · simp [set, keys, hkey]
      · have hrest : key ∈ keys items := by simpa [keys, Ne.symm hkey] using h
        have hkeys := ih hrest
        unfold keys at hkeys
        simp [set, keys, hkey, hkeys]

/-- Setting a key that is there changes one item. -/
theorem set_of_get_some {d : Dict κ α} {key : κ} {old : α} (h : get d key = some old) (value : α) :
    ∃ before rest, d = before ++ (key, old) :: rest ∧ set key value d = before ++ (key, value) :: rest := by
  induction d with
  | nil => simp at h
  | cons item items ih =>
      rw [get_cons] at h
      by_cases hkey : item.1 = key
      · rw [if_pos hkey] at h
        refine ⟨[], items, ?_, ?_⟩
        · simp [← hkey, ← Option.some.inj h]
        · simp [set, hkey]
      · rw [if_neg hkey] at h
        obtain ⟨before, rest, hsplit, hset⟩ := ih h
        refine ⟨item :: before, rest, ?_, ?_⟩
        · rw [hsplit, List.cons_append]
        · rw [set, if_neg hkey, hset, List.cons_append]

/-- Setting a new key appends it. -/
theorem set_of_get_none {d : Dict κ α} {key : κ} (h : get d key = none) (value : α) :
    set key value d = d ++ [(key, value)] := by
  induction d with
  | nil => rfl
  | cons item items ih =>
      rw [get_cons] at h
      by_cases hkey : item.1 = key
      · simp [hkey] at h
      · rw [if_neg hkey] at h
        rw [set, if_neg hkey, ih h, List.cons_append]

end Dict

end WorkStack.Python
