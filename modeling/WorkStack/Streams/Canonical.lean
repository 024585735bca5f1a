import WorkStack.Python.Mapping
import WorkStack.Store.Layout

/-!
# Canonical JSON

The bytes of records and events: compact, keys sorted, no floating-point numbers and no integer that
another reader could round. The bytes of an object are a matter of what its keys lead to, not of the
order in which they were set.
-/

open WorkStack.Python

namespace WorkStack

namespace Json

def maxCanonicalInteger : ℤ := 9007199254740991

mutual

/-- `_validate_value` -/
def isCanonical : Json → Bool
  | int value => -maxCanonicalInteger ≤ value && value ≤ maxCanonicalInteger
  | float _ => false
  | arr items => areCanonical items
  | obj fields => fieldsCanonical fields
  | _ => true

def areCanonical : List Json → Bool
  | [] => true
  | item :: items => isCanonical item && areCanonical items

def fieldsCanonical : List (String × Json) → Bool
  | [] => true
  | field :: fields => fieldCanonical field && fieldsCanonical fields

def fieldCanonical : String × Json → Bool
  | (_, value) => isCanonical value

end

theorem fieldsCanonical_eq_all (fields : List (String × Json)) :
    fieldsCanonical fields = fields.all fun field ↦ field.2.isCanonical := by
  induction fields with
  | nil => rfl
  | cons field fields ih =>
      rw [fieldsCanonical, ih, fieldCanonical, List.all_cons]

theorem compactFields_eq_map (fields : List (String × Json)) :
    compactFields fields = fields.map fun field ↦ (field.1, compactText field.2) := by
  induction fields with
  | nil => rfl
  | cons field fields ih =>
      rw [compactFields, ih, compactField, List.map_cons]

/-- Items under distinct names are sorted into one order. -/
theorem sortFields_perm {α : Type} {fields fields' : List (String × α)} (h : fields.Perm fields')
    (hnodup : (fields.map Prod.fst).Nodup) : sortFields fields = sortFields fields' := by
  have hperm : (sortFields fields).Perm (sortFields fields') :=
    ((List.perm_insertionSort _ _).trans h).trans (List.perm_insertionSort _ _).symm
  refine hperm.eq_of_pairwise ?_ (List.pairwise_insertionSort _ _) (List.pairwise_insertionSort _ _)
  intro a b ha hb hab hba
  have hname : a.1 = b.1 := String.toList_injective (le_antisymm hab hba)
  have ha' : a ∈ fields := (List.perm_insertionSort _ _).mem_iff.1 ha
  have hb' : b ∈ fields := h.mem_iff.2 ((List.perm_insertionSort _ _).mem_iff.1 hb)
  exact List.inj_on_of_nodup_map hnodup ha' hb' hname

end Json

namespace Streams

/-- An event or a record: a decoded object. -/
abbrev Event := Mapping String Json

namespace Event

def isCanonical (event : Event) : Bool := Json.fieldsCanonical event.items

/-- `canonical_json_bytes(value)` of a value that may be written so -/
def bytes (event : Event) : Bytes := Json.compactJson (.obj event.items)

theorem isCanonical_eq_true (event : Event) :
    event.isCanonical = true ↔ ∀ key value, event.get key = some value → value.isCanonical := by
  rw [isCanonical, Json.fieldsCanonical_eq_all, List.all_eq_true]
  constructor
  · intro h key value hget
    exact h (key, value) ((Dict.get_eq_some_iff_mem event.nodup).1 hget)
  · intro h field hmem
    exact h field.1 field.2 ((Dict.get_eq_some_iff_mem event.nodup).2 hmem)

/-- The bytes of an object are settled by what its keys lead to. -/
theorem bytes_eq {event event' : Event} (h : ∀ key, event.get key = event'.get key) :
    event.bytes = event'.bytes := by
  have hperm := Mapping.perm_of_get_eq h
  have hsort : Json.sortFields (Json.compactFields event.items) =
      Json.sortFields (Json.compactFields event'.items) := by
    rw [Json.compactFields_eq_map, Json.compactFields_eq_map]
    apply Json.sortFields_perm (hperm.map _)
    rw [List.map_map]
    exact event.nodup
  unfold bytes Json.compactJson
  rw [Json.compactText, Json.compactText, hsort]

theorem isCanonical_eq {event event' : Event} (h : ∀ key, event.get key = event'.get key) :
    event.isCanonical = event'.isCanonical := by
  rw [Bool.eq_iff_iff, isCanonical_eq_true, isCanonical_eq_true]
  simp only [h]

end Event

/-- `canonical_json_bytes(value)` -/
def canonicalJsonBytes (event : Event) : Option Bytes := if event.isCanonical then some event.bytes else none

end Streams

end WorkStack
