import WorkStack.Python.Equality
import WorkStack.Streams.Sizes

/-!
# Values up to the order of their keys

Two decoded values may differ only in the order in which their objects hold their keys. `alike` decides this
without regard to that order, in the way the equality of dictionaries does, but tells a truth value from the
number it stands for. `ordered` is the value with the keys of every object sorted: it has the same compact text,
and values in which every key is held once are alike exactly when they are ordered into one value.
-/

open WorkStack.Python

namespace WorkStack.Json

/-! ## Induction -/

/-- Induction on a decoded value, over what its arrays and objects hold. -/
theorem inductOn {P : Json → Prop} (value : Json) (null : P null) (bool : ∀ b, P (bool b)) (int : ∀ i, P (int i))
    (float : ∀ lexeme, P (float lexeme)) (str : ∀ text, P (str text))
    (arr : ∀ items, (∀ item ∈ items, P item) → P (arr items))
    (obj : ∀ fields, (∀ field ∈ fields, P field.2) → P (obj fields)) : P value := by
  apply Json.rec (motive_1 := P) (motive_2 := fun items ↦ ∀ item ∈ items, P item)
    (motive_3 := fun fields ↦ ∀ field ∈ fields, P field.2) (motive_4 := fun field ↦ P field.2)
  · exact null
  · exact bool
  · exact int
  · exact float
  · exact str
  · exact arr
  · exact obj
  · simp
  · intro item items hitem hitems
    simpa using ⟨hitem, hitems⟩
  · simp
  · intro field fields hfield hfields
    simpa using ⟨hfield, fun name value hmem ↦ hfields (name, value) hmem⟩
  · exact fun _ _ h ↦ h

/-! ## Keys held once -/

mutual

/-- Every object of a value holds each key once. -/
def KeysOnce : Json → Prop
  | arr items => ItemsKeysOnce items
  | obj fields => (fields.map Prod.fst).Nodup ∧ FieldsKeysOnce fields
  | _ => True

def ItemsKeysOnce : List Json → Prop
  | [] => True
  | item :: items => KeysOnce item ∧ ItemsKeysOnce items

def FieldsKeysOnce : List (String × Json) → Prop
  | [] => True
  | field :: fields => FieldKeysOnce field ∧ FieldsKeysOnce fields

def FieldKeysOnce : String × Json → Prop
  | (_, value) => KeysOnce value

end

theorem itemsKeysOnce_iff (items : List Json) : ItemsKeysOnce items ↔ ∀ item ∈ items, item.KeysOnce := by
  induction items with
  | nil => simp [ItemsKeysOnce]
  | cons item items ih => simp [ItemsKeysOnce, ih]

theorem fieldsKeysOnce_iff (fields : List (String × Json)) :
    FieldsKeysOnce fields ↔ ∀ field ∈ fields, field.2.KeysOnce := by
  induction fields with
  | nil => simp [FieldsKeysOnce]
  | cons field fields ih =>
      obtain ⟨name, value⟩ := field
      rw [FieldsKeysOnce, FieldKeysOnce, ih, List.forall_mem_cons]

theorem keysOnce_arr (items : List Json) : (arr items).KeysOnce ↔ ∀ item ∈ items, item.KeysOnce := by
  rw [KeysOnce, itemsKeysOnce_iff]

theorem keysOnce_obj (fields : List (String × Json)) :
    (obj fields).KeysOnce ↔ (fields.map Prod.fst).Nodup ∧ ∀ field ∈ fields, field.2.KeysOnce := by
  rw [KeysOnce, fieldsKeysOnce_iff]

/-! ## Sorting by keys -/

section Sorting

variable {α β : Type}

/-- What is made of the fields one by one is made before or after they are sorted. -/
theorem sortFields_map (f : α → β) (fields : List (String × α)) :
    sortFields (fields.map fun field ↦ (field.1, f field.2)) =
      (sortFields fields).map fun field ↦ (field.1, f field.2) := by
  unfold sortFields
  rw [List.map_insertionSort (fun a b : String × α ↦ a.1.toList ≤ b.1.toList) (fun a b ↦ a.1.toList ≤ b.1.toList)]
  exact fun _ _ _ _ ↦ Iff.rfl

theorem sortFields_perm_self (fields : List (String × α)) : (sortFields fields).Perm fields :=
  List.perm_insertionSort _ _

theorem mem_sortFields {field : String × α} {fields : List (String × α)} :
    field ∈ sortFields fields ↔ field ∈ fields := (sortFields_perm_self fields).mem_iff

theorem sortFields_sortFields (fields : List (String × α)) : sortFields (sortFields fields) = sortFields fields :=
  List.Pairwise.insertionSort_eq (List.pairwise_insertionSort _ _)

end Sorting

mutual

/-- The value with the keys of every object in order. -/
def ordered : Json → Json
  | arr items => arr (orderedItems items)
  | obj fields => obj (sortFields (orderedFields fields))
  | value => value

def orderedItems : List Json → List Json
  | [] => []
  | item :: items => ordered item :: orderedItems items

def orderedFields : List (String × Json) → List (String × Json)
  | [] => []
  | field :: fields => orderedField field :: orderedFields fields

def orderedField : String × Json → String × Json
  | (name, value) => (name, ordered value)

end

theorem orderedItems_eq_map (items : List Json) : orderedItems items = items.map ordered := by
  induction items with
  | nil => rfl
  | cons item items ih => rw [orderedItems, ih, List.map_cons]

theorem orderedFields_eq_map (fields : List (String × Json)) :
    orderedFields fields = fields.map fun field ↦ (field.1, ordered field.2) := by
  induction fields with
  | nil => rfl
  | cons field fields ih => rw [orderedFields, ih, orderedField, List.map_cons]

theorem ordered_arr (items : List Json) : ordered (arr items) = arr (items.map ordered) := by
  rw [ordered, orderedItems_eq_map]

theorem ordered_obj (fields : List (String × Json)) :
    ordered (obj fields) = obj ((sortFields fields).map fun field ↦ (field.1, ordered field.2)) := by
  rw [ordered, orderedFields_eq_map, sortFields_map]

theorem ordered_ordered (value : Json) : ordered (ordered value) = ordered value := by
  induction value using inductOn with
  | arr items ih =>
      rw [ordered_arr, ordered_arr, List.map_map]
      congr 1
      exact List.map_congr_left ih
  | obj fields ih =>
      rw [ordered_obj, ordered_obj, sortFields_map, sortFields_sortFields, List.map_map]
      congr 1
      apply List.map_congr_left
      intro field hfield
      exact Prod.ext rfl (ih field (mem_sortFields.1 hfield))
  | _ => simp [ordered]

theorem keysOnce_ordered {value : Json} (h : value.KeysOnce) : (ordered value).KeysOnce := by
  induction value using inductOn with
  | arr items ih =>
      rw [keysOnce_arr] at h
      rw [ordered_arr, keysOnce_arr, List.forall_mem_map]
      exact fun item hitem ↦ ih item hitem (h item hitem)
  | obj fields ih =>
      rw [keysOnce_obj] at h
      rw [ordered_obj, keysOnce_obj, List.map_map, List.forall_mem_map]
      refine ⟨((sortFields_perm_self fields).map Prod.fst).nodup_iff.2 h.1, ?_⟩
      intro field hfield
      have hmem := mem_sortFields.1 hfield
      exact ih field hmem (h.2 field hmem)
  | _ => simp [ordered, KeysOnce]

/-! ## Compact texts -/

theorem compactText_arr (items : List Json) :
    compactText (arr items) = '[' :: (joined [','] (items.map compactText) ++ [']']) := by
  rw [compactText, compactItems_eq_map, List.cons_append]

/-- The text of a field of an object. -/
def member (field : String × Json) : List Char := quoted field.1 ++ ':' :: compactText field.2

theorem compactText_obj (fields : List (String × Json)) :
    compactText (obj fields) = '{' :: (joined [','] ((sortFields fields).map member) ++ ['}']) := by
  rw [compactText, compactFields_eq_map, sortFields_map, List.map_map, List.cons_append]
  rfl

/-- Sorting the keys leaves the text, which has them sorted. -/
theorem compactText_ordered (value : Json) : compactText (ordered value) = compactText value := by
  induction value using inductOn with
  | arr items ih =>
      rw [ordered_arr, compactText_arr, compactText_arr, List.map_map]
      congr 3
      exact List.map_congr_left ih
  | obj fields ih =>
      rw [ordered_obj, compactText_obj, compactText_obj, sortFields_map, sortFields_sortFields, List.map_map]
      congr 3
      apply List.map_congr_left
      intro field hfield
      change quoted field.1 ++ ':' :: compactText (ordered field.2) = _
      rw [ih field (mem_sortFields.1 hfield)]
      rfl
  | _ => simp [ordered]

/-! ## What may be written -/

theorem areCanonical_eq_all (items : List Json) : areCanonical items = items.all isCanonical := by
  induction items with
  | nil => rfl
  | cons item items ih => rw [areCanonical, ih, List.all_cons]

theorem isCanonical_arr (items : List Json) : isCanonical (arr items) = items.all isCanonical := by
  rw [isCanonical, areCanonical_eq_all]

theorem isCanonical_obj (fields : List (String × Json)) :
    isCanonical (obj fields) = fields.all fun field ↦ field.2.isCanonical := by
  rw [isCanonical, fieldsCanonical_eq_all]

/-- Sorting the keys leaves it open to be written. -/
theorem isCanonical_ordered (value : Json) : isCanonical (ordered value) = isCanonical value := by
  induction value using inductOn with
  | arr items ih =>
      rw [ordered_arr, isCanonical_arr, isCanonical_arr, List.all_map]
      rw [Bool.eq_iff_iff, List.all_eq_true, List.all_eq_true]
      exact forall₂_congr fun item hitem ↦ by rw [Function.comp_apply, ih item hitem]
  | obj fields ih =>
      rw [ordered_obj, isCanonical_obj, isCanonical_obj, List.all_map, Bool.eq_iff_iff, List.all_eq_true,
        List.all_eq_true]
      constructor
      · intro h field hfield
        rw [← ih field hfield]
        exact h field (mem_sortFields.2 hfield)
      · intro h field hfield
        have hmem := mem_sortFields.1 hfield
        exact (ih field hmem).trans (h field hmem)
  | _ => simp [ordered]

/-! ## Values that differ in the order of keys -/

mutual

def alike : Json → Json → Bool
  | arr items, other =>
      match other with
      | arr others => alikeItems items others
      | _ => false
  | obj fields, other =>
      match other with
      | obj others => fields.length == others.length && alikeFields fields others
      | _ => false
  | null, other =>
      match other with
      | null => true
      | _ => false
  | bool value, other =>
      match other with
      | bool value' => value == value'
      | _ => false
  | int value, other =>
      match other with
      | int value' => value == value'
      | _ => false
  | float lexeme, other =>
      match other with
      | float lexeme' => lexeme == lexeme'
      | _ => false
  | str text, other =>
      match other with
      | str text' => text == text'
      | _ => false

def alikeItems : List Json → List Json → Bool
  | [], others => others.isEmpty
  | item :: items, others =>
      match others with
      | [] => false
      | other :: rest => alike item other && alikeItems items rest

def alikeFields : List (String × Json) → List (String × Json) → Bool
  | [], _ => true
  | field :: fields, others => alikeField field others && alikeFields fields others

def alikeField : String × Json → List (String × Json) → Bool
  | (name, value), others =>
      match others.lookup name with
      | some other => alike value other
      | none => false

end

theorem alikeItems_iff {items : List Json} (others : List Json)
    (ih : ∀ item ∈ items, ∀ other : Json, other.KeysOnce → (alike item other = true ↔ ordered item = ordered other))
    (honce : ∀ other ∈ others, other.KeysOnce) :
    alikeItems items others = true ↔ items.map ordered = others.map ordered := by
  induction items generalizing others with
  | nil =>
      cases others with
      | nil => simp [alikeItems]
      | cons other others => simp [alikeItems]
  | cons item items ihItems =>
      cases others with
      | nil => simp [alikeItems]
      | cons other others =>
          rw [List.forall_mem_cons] at ih honce
          rw [alikeItems, Bool.and_eq_true, ih.1 other honce.1, ihItems others ih.2 honce.2, List.map_cons,
            List.map_cons, List.cons.injEq]

theorem alikeFields_iff (fields others : List (String × Json)) :
    alikeFields fields others = true ↔
      ∀ field ∈ fields, ∃ other, others.lookup field.1 = some other ∧ alike field.2 other = true := by
  induction fields with
  | nil => simp [alikeFields]
  | cons field fields ih =>
      obtain ⟨name, value⟩ := field
      have hfield : alikeField (name, value) others = true ↔
          ∃ other, others.lookup name = some other ∧ alike value other = true := by
        rw [alikeField]
        cases others.lookup name with
        | none => simp
        | some other => simp
      rw [alikeFields, Bool.and_eq_true, hfield, ih, List.forall_mem_cons]

/-- The names of fields are not changed by what is made of the fields. -/
theorem map_fst_orderedFields (fields : List (String × Json)) :
    (orderedFields fields).map Prod.fst = fields.map Prod.fst := by
  rw [orderedFields_eq_map, List.map_map]
  rfl

variable {fields others : List (String × Json)}

theorem ordered_obj_inj (hnodup : (fields.map Prod.fst).Nodup) :
    ordered (obj fields) = ordered (obj others) ↔ (orderedFields fields).Perm (orderedFields others) := by
  rw [ordered, ordered, obj.injEq]
  constructor
  · intro h
    have hperm := sortFields_perm_self (orderedFields others)
    rw [← h] at hperm
    exact (sortFields_perm_self _).symm.trans hperm
  · intro h
    apply sortFields_perm h
    rw [map_fst_orderedFields]
    exact hnodup

theorem alikeFields_of_perm (hother : (others.map Prod.fst).Nodup)
    (ih : ∀ field ∈ fields, ∀ other : Json, other.KeysOnce → ordered field.2 = ordered other →
      alike field.2 other = true) (honce : ∀ field ∈ others, field.2.KeysOnce)
    (h : (orderedFields fields).Perm (orderedFields others)) :
    alikeFields fields others = true := by
  rw [alikeFields_iff]
  intro field hfield
  have hmem : (field.1, ordered field.2) ∈ orderedFields others := by
    rw [← h.mem_iff, orderedFields_eq_map]
    exact List.mem_map_of_mem hfield
  rw [orderedFields_eq_map, List.mem_map] at hmem
  obtain ⟨other, hmem, heq⟩ := hmem
  obtain ⟨hname, hvalue⟩ := Prod.mk.inj heq
  refine ⟨other.2, ?_, ih field hfield other.2 (honce other hmem) hvalue.symm⟩
  rw [← hname]
  exact (Dict.get_eq_some_iff_mem hother).2 hmem

theorem perm_of_alikeFields (hnodup : (fields.map Prod.fst).Nodup) (hlength : fields.length = others.length)
    (ih : ∀ field ∈ fields, ∀ other : Json, other.KeysOnce → alike field.2 other = true →
      ordered field.2 = ordered other) (hother : (others.map Prod.fst).Nodup)
    (honce : ∀ field ∈ others, field.2.KeysOnce) (h : alikeFields fields others = true) :
    (orderedFields fields).Perm (orderedFields others) := by
  have hkeys : (orderedFields fields).Nodup := by
    apply List.Nodup.of_map Prod.fst
    rw [map_fst_orderedFields]
    exact hnodup
  have hsubset : orderedFields fields ⊆ orderedFields others := by
    intro entry hentry
    rw [orderedFields_eq_map, List.mem_map] at hentry
    obtain ⟨field, hfield, rfl⟩ := hentry
    obtain ⟨other, hlookup, halike⟩ := (alikeFields_iff fields others).1 h field hfield
    have hmem : (field.1, other) ∈ others := (Dict.get_eq_some_iff_mem hother).1 hlookup
    rw [ih field hfield other (honce _ hmem) halike, orderedFields_eq_map]
    exact List.mem_map_of_mem hmem
  apply (List.subperm_of_subset hkeys hsubset).perm_of_length_le
  rw [orderedFields_eq_map, orderedFields_eq_map, List.length_map, List.length_map, hlength]

/-- Values that hold each key once are alike exactly when sorting their keys gives one value. -/
theorem alike_iff_ordered (value : Json) : ∀ other : Json, value.KeysOnce → other.KeysOnce →
    (alike value other = true ↔ ordered value = ordered other) := by
  induction value using inductOn with
  | arr items ih =>
      intro other hvalue hother
      cases other with
      | arr others =>
          rw [keysOnce_arr] at hvalue hother
          rw [alike, ordered_arr, ordered_arr, arr.injEq]
          exact alikeItems_iff others (fun item hitem other ↦ ih item hitem other (hvalue item hitem)) hother
      | _ => simp [alike, ordered]
  | obj fields ih =>
      intro other hvalue hother
      cases other with
      | obj others =>
          rw [keysOnce_obj] at hvalue hother
          rw [ordered_obj_inj hvalue.1, alike, Bool.and_eq_true, beq_iff_eq]
          constructor
          · rintro ⟨hlength, halike⟩
            exact perm_of_alikeFields hvalue.1 hlength
              (fun field hfield other honce ↦ (ih field hfield other (hvalue.2 field hfield) honce).1)
              hother.1 hother.2 halike
          · intro hperm
            refine ⟨?_, alikeFields_of_perm hother.1
              (fun field hfield other honce ↦ (ih field hfield other (hvalue.2 field hfield) honce).2)
              hother.2 hperm⟩
            have hlength := hperm.length_eq
            rwa [orderedFields_eq_map, orderedFields_eq_map, List.length_map, List.length_map] at hlength
      | _ => simp [alike, ordered]
  | _ =>
      intro other _ _
      cases other with
      | _ => simp [alike, ordered]

theorem sameItems_of_alikeItems {items : List Json}
    (ih : ∀ item ∈ items, ∀ other : Json, alike item other = true → same item other = true) (others : List Json)
    (h : alikeItems items others = true) : sameItems items others = true := by
  induction items generalizing others with
  | nil =>
      rw [alikeItems] at h
      rw [sameItems]
      exact h
  | cons item items ihItems =>
      rw [List.forall_mem_cons] at ih
      cases others with
      | nil => simp [alikeItems] at h
      | cons other others =>
          rw [alikeItems, Bool.and_eq_true] at h
          rw [sameItems, Bool.and_eq_true]
          exact ⟨ih.1 other h.1, ihItems ih.2 others h.2⟩

theorem sameFields_of_alikeFields {fields : List (String × Json)}
    (ih : ∀ field ∈ fields, ∀ other : Json, alike field.2 other = true → same field.2 other = true)
    (others : List (String × Json)) (h : alikeFields fields others = true) : sameFields fields others = true := by
  induction fields with
  | nil => rw [sameFields]
  | cons field fields ihFields =>
      obtain ⟨name, value⟩ := field
      rw [List.forall_mem_cons] at ih
      rw [alikeFields, Bool.and_eq_true, alikeField] at h
      rw [sameFields, Bool.and_eq_true, sameField]
      refine ⟨?_, ihFields ih.2 h.2⟩
      cases hother : others.lookup name with
      | none => simp [hother] at h
      | some other =>
          rw [hother] at h
          exact ih.1 other h.1

/-- Values that are alike are equal. -/
theorem same_of_alike (value : Json) : ∀ other : Json, alike value other = true → same value other = true := by
  induction value using inductOn with
  | arr items ih =>
      intro other h
      cases other with
      | arr others =>
          rw [alike] at h
          rw [same]
          exact sameItems_of_alikeItems ih others h
      | _ => simp [alike] at h
  | obj fields ih =>
      intro other h
      cases other with
      | obj others =>
          rw [alike, Bool.and_eq_true] at h
          rw [same, Bool.and_eq_true]
          exact ⟨h.1, sameFields_of_alikeFields ih others h.2⟩
      | _ => simp [alike] at h
  | _ =>
      intro other h
      cases other with
      | _ => simp_all [alike, same, int?]

end WorkStack.Json
