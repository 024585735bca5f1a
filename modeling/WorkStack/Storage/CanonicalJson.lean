import Mathlib
import WorkStack.Effect.Chains
import WorkStack.Effect.Outcome
import WorkStack.Python.Base64
import WorkStack.Storage.CanonicalText

/-!
# Canonical JSON of values in memory

`canonical_json_bytes` of an object of a memory. The objects of a memory refer to each other, so one object may be met
on several ways and a container may be met again inside itself. Validation walks through them with the set of the
containers it is inside of, refuses what the format has no place for, and ends on every memory. What it lets pass is
the tree of a finite value with integers that every reader keeps and texts that can be encoded.
-/

open WorkStack.Effect WorkStack.Effect.Outcome WorkStack.Json WorkStack.Python

namespace WorkStack.Storage.Canonical

/-! ## Memory -/

/-- A code point of a text, surrogates among them. -/
abbrev CodePoint := Fin 0x110000

/-- An object of a memory of `n` objects; `other` is one of a type that the format has no place for. -/
inductive Object (n : ℕ) where
  | none
  | bool (value : Bool)
  | int (value : ℤ)
  | float (lexeme : String)
  | str (points : List CodePoint)
  | list (items : List (Fin n))
  | dict (entries : List (Fin n × Fin n))
  | other

/-- The text that an object is. -/
def Object.text? {n : ℕ} : Object n → Option (List CodePoint)
  | .str points => some points
  | _ => Option.none

/-- Objects under their identities; a dictionary holds no text twice as a key. -/
structure Memory (n : ℕ) where
  object : Fin n → Object n
  keysOnce : ∀ identity entries, object identity = .dict entries →
    (entries.filterMap fun entry ↦ (object entry.1).text?).Nodup

structure CanonicalJsonError where
  code : String
  location : String
  deriving DecidableEq, Repr

abbrev Checked (α : Type) := Except CanonicalJsonError α

/-! ## Texts and numbers -/

/-- The character of a code point that is one. -/
def charOf (point : CodePoint) : Option Char :=
  if h : point.val.isValidChar then some (Char.ofNatAux point.val h) else none

/-- The text of code points without surrogates, as `encode` needs it. -/
def textOf (points : List CodePoint) : Option String := (points.mapM charOf).map String.ofList

/-- `_validate_text` -/
def validateText (points : List CodePoint) (location : String) : Checked Unit :=
  match textOf points with
  | some _ => .ok ()
  | none => .error ⟨"INVALID_UNICODE", location⟩

/-- `_validate_integer` -/
def validateInteger (value : ℤ) (location : String) : Checked Unit :=
  if -maxCanonicalInteger ≤ value ∧ value ≤ maxCanonicalInteger then .ok () else .error ⟨"UNSAFE_INTEGER", location⟩

/-! ## Validation -/

namespace Memory

variable {n : ℕ} (m : Memory n)

/-- The entries of a dictionary whose keys are texts, with these. -/
def members (entries : List (Fin n × Fin n)) : Option (List (List CodePoint × Fin n)) :=
  entries.mapM fun entry ↦ (m.object entry.1).text?.map fun key ↦ (key, entry.2)

/-- `sorted(keys)`, with the values of the keys -/
def sortedMembers {α : Type} (members : List (List CodePoint × α)) : List (List CodePoint × α) :=
  members.insertionSort fun a b ↦ a.1 ≤ b.1

theorem card_lt_of_notMem {active : Finset (Fin n)} {identity : Fin n} (h : identity ∉ active) :
    n - (insert identity active).card < n - active.card := by
  have hlt := Finset.card_lt_univ_of_notMem h
  rw [Fintype.card_fin] at hlt
  rw [Finset.card_insert_of_notMem h]
  omega

mutual

/-- `_validate_list`, and `_enter_container` of a list -/
def validateList (items : List (Fin n)) (active : Finset (Fin n)) (identity : Fin n) (location : String) :
    Checked Unit :=
  if _h : identity ∈ active then .error ⟨"CYCLIC_VALUE", location⟩
  else items.zipIdx.forM fun child ↦
    validateValue child.1 (insert identity active) (location ++ "/items/" ++ toString child.2)
termination_by 2 * (n - active.card)
decreasing_by
  have := card_lt_of_notMem _h
  omega

/-- `_validate_mapping`, and `_enter_container` of a dictionary -/
def validateMapping (entries : List (Fin n × Fin n)) (active : Finset (Fin n)) (identity : Fin n)
    (location : String) : Checked Unit :=
  match m.members entries with
  | none => .error ⟨"NON_STRING_KEY", location⟩
  | some members =>
      if _h : identity ∈ active then .error ⟨"CYCLIC_VALUE", location⟩
      else (sortedMembers members).zipIdx.forM fun child ↦ do
        validateText child.1.1 (location ++ "/keys/" ++ toString child.2)
        validateValue child.1.2 (insert identity active) (location ++ "/members/" ++ toString child.2)
termination_by 2 * (n - active.card)
decreasing_by
  have := card_lt_of_notMem _h
  omega

/-- `_validate_value` -/
def validateValue (identity : Fin n) (active : Finset (Fin n)) (location : String) : Checked Unit :=
  match m.object identity with
  | .none => .ok ()
  | .bool _ => .ok ()
  | .str points => validateText points location
  | .int value => validateInteger value location
  | .float _ => .error ⟨"UNSUPPORTED_FLOAT", location⟩
  | .list items => validateList items active identity location
  | .dict entries => validateMapping entries active identity location
  | .other => .error ⟨"UNSUPPORTED_TYPE", location⟩
termination_by 2 * (n - active.card) + 1

end

/-- The finite value that an object is, met inside some containers; there is none where a container is met again
inside itself, or where a text or a key is not one that a document holds. -/
def read (identity : Fin n) (active : Finset (Fin n)) : Option Json :=
  match m.object identity with
  | .none => some .null
  | .bool value => some (.bool value)
  | .int value => some (.int value)
  | .float lexeme => some (.float lexeme)
  | .str points => (textOf points).map .str
  | .list items =>
      if _h : identity ∈ active then none
      else (items.mapM fun child ↦ read child (insert identity active)).map .arr
  | .dict entries =>
      if _h : identity ∈ active then none
      else do
        let members ← m.members entries
        let fields ← members.mapM fun member ↦ do
          let key ← textOf member.1
          let value ← read member.2 (insert identity active)
          some (key, value)
        some (.obj fields)
  | .other => none
termination_by n - active.card
decreasing_by
  · exact card_lt_of_notMem _h
  · exact card_lt_of_notMem _h

/-- `canonical_json_bytes` -/
def canonicalJsonBytes (identity : Fin n) : Checked Bytes := do
  m.validateValue identity ∅ "$"
  match m.read identity ∅ with
  | some value => .ok (compactJson value)
  | none => .error ⟨"SERIALIZATION_FAILED", "$"⟩

end Memory

/-! ## Texts in documents -/

theorem val_of_charOf {point : CodePoint} {c : Char} (h : charOf point = some c) : point.val = c.toNat := by
  unfold charOf at h
  split at h
  · cases h
    rfl
  · cases h

theorem mapM_eq_some {α β : Type} {f : α → Option β} {items : List α} {results : List β} :
    items.mapM f = some results ↔ List.Forall₂ (fun item result ↦ f item = some result) items results := by
  induction items generalizing results with
  | nil =>
      rw [List.mapM_nil, List.forall₂_nil_left_iff, eq_comm]
      exact Option.some_inj
  | cons item items ih =>
      rw [List.mapM_cons, List.forall₂_cons_left_iff]
      simp only [← ih, Option.bind_eq_bind, Option.bind_eq_some_iff, Option.pure_def, Option.some_inj]
      constructor
      · rintro ⟨first, hfirst, others, hothers, rfl⟩
        exact ⟨first, others, hfirst, hothers, rfl⟩
      · rintro ⟨first, others, hfirst, hothers, rfl⟩
        exact ⟨first, hfirst, others, hothers, rfl⟩

/-- A text has the code points it was encoded from. -/
theorem textOf_eq_some {points : List CodePoint} {text : String} (h : textOf points = some text) :
    points.map Fin.val = text.toList.map Char.toNat := by
  obtain ⟨chars, hchars, rfl⟩ := Option.map_eq_some_iff.mp h
  rw [mapM_eq_some] at hchars
  rw [String.toList_ofList]
  clear h
  induction hchars with
  | nil => rfl
  | cons hchar _ ih => rw [List.map_cons, List.map_cons, val_of_charOf hchar, ih]

theorem textOf_inj {points others : List CodePoint} {text : String} (h : textOf points = some text)
    (hothers : textOf others = some text) : points = others := by
  apply List.map_injective_iff.mpr Fin.val_injective
  rw [textOf_eq_some h, textOf_eq_some hothers]

/-- `_validate_text` lets pass what can be encoded. -/
theorem validateText_eq_ok {points : List CodePoint} {location : String} :
    validateText points location = .ok () ↔ ∃ text, textOf points = some text := by
  unfold validateText
  cases textOf points with
  | none => simp
  | some text => simp

namespace Memory

variable {n : ℕ} {m : Memory n}

/-! ## What validation lets pass -/

theorem forall_mem_zipIdx {α : Type} {items : List α} {p : α → Prop} :
    (∀ child ∈ items.zipIdx, p child.1) ↔ ∀ item ∈ items, p item := by
  rw [← List.forall_mem_map (f := Prod.fst) (P := p), List.zipIdx_map_fst]

theorem mem_sortedMembers {α : Type} {members : List (List CodePoint × α)} {member : List CodePoint × α} :
    member ∈ sortedMembers members ↔ member ∈ members := (List.perm_insertionSort _ _).mem_iff

/-- The results of reading that have a property are those of reading each. -/
theorem exists_mapM_iff {α β : Type} {f : α → Option β} {p : β → Prop} {items : List α} :
    (∃ results, items.mapM f = some results ∧ ∀ result ∈ results, p result) ↔
      ∀ item ∈ items, ∃ result, f item = some result ∧ p result := by
  simp only [mapM_eq_some]
  induction items with
  | nil => simp
  | cons item items ih =>
      rw [List.forall_mem_cons, ← ih]
      constructor
      · rintro ⟨results, hresults, hall⟩
        cases hresults with
        | cons hfirst hothers =>
            rw [List.forall_mem_cons] at hall
            exact ⟨⟨_, hfirst, hall.1⟩, _, hothers, hall.2⟩
      · rintro ⟨⟨first, hfirst, hp⟩, others, hothers, hall⟩
        exact ⟨first :: others, .cons hfirst hothers, List.forall_mem_cons.mpr ⟨hp, hall⟩⟩

/-- A member of a dictionary with its key and its value read. -/
def readMember (m : Memory n) (active : Finset (Fin n)) (member : List CodePoint × Fin n) : Option (String × Json) := do
  let key ← textOf member.1
  let value ← m.read member.2 active
  some (key, value)

theorem readMember_eq_some {active : Finset (Fin n)} {member : List CodePoint × Fin n} {field : String × Json} :
    m.readMember active member = some field ↔
      textOf member.1 = some field.1 ∧ m.read member.2 active = some field.2 := by
  obtain ⟨key, value⟩ := field
  simp [readMember, Option.bind_eq_some_iff]

variable {identity : Fin n} {active : Finset (Fin n)}

theorem validateList_eq_ok {items : List (Fin n)} {location : String} (hobject : m.object identity = .list items)
    (ih : identity ∉ active → ∀ child location, m.validateValue child (insert identity active) location = .ok () ↔
      ∃ value, m.read child (insert identity active) = some value ∧ value.isCanonical = true) :
    m.validateList items active identity location = .ok () ↔
      ∃ value, m.read identity active = some value ∧ value.isCanonical = true := by
  rw [validateList, read, hobject]
  dsimp only
  by_cases hactive : identity ∈ active
  · simp [hactive]
  · rw [dif_neg hactive, dif_neg hactive, forM_eq_ok]
    simp only [ih hactive, Option.map_eq_some_iff]
    rw [@forall_mem_zipIdx _ items fun child ↦
      ∃ value, m.read child (insert identity active) = some value ∧ value.isCanonical = true, ← exists_mapM_iff]
    constructor
    · rintro ⟨values, hvalues, hall⟩
      refine ⟨.arr values, ⟨values, hvalues, rfl⟩, ?_⟩
      rw [isCanonical_arr, List.all_eq_true]
      exact hall
    · rintro ⟨value, ⟨values, hvalues, rfl⟩, hall⟩
      rw [isCanonical_arr, List.all_eq_true] at hall
      exact ⟨values, hvalues, hall⟩

theorem validateMapping_eq_ok {entries : List (Fin n × Fin n)} {location : String}
    (hobject : m.object identity = .dict entries)
    (ih : identity ∉ active → ∀ child location, m.validateValue child (insert identity active) location = .ok () ↔
      ∃ value, m.read child (insert identity active) = some value ∧ value.isCanonical = true) :
    m.validateMapping entries active identity location = .ok () ↔
      ∃ value, m.read identity active = some value ∧ value.isCanonical = true := by
  rw [validateMapping, read, hobject]
  dsimp only
  cases hmembers : m.members entries with
  | none => simp
  | some members =>
      dsimp only
      by_cases hactive : identity ∈ active
      · simp [hactive]
      · have hmember : ∀ child : (List CodePoint × Fin n) × ℕ,
            (do validateText child.1.1 (location ++ "/keys/" ++ toString child.2)
                m.validateValue child.1.2 (insert identity active) (location ++ "/members/" ++ toString child.2)) =
              .ok () ↔
            ∃ field, m.readMember (insert identity active) child.1 = some field ∧ field.2.isCanonical = true := by
          intro child
          rw [bind_eq_ok]
          constructor
          · rintro ⟨_, htext, hvalue⟩
            obtain ⟨key, hkey⟩ := validateText_eq_ok.mp htext
            obtain ⟨value, hread, hcanonical⟩ := (ih hactive _ _).mp hvalue
            exact ⟨(key, value), readMember_eq_some.mpr ⟨hkey, hread⟩, hcanonical⟩
          · rintro ⟨field, hfield, hcanonical⟩
            obtain ⟨hkey, hread⟩ := readMember_eq_some.mp hfield
            exact ⟨(), validateText_eq_ok.mpr ⟨_, hkey⟩, (ih hactive _ _).mpr ⟨_, hread, hcanonical⟩⟩
        rw [dif_neg hactive, dif_neg hactive, forM_eq_ok]
        simp only [hmember]
        rw [@forall_mem_zipIdx _ (sortedMembers members) fun member ↦
          ∃ field, m.readMember (insert identity active) member = some field ∧ field.2.isCanonical = true]
        simp only [mem_sortedMembers]
        rw [← exists_mapM_iff]
        constructor
        · rintro ⟨fields, hfields, hall⟩
          refine ⟨.obj fields, Option.bind_eq_some_iff.mpr ⟨members, rfl, ?_⟩, ?_⟩
          · exact Option.bind_eq_some_iff.mpr ⟨fields, hfields, rfl⟩
          · rw [isCanonical_obj, List.all_eq_true]
            exact hall
        · rintro ⟨value, hvalue, hall⟩
          obtain ⟨members', hmembers', hvalue⟩ := Option.bind_eq_some_iff.mp hvalue
          obtain rfl : members = members' := Option.some_inj.mp hmembers'
          obtain ⟨fields, hfields, hvalue⟩ := Option.bind_eq_some_iff.mp hvalue
          obtain rfl : Json.obj fields = value := Option.some_inj.mp hvalue
          rw [isCanonical_obj, List.all_eq_true] at hall
          exact ⟨fields, hfields, hall⟩

/-- Validation lets pass exactly the objects of a finite value that may be written. -/
theorem validateValue_eq_ok (m : Memory n) (identity : Fin n) (active : Finset (Fin n)) (location : String) :
    m.validateValue identity active location = .ok () ↔
      ∃ value, m.read identity active = some value ∧ value.isCanonical = true := by
  induction hrank : n - active.card using Nat.strong_induction_on generalizing identity active location with
  | _ rank ih =>
      have hinside : identity ∉ active → ∀ child location,
          m.validateValue child (insert identity active) location = .ok () ↔
            ∃ value, m.read child (insert identity active) = some value ∧ value.isCanonical = true :=
        fun hactive child location ↦ ih _ (hrank ▸ card_lt_of_notMem hactive) child _ location rfl
      rw [validateValue]
      cases hobject : m.object identity with
      | list items => exact validateList_eq_ok hobject hinside
      | dict entries => exact validateMapping_eq_ok hobject hinside
      | str points =>
          rw [read, hobject]
          simp only [validateText_eq_ok, Option.map_eq_some_iff]
          constructor
          · rintro ⟨text, htext⟩
            exact ⟨.str text, ⟨text, htext, rfl⟩, by simp [isCanonical]⟩
          · rintro ⟨_, ⟨text, htext, _⟩, _⟩
            exact ⟨text, htext⟩
      | int value =>
          rw [read, hobject]
          simp [validateInteger, isCanonical]
      | _ =>
          rw [read, hobject]
          simp [isCanonical]

/-! ## Keys -/

/-- The keys of a dictionary that is read are different texts. -/
theorem nodup_keys {entries : List (Fin n × Fin n)} (hobject : m.object identity = .dict entries)
    {members : List (List CodePoint × Fin n)} (hmembers : m.members entries = some members)
    {fields : List (String × Json)} (hfields : members.mapM (m.readMember active) = some fields) :
    (fields.map Prod.fst).Nodup := by
  have hkeys : entries.filterMap (fun entry ↦ (m.object entry.1).text?) = members.map Prod.fst := by
    have hforall := mapM_eq_some.mp hmembers
    clear hmembers hfields hobject
    induction hforall with
    | nil => rfl
    | cons hmember _ ih =>
        obtain ⟨key, hkey, rfl⟩ := Option.map_eq_some_iff.mp hmember
        simp only [List.filterMap_cons, hkey, ih, List.map_cons]
  have hnodup := m.keysOnce identity entries hobject
  rw [hkeys] at hnodup
  have hforall := mapM_eq_some.mp hfields
  clear hkeys hmembers hfields hobject
  induction hforall with
  | nil => exact List.nodup_nil
  | cons hfield hothers ih =>
      rw [List.map_cons, List.nodup_cons] at hnodup ⊢
      refine ⟨?_, ih hnodup.2⟩
      intro hmem
      obtain ⟨other, hother, hname⟩ := List.mem_map.mp hmem
      obtain ⟨member, hmember, hread⟩ := exists_of_forall₂_right hothers hother
      apply hnodup.1
      have hkey := (readMember_eq_some.mp hread).1
      rw [hname] at hkey
      rw [textOf_inj (readMember_eq_some.mp hfield).1 hkey]
      exact List.mem_map_of_mem hmember

/-- What is read of a memory holds each key once. -/
theorem keysOnce_of_read (m : Memory n) (identity : Fin n) (active : Finset (Fin n)) {value : Json}
    (h : m.read identity active = some value) : value.KeysOnce := by
  induction hrank : n - active.card using Nat.strong_induction_on generalizing identity active value with
  | _ rank ih =>
      have hinside (hactive : identity ∉ active) (child : Fin n) (value : Json)
          (hread : m.read child (insert identity active) = some value) : value.KeysOnce :=
        ih _ (hrank ▸ card_lt_of_notMem hactive) child _ hread rfl
      rw [read] at h
      cases hobject : m.object identity with
      | list items =>
          rw [hobject] at h
          dsimp only at h
          split at h
          · cases h
          · rename_i hactive
            obtain ⟨values, hvalues, rfl⟩ := Option.map_eq_some_iff.mp h
            rw [keysOnce_arr]
            intro value hvalue
            obtain ⟨child, -, hread⟩ := exists_of_forall₂_right (mapM_eq_some.mp hvalues) hvalue
            exact hinside hactive child value hread
      | dict entries =>
          rw [hobject] at h
          dsimp only at h
          split at h
          · cases h
          · rename_i hactive
            obtain ⟨members, hmembers, h⟩ := Option.bind_eq_some_iff.mp h
            obtain ⟨fields, hfields, h⟩ := Option.bind_eq_some_iff.mp h
            cases h
            rw [keysOnce_obj]
            refine ⟨nodup_keys hobject hmembers hfields, ?_⟩
            intro field hfield
            obtain ⟨member, -, hread⟩ := exists_of_forall₂_right (mapM_eq_some.mp hfields) hfield
            exact hinside hactive member.2 field.2 (readMember_eq_some.mp hread).2
      | str points =>
          rw [hobject] at h
          obtain ⟨text, -, rfl⟩ := Option.map_eq_some_iff.mp h
          simp [KeysOnce]
      | other =>
          rw [hobject] at h
          cases h
      | _ =>
          rw [hobject] at h
          cases h
          simp [KeysOnce]

/-! ## Canonical bytes -/

/-- The bytes of an object are those of the finite value that it is. -/
theorem canonicalJsonBytes_eq_ok {bytes : Bytes} :
    m.canonicalJsonBytes identity = .ok bytes ↔
      ∃ value, m.read identity ∅ = some value ∧ value.isCanonical = true ∧ bytes = compactJson value := by
  unfold canonicalJsonBytes
  rw [bind_eq_ok]
  constructor
  · rintro ⟨_, hvalidate, hbytes⟩
    obtain ⟨value, hread, hcanonical⟩ := (m.validateValue_eq_ok identity ∅ "$").mp hvalidate
    rw [hread] at hbytes
    cases hbytes
    exact ⟨value, hread, hcanonical, rfl⟩
  · rintro ⟨value, hread, hcanonical, rfl⟩
    refine ⟨(), (m.validateValue_eq_ok identity ∅ "$").mpr ⟨value, hread, hcanonical⟩, ?_⟩
    rw [hread]

end Memory

/-- `json.loads` of bytes that are decoded from UTF-8 -/
def loads (bytes : Bytes) : Option Json := do
  let text ← Base64.decodeUtf8 bytes
  Scanner.loads text.toList

theorem loads_compactJson {value : Json} (hcanonical : value.isCanonical = true) (honce : value.KeysOnce) :
    loads (compactJson value) = some (ordered value) := by
  unfold loads compactJson
  rw [Base64.decodeUtf8_utf8]
  change Scanner.loads (String.ofList (compactText value)).toList = _
  rw [String.toList_ofList]
  exact Scanner.loads_compactText hcanonical honce

/-- Values that may be written have the same bytes exactly when they are alike. -/
theorem compactJson_eq_iff {value other : Json} (hvalue : value.isCanonical = true) (hother : other.isCanonical = true)
    (honce : value.KeysOnce) (hotherOnce : other.KeysOnce) :
    compactJson value = compactJson other ↔ alike value other = true := by
  rw [alike_iff_ordered value other honce hotherOnce]
  constructor
  · intro h
    have hread := loads_compactJson hvalue honce
    rw [h, loads_compactJson hother hotherOnce] at hread
    exact (Option.some_inj.mp hread).symm
  · intro h
    unfold compactJson
    rw [← compactText_ordered value, h, compactText_ordered]

/-- The canonical bytes of an object are parsed as a value equal to it, and another object has these bytes exactly when
the two differ at most in the order of keys. -/
theorem canonical_json_faithful {n : ℕ} (m : Memory n) (identity : Fin n) {bytes : Bytes}
    (h : m.canonicalJsonBytes identity = .ok bytes) :
    ∃ value, m.read identity ∅ = some value ∧
      (∃ parsed, loads bytes = some parsed ∧ alike value parsed = true ∧ same value parsed = true) ∧
      ∀ {n' : ℕ} (m' : Memory n') (identity' : Fin n'),
        m'.canonicalJsonBytes identity' = .ok bytes ↔
          ∃ value', m'.read identity' ∅ = some value' ∧ alike value value' = true := by
  obtain ⟨value, hread, hcanonical, rfl⟩ := Memory.canonicalJsonBytes_eq_ok.mp h
  have honce := m.keysOnce_of_read identity ∅ hread
  have hordered : alike value (ordered value) = true := by
    rw [alike_iff_ordered value _ honce (keysOnce_ordered honce), ordered_ordered]
  refine ⟨value, hread, ⟨ordered value, loads_compactJson hcanonical honce, hordered, same_of_alike _ _ hordered⟩, ?_⟩
  intro n' m' identity'
  rw [Memory.canonicalJsonBytes_eq_ok]
  constructor
  · rintro ⟨value', hread', hcanonical', hbytes⟩
    have honce' := m'.keysOnce_of_read identity' ∅ hread'
    exact ⟨value', hread', (compactJson_eq_iff hcanonical hcanonical' honce honce').mp hbytes⟩
  · rintro ⟨value', hread', halike⟩
    have honce' := m'.keysOnce_of_read identity' ∅ hread'
    have hcanonical' : value'.isCanonical = true := by
      rw [← isCanonical_ordered, ← (alike_iff_ordered value value' honce honce').mp halike, isCanonical_ordered]
      exact hcanonical
    exact ⟨value', hread', hcanonical', (compactJson_eq_iff hcanonical hcanonical' honce honce').mpr halike⟩

/-! ## A memory -/

/-- `{"b": "a", "a": 1}`, of which one text is a key and a value. -/
def sampleObject : Fin 4 → Object 4
  | 0 => .dict [(1, 2), (2, 3)]
  | 1 => .str [98]
  | 2 => .str [97]
  | 3 => .int 1

def sampleMemory : Memory 4 where
  object := sampleObject
  keysOnce := by
    intro identity entries h
    match identity with
    | 0 =>
        cases h
        decide
    | 1 => cases h
    | 2 => cases h
    | 3 => cases h

theorem sampleMemory_read :
    sampleMemory.read 0 ∅ = some (.obj [("b", .str "a"), ("a", .int 1)]) := by
  have hmembers : sampleMemory.members [(1, 2), (2, 3)] = some [([98], 2), ([97], 3)] := by decide
  have hb : textOf [98] = some "b" := by decide
  have ha : textOf [97] = some "a" := by decide
  have htext : sampleMemory.read 2 (insert 0 ∅) = some (.str "a") := by
    rw [Memory.read]
    change (textOf [97]).map Json.str = _
    rw [ha, Option.map_some]
  have hnumber : sampleMemory.read 3 (insert 0 ∅) = some (.int 1) := by
    rw [Memory.read]
    rfl
  rw [Memory.read]
  change (if _h : (0 : Fin 4) ∈ (∅ : Finset (Fin 4)) then none else _) = _
  rw [dif_neg (by decide)]
  change (sampleMemory.members [(1, 2), (2, 3)] >>= fun members ↦
    members.mapM (sampleMemory.readMember (insert 0 ∅)) >>= fun fields ↦ some (Json.obj fields)) = _
  have hfirst : sampleMemory.readMember (insert 0 ∅) ([98], 2) = some ("b", .str "a") :=
    Memory.readMember_eq_some.mpr ⟨hb, htext⟩
  have hsecond : sampleMemory.readMember (insert 0 ∅) ([97], 3) = some ("a", .int 1) :=
    Memory.readMember_eq_some.mpr ⟨ha, hnumber⟩
  have hfields : [(([98] : List CodePoint), (2 : Fin 4)), ([97], 3)].mapM (sampleMemory.readMember (insert 0 ∅)) =
      some [("b", .str "a"), ("a", .int 1)] := by
    rw [List.mapM_cons, hfirst, List.mapM_cons, hsecond]
    rfl
  rw [hmembers]
  change ([(([98] : List CodePoint), (2 : Fin 4)), ([97], 3)].mapM (sampleMemory.readMember (insert 0 ∅)) >>= _) = _
  rw [hfields]
  rfl

theorem sampleMemory_bytes :
    sampleMemory.canonicalJsonBytes 0 = .ok (utf8 "\x7b\"a\":1,\"b\":\"a\"\x7d".toList) :=
  Memory.canonicalJsonBytes_eq_ok.mpr ⟨_, sampleMemory_read, by decide, by decide⟩

theorem sample_faithful :
    ∃ value, sampleMemory.read 0 ∅ = some value ∧
      (∃ parsed, loads (utf8 "\x7b\"a\":1,\"b\":\"a\"\x7d".toList) = some parsed ∧ alike value parsed = true ∧
        same value parsed = true) ∧
      ∀ {n' : ℕ} (m' : Memory n') (identity' : Fin n'),
        m'.canonicalJsonBytes identity' = .ok (utf8 "\x7b\"a\":1,\"b\":\"a\"\x7d".toList) ↔
          ∃ value', m'.read identity' ∅ = some value' ∧ alike value value' = true :=
  canonical_json_faithful sampleMemory 0 sampleMemory_bytes

end WorkStack.Storage.Canonical
