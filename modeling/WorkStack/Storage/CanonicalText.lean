import WorkStack.Python.JsonScanner
import WorkStack.Storage.KeyOrder

/-!
# Reading canonical text back

The compact text of a value that may be written is read as the value with its keys in order. Every number in it is
an integer and every object of it holds each key once, so nothing is lost on the way.
-/

open WorkStack.Json

namespace WorkStack.Python.Scanner

/-! ## What values start with -/

/-- The first character of a text that stands for a value. -/
def StartsValue (text : List Char) : Prop :=
  ∃ c rest, text = c :: rest ∧ isBlank c = false ∧ c ≠ ']' ∧ c ≠ '}'

theorem StartsValue.starts {text : List Char} (h : StartsValue text) : Starts text := by
  obtain ⟨c, rest, htext, hblank, -⟩ := h
  exact ⟨c, rest, htext, hblank⟩

theorem StartsValue.head?_ne {text : List Char} (h : StartsValue text) :
    text.head? ≠ some ']' ∧ text.head? ≠ some '}' := by
  obtain ⟨c, rest, rfl, -, hbracket, hbrace⟩ := h
  constructor
  · simpa using hbracket
  · simpa using hbrace

theorem startsValue_quoted (text : String) (rest : List Char) : StartsValue (quoted text ++ rest) :=
  ⟨'"', _, rfl, by decide, by decide, by decide⟩

theorem isBlank_of_isDigit {c : Char} (h : c.isDigit = true) : isBlank c = false := by
  have hne (d : Char) (hd : d.isDigit = false) : ¬ c = d := by
    rintro rfl
    rw [h] at hd
    cases hd
  simp only [isBlank, hne ' ' rfl, hne '\t' rfl, hne '\n' rfl, hne '\r' rfl, decide_false, Bool.or_false]

theorem startsValue_toString (value : ℤ) : StartsValue (toString value).toList := by
  cases htext : (toString value).toList with
  | nil =>
      cases value with
      | ofNat n =>
          rw [toList_toString_ofNat] at htext
          exact absurd htext Nat.toDigits_ne_nil
      | negSucc n =>
          rw [toList_toString_negSucc] at htext
          cases htext
  | cons c rest =>
      have hc : c.isDigit ∨ c = '-' := isDigit_of_mem_toString (htext ▸ List.mem_cons_self ..)
      refine ⟨c, rest, rfl, ?_⟩
      rcases hc with hdigit | rfl
      · refine ⟨?_, ?_, ?_⟩
        · exact isBlank_of_isDigit hdigit
        · rintro rfl
          cases hdigit
        · rintro rfl
          cases hdigit
      · decide

theorem startsValue_compactText {value : Json} (h : value.isCanonical = true) : StartsValue (compactText value) := by
  cases value with
  | null => exact ⟨'n', _, by simp [compactText, leaf]; rfl, by decide, by decide, by decide⟩
  | bool b =>
      cases b with
      | true => exact ⟨'t', _, by simp [compactText, leaf]; rfl, by decide, by decide, by decide⟩
      | false => exact ⟨'f', _, by simp [compactText, leaf]; rfl, by decide, by decide, by decide⟩
  | int value =>
      have htext : compactText (.int value) = (toString value).toList := by simp [compactText, leaf]
      rw [htext]
      exact startsValue_toString value
  | float lexeme => simp [isCanonical] at h
  | str text =>
      rw [compactText_str]
      exact ⟨'"', _, rfl, by decide, by decide, by decide⟩
  | arr items =>
      rw [compactText_arr]
      exact ⟨'[', _, rfl, by decide, by decide, by decide⟩
  | obj fields =>
      rw [compactText_obj]
      exact ⟨'\x7b', _, rfl, by decide, by decide, by decide⟩

/-! ## Dictionaries -/

/-- Pairs of different names make the dictionary of these pairs. -/
theorem dictOf_of_nodup {pairs : List (String × Json)} (h : (pairs.map Prod.fst).Nodup) : dictOf pairs = pairs := by
  have hall : ∀ front : List (String × Json), ((front ++ pairs).map Prod.fst).Nodup →
      pairs.foldl (fun fields pair ↦ Dict.set pair.1 pair.2 fields) front = front ++ pairs := by
    clear h
    induction pairs with
    | nil =>
        intro front _
        rw [List.append_nil]
        rfl
    | cons pair pairs ih =>
        intro front hnodup
        have hnone : Dict.get front pair.1 = none := by
          rw [List.map_append, List.nodup_append] at hnodup
          rw [← Option.not_isSome_iff_eq_none, ← Dict.mem_keys]
          intro hmem
          exact hnodup.2.2 pair.1 hmem pair.1 (List.mem_cons_self ..) rfl
        rw [List.foldl_cons, Dict.set_of_get_none hnone, ih (front ++ [(pair.1, pair.2)]) (by simpa using hnodup),
          List.append_assoc]
        rfl
  exact hall [] h

/-! ## Values -/

/-- What a field of an object is written as is read as that field. -/
theorem field_member {element : List Char → Option (Json × List Char)} {entry : String × Json} {found : Json}
    (hvalue : entry.2.isCanonical = true)
    (h : ∀ rest, Closes rest → element (compactText entry.2 ++ rest) = some (found, rest)) {rest : List Char}
    (hrest : Closes rest) : field element (member entry ++ rest) = some ((entry.1, found), rest) := by
  have htext : member entry ++ rest =
      '"' :: (entry.1.toList.flatMap escapeChar ++ '"' :: (':' :: (compactText entry.2 ++ rest))) := by
    simp [member, quoted]
  have hskip := ((startsValue_compactText hvalue).starts.append rest).skip_eq
  rw [htext]
  simp only [field, string_quoted, Option.bind_eq_bind, Option.bind_some,
    skip_cons (show isBlank ':' = false by decide), hskip, h rest hrest, if_pos]

theorem length_le_joined_of_mem {part : List Char} {parts : List (List Char)} (h : part ∈ parts) :
    part.length ≤ (joined [','] parts).length := by
  unfold joined
  induction parts with
  | nil => cases h
  | cons first parts ih =>
      cases parts with
      | nil =>
          rw [List.mem_singleton] at h
          rw [h, List.intercalate_singleton]
      | cons next parts =>
          rw [List.intercalate_cons_cons, List.length_append, List.length_append]
          rcases List.mem_cons.mp h with rfl | h
          · omega
          · have hle := ih h
            omega

/-- The text of a value that may be written is read as the value with its keys in order. -/
theorem value_compactText (value : Json) : ∀ {fuel : ℕ} {rest : List Char}, value.isCanonical = true → value.KeysOnce →
    (compactText value).length < fuel → Closes rest →
    Scanner.value fuel (compactText value ++ rest) = some (ordered value, rest) := by
  induction value using inductOn with
  | null =>
      intro fuel rest _ _ hfuel _
      obtain ⟨fuel, rfl⟩ := Nat.exists_eq_add_of_lt hfuel
      have htext : compactText .null = "null".toList := by simp [compactText, leaf]
      rw [htext]
      rfl
  | bool b =>
      intro fuel rest _ _ hfuel _
      obtain ⟨fuel, rfl⟩ := Nat.exists_eq_add_of_lt hfuel
      cases b with
      | true =>
          have htext : compactText (.bool true) = "true".toList := by simp [compactText, leaf]
          rw [htext]
          rfl
      | false =>
          have htext : compactText (.bool false) = "false".toList := by simp [compactText, leaf]
          rw [htext]
          rfl
  | int value =>
      intro fuel rest _ _ hfuel hrest
      obtain ⟨fuel, rfl⟩ := Nat.exists_eq_add_of_lt hfuel
      have htext : compactText (.int value) = (toString value).toList := by simp [compactText, leaf]
      have hliteral := literal_toString value rest
      have hnumber := number_toString value hrest
      rw [htext]
      cases hdigits : (toString value).toList with
      | nil =>
          obtain ⟨c, others, hstart, -⟩ := startsValue_toString value
          rw [hdigits] at hstart
          cases hstart
      | cons c others =>
          have hc : c.isDigit ∨ c = '-' := isDigit_of_mem_toString (hdigits ▸ List.mem_cons_self ..)
          have hopens : c ≠ '"' ∧ c ≠ '[' ∧ c ≠ '\x7b' := by
            rcases hc with hdigit | rfl
            · refine ⟨?_, ?_, ?_⟩
              all_goals
                rintro rfl
                cases hdigit
            · decide
          rw [hdigits, List.cons_append] at hliteral hnumber
          rw [List.cons_append, Scanner.value, if_neg hopens.1, if_neg hopens.2.1, if_neg hopens.2.2, hliteral, hnumber]
          rfl
  | float lexeme =>
      intro fuel rest hcanonical _ _ _
      simp [isCanonical] at hcanonical
  | str text =>
      intro fuel rest _ _ hfuel _
      obtain ⟨fuel, rfl⟩ := Nat.exists_eq_add_of_lt hfuel
      have htext : compactText (.str text) ++ rest = '"' :: (text.toList.flatMap escapeChar ++ '"' :: rest) := by
        rw [compactText_str]
        simp
      rw [htext, Scanner.value, if_pos rfl, string_quoted]
      rfl
  | arr items ih =>
      intro fuel rest hcanonical honce hfuel _
      rw [isCanonical_arr, List.all_eq_true] at hcanonical
      rw [keysOnce_arr] at honce
      rw [compactText_arr, List.length_cons, List.length_append, List.length_singleton] at hfuel
      obtain ⟨fuel, rfl⟩ : ∃ k, fuel = k + 1 := ⟨fuel - 1, by omega⟩
      have hstarts (item : Json) (hitem : item ∈ items) := startsValue_compactText (hcanonical item hitem)
      have hread : ∀ item ∈ items, ∀ rest, Closes rest →
          Scanner.value fuel (compactText item ++ rest) = some (ordered item, rest) := by
        intro item hitem rest hrest
        have hle := length_le_joined_of_mem (List.mem_map_of_mem (f := compactText) hitem)
        exact ih item hitem (hcanonical item hitem) (honce item hitem) (by omega) hrest
      have hitems := enclosed_joined (.inl rfl) items (fun item hitem ↦ (hstarts item hitem).starts)
        (fun item hitem ↦ (hstarts item hitem).head?_ne.1) hread rest
      have htext : compactText (.arr items) ++ rest = '[' :: (joined [','] (items.map compactText) ++ ']' :: rest) := by
        rw [compactText_arr]
        simp
      rw [htext, Scanner.value, if_neg (by decide), if_pos rfl, hitems, ordered_arr]
      rfl
  | obj fields ih =>
      intro fuel rest hcanonical honce hfuel _
      rw [isCanonical_obj, List.all_eq_true] at hcanonical
      rw [keysOnce_obj] at honce
      rw [compactText_obj, List.length_cons, List.length_append, List.length_singleton] at hfuel
      obtain ⟨fuel, rfl⟩ : ∃ k, fuel = k + 1 := ⟨fuel - 1, by omega⟩
      have hstarts (entry : String × Json) : StartsValue (member entry) := startsValue_quoted entry.1 _
      have hread : ∀ entry ∈ sortFields fields, ∀ rest, Closes rest →
          field (Scanner.value fuel) (member entry ++ rest) = some ((entry.1, ordered entry.2), rest) := by
        intro entry hentry rest hrest
        have hmem := mem_sortFields.1 hentry
        have hle := length_le_joined_of_mem (List.mem_map_of_mem (f := member) hentry)
        have hshort : (compactText entry.2).length < (member entry).length := by
          rw [member, List.length_append, List.length_cons]
          omega
        exact field_member (hcanonical entry hmem)
          (fun rest ↦ ih entry hmem (hcanonical entry hmem) (honce.2 entry hmem) (by omega)) hrest
      have hfields := enclosed_joined (.inr rfl) (sortFields fields) (fun entry _ ↦ (hstarts entry).starts)
        (fun entry _ ↦ (hstarts entry).head?_ne.2) hread rest
      have htext : compactText (.obj fields) ++ rest =
          '\x7b' :: (joined [','] ((sortFields fields).map member) ++ '\x7d' :: rest) := by
        rw [compactText_obj]
        simp
      have hnodup : (((sortFields fields).map fun entry ↦ (entry.1, ordered entry.2)).map Prod.fst).Nodup := by
        rw [List.map_map]
        exact ((sortFields_perm_self fields).map Prod.fst).nodup_iff.2 honce.1
      rw [htext, Scanner.value, if_neg (by decide), if_neg (by decide), if_pos rfl, hfields, ordered_obj]
      simp only [Option.map_some, dictOf_of_nodup hnodup]

/-- Canonical text is read as the value it was made of, with its keys in order. -/
theorem loads_compactText {value : Json} (hcanonical : value.isCanonical = true) (honce : value.KeysOnce) :
    loads (compactText value) = some (ordered value) := by
  have hskip := (startsValue_compactText hcanonical).starts.skip_eq
  have hread := value_compactText value hcanonical honce (Nat.lt_succ_self _) closes_nil
  rw [List.append_nil] at hread
  simp only [loads, hskip, Option.bind_eq_bind]
  rw [hread]
  rfl

end WorkStack.Python.Scanner
