import Mathlib
import WorkStack.Json
import WorkStack.Python.Text

/-!
# Texts of flat records

The compact text of a record can be taken apart again: a string ends at its first quote that is not escaped,
and every other value that holds no value ends at the comma or the brace after it. So two flat records under
the same names, in one order, that have the same text have the same texts field by field.
-/

namespace WorkStack.Json

/-! ## Strings -/

/-- The value of a hexadecimal digit. -/
def hexValue (c : Char) : ℕ := if c.isDigit then c.toNat - 48 else c.toNat - 87

/-- The first character of the body of a string, and what is left of it. -/
def unescape : List Char → Option (Char × List Char)
  | '\\' :: 'u' :: '0' :: '0' :: high :: low :: rest => some (Char.ofNat (16 * hexValue high + hexValue low), rest)
  | '\\' :: 'n' :: rest => some ('\n', rest)
  | '\\' :: 'r' :: rest => some ('\r', rest)
  | '\\' :: 't' :: rest => some ('\t', rest)
  | '\\' :: 'b' :: rest => some (Char.ofNat 8, rest)
  | '\\' :: 'f' :: rest => some (Char.ofNat 12, rest)
  | '\\' :: c :: rest => some (c, rest)
  | c :: rest => some (c, rest)
  | [] => none

theorem unescape_control (n : ℕ) (h : n < 32) (rest : List Char) :
    unescape (escapeChar (Char.ofNat n) ++ rest) = some (Char.ofNat n, rest) := by
  interval_cases n <;> rfl

theorem unescape_escapeChar (c : Char) (rest : List Char) : unescape (escapeChar c ++ rest) = some (c, rest) := by
  by_cases hcontrol : c.toNat < 32
  · have h := unescape_control c.toNat hcontrol rest
    rwa [Char.ofNat_toNat] at h
  · by_cases hquote : c = '"'
    · rw [hquote]
      rfl
    · by_cases hslash : c = '\\'
      · rw [hslash]
        rfl
      · have hne : ∀ d : Char, d.toNat < 32 → c ≠ d := by
          rintro d hd rfl
          exact hcontrol hd
        have hplain : escapeChar c = [c] := by
          unfold escapeChar
          rw [if_neg hquote, if_neg hslash, if_neg (hne _ (by decide)), if_neg (hne _ (by decide)),
            if_neg (hne _ (by decide)), if_neg (by omega), if_neg (by omega), if_neg hcontrol]
        rw [hplain, List.singleton_append]
        unfold unescape
        split
        all_goals simp_all

theorem escapeChar_ne_quote (c : Char) (rest rest' : List Char) : escapeChar c ++ rest ≠ '"' :: rest' := by
  intro h
  have hread := unescape_escapeChar c rest
  rw [h] at hread
  have hc : c = '"' := by
    change some ('"', rest') = some (c, rest) at hread
    exact (congrArg Prod.fst (Option.some.inj hread)).symm
  rw [hc] at h
  exact absurd (List.head_eq_of_cons_eq h) (by decide)

/-- A string ends at its first quote that is not escaped. -/
theorem quoted_cancel {text text' : List Char} {rest rest' : List Char}
    (h : text.flatMap escapeChar ++ '"' :: rest = text'.flatMap escapeChar ++ '"' :: rest') :
    text = text' ∧ rest = rest' := by
  induction text generalizing text' with
  | nil =>
      cases text' with
      | nil => exact ⟨rfl, List.tail_eq_of_cons_eq h⟩
      | cons c' text' =>
          rw [List.flatMap_cons, List.append_assoc] at h
          exact absurd h.symm (escapeChar_ne_quote c' _ _)
  | cons c text ih =>
      cases text' with
      | nil =>
          rw [List.flatMap_cons, List.append_assoc] at h
          exact absurd h (escapeChar_ne_quote c _ _)
      | cons c' text' =>
          rw [List.flatMap_cons, List.flatMap_cons, List.append_assoc, List.append_assoc] at h
          have hread := unescape_escapeChar c (text.flatMap escapeChar ++ '"' :: rest)
          rw [h, unescape_escapeChar, Option.some.injEq, Prod.mk.injEq] at hread
          obtain ⟨htext, hrest⟩ := ih hread.2.symm
          exact ⟨by rw [hread.1, htext], hrest⟩

/-! ## Values that hold no value -/

/-- A value that holds no other value and is written without a point. -/
def isScalar : Json → Bool
  | null => true
  | bool _ => true
  | int _ => true
  | str _ => true
  | _ => false

/-- What ends a value in a record. -/
def isDelimiter (c : Char) : Bool := c == ',' || c == '}'

theorem compactText_str (text : String) : compactText (.str text) = '"' :: (text.toList.flatMap escapeChar ++ ['"']) := by
  simp [compactText, leaf, quoted]

theorem compactText_str_injective {text text' : String} (h : compactText (.str text) = compactText (.str text')) :
    text = text' := by
  rw [compactText_str, compactText_str] at h
  exact String.toList_injective (quoted_cancel (List.tail_eq_of_cons_eq h)).1

/-- A number, a truth value or nothing is written without quotes and delimiters. -/
theorem toList_toString_ofNat (n : ℕ) : (toString (Int.ofNat n)).toList = Nat.toDigits 10 n := Nat.toList_repr

theorem toList_toString_negSucc (n : ℕ) : (toString (Int.negSucc n)).toList = '-' :: Nat.toDigits 10 (n + 1) := by
  change ("-" ++ Nat.repr (n + 1)).toList = _
  rw [String.toList_append, Nat.toList_repr]
  rfl

/-- A number is written with digits and a sign. -/
theorem isDigit_of_mem_toString {number : ℤ} {c : Char} (h : c ∈ (toString number).toList) : c.isDigit ∨ c = '-' := by
  cases number with
  | ofNat n =>
      rw [toList_toString_ofNat] at h
      exact .inl (Nat.isDigit_of_mem_toDigits (by omega) (by omega) h)
  | negSucc n =>
      rw [toList_toString_negSucc, List.mem_cons] at h
      rcases h with rfl | h
      · exact .inr rfl
      · exact .inl (Nat.isDigit_of_mem_toDigits (by omega) (by omega) h)

theorem compactText_bare {value : Json} (h : value.isScalar = true) (hbare : ∀ text, value ≠ .str text) :
    ∀ c ∈ compactText value, c ≠ '"' ∧ isDelimiter c = false := by
  cases value with
  | null =>
      have htext : compactText null = "null".toList := by simp [compactText, leaf]
      rw [htext]
      exact Python.forall_of_all (by decide)
  | bool flag =>
      have htext : compactText (bool flag) = leaf (bool flag) := by simp [compactText]
      rw [htext]
      cases flag <;> exact Python.forall_of_all (by decide)
  | int number =>
      have htext : compactText (int number) = (toString number).toList := by simp [compactText, leaf]
      rw [htext]
      intro c hc
      rcases isDigit_of_mem_toString hc with hdigit | rfl
      · constructor
        · rintro rfl
          exact absurd hdigit (by decide)
        · rw [isDelimiter, Bool.or_eq_false_iff, beq_eq_false_iff_ne, beq_eq_false_iff_ne]
          constructor
          · rintro rfl
            exact absurd hdigit (by decide)
          · rintro rfl
            exact absurd hdigit (by decide)
      · decide
  | str text => exact absurd rfl (hbare text)
  | float lexeme => cases h
  | arr items => cases h
  | obj fields => cases h

/-- Texts that end at the first character of a kind are told apart from what follows them. -/
theorem append_cancel_of_stops {α : Type} {stops : α → Bool} {text text' rest rest' : List α}
    (htext : ∀ c ∈ text, stops c = false) (htext' : ∀ c ∈ text', stops c = false)
    (hrest : ∃ c tail, rest = c :: tail ∧ stops c = true) (hrest' : ∃ c tail, rest' = c :: tail ∧ stops c = true)
    (h : text ++ rest = text' ++ rest') : text = text' ∧ rest = rest' := by
  have htake {text rest : List α} (htext : ∀ c ∈ text, stops c = false)
      (hrest : ∃ c tail, rest = c :: tail ∧ stops c = true) :
      (text ++ rest).takeWhile (fun c ↦ !stops c) = text := by
    obtain ⟨c, tail, rfl, hc⟩ := hrest
    rw [List.takeWhile_append_of_pos (by simpa using htext), List.takeWhile_cons_of_neg (by simp [hc]),
      List.append_nil]
  have hsame : text = text' := by rw [← htake htext hrest, h, htake htext' hrest']
  rw [hsame] at h
  exact ⟨hsame, List.append_cancel_left h⟩

/-- A value of a record is told apart from what follows it. -/
theorem compactText_cancel {value value' : Json} (hvalue : value.isScalar = true) (hvalue' : value'.isScalar = true)
    {rest rest' : List Char} (hrest : ∃ c tail, rest = c :: tail ∧ isDelimiter c = true)
    (hrest' : ∃ c tail, rest' = c :: tail ∧ isDelimiter c = true)
    (h : compactText value ++ rest = compactText value' ++ rest') :
    compactText value = compactText value' ∧ rest = rest' := by
  have hmixed {text : String} {other : Json} {rest rest' : List Char} (hother : other.isScalar = true)
      (hbare : ∀ text, other ≠ .str text) (hrest : ∃ c tail, rest = c :: tail ∧ isDelimiter c = true) :
      compactText (.str text) ++ rest' ≠ compactText other ++ rest := by
    intro hsame
    rw [compactText_str, List.cons_append] at hsame
    cases htext : compactText other with
    | nil =>
        obtain ⟨c, tail, rfl, hc⟩ := hrest
        rw [htext, List.nil_append] at hsame
        rw [← List.head_eq_of_cons_eq hsame] at hc
        exact absurd hc (by decide)
    | cons c tail =>
        have hquote := (compactText_bare hother hbare c (by rw [htext]; exact List.mem_cons_self ..)).1
        rw [htext, List.cons_append] at hsame
        exact hquote (List.head_eq_of_cons_eq hsame).symm
  by_cases hstr : ∃ text, value = .str text
  · obtain ⟨text, rfl⟩ := hstr
    by_cases hstr' : ∃ text', value' = .str text'
    · obtain ⟨text', rfl⟩ := hstr'
      rw [compactText_str, compactText_str, List.cons_append, List.cons_append, List.append_assoc,
        List.append_assoc] at h
      obtain ⟨htext, hrest⟩ := quoted_cancel (List.tail_eq_of_cons_eq h)
      rw [compactText_str, compactText_str, htext]
      exact ⟨rfl, hrest⟩
    · exact absurd h (hmixed hvalue' (fun text' heq ↦ hstr' ⟨text', heq⟩) hrest')
  · by_cases hstr' : ∃ text', value' = .str text'
    · obtain ⟨text', rfl⟩ := hstr'
      exact absurd h.symm (hmixed hvalue (fun text heq ↦ hstr ⟨text, heq⟩) hrest)
    · exact append_cancel_of_stops (fun c hc ↦ (compactText_bare hvalue (fun text heq ↦ hstr ⟨text, heq⟩) c hc).2)
        (fun c hc ↦ (compactText_bare hvalue' (fun text heq ↦ hstr' ⟨text, heq⟩) c hc).2) hrest hrest' h

/-! ## Records -/

/-- The text of a field. -/
def fieldText (field : String × Json) : List Char := quoted field.1 ++ ':' :: compactText field.2

theorem joined_cancel {fields fields' : List (String × Json)} (hnames : fields.map Prod.fst = fields'.map Prod.fst)
    (hscalar : ∀ field ∈ fields, field.2.isScalar = true) (hscalar' : ∀ field ∈ fields', field.2.isScalar = true)
    (h : joined [','] (fields.map fieldText) ++ ['}'] = joined [','] (fields'.map fieldText) ++ ['}']) :
    fields.map (fun field ↦ compactText field.2) = fields'.map fun field ↦ compactText field.2 := by
  induction fields generalizing fields' with
  | nil =>
      rw [List.map_nil, eq_comm, List.map_eq_nil_iff] at hnames
      rw [hnames]
  | cons field fields ih =>
      cases fields' with
      | nil => cases hnames
      | cons field' fields' =>
          obtain ⟨hname, hnames⟩ := List.cons_eq_cons.mp hnames
          obtain ⟨hfield, hfields⟩ := List.forall_mem_cons.mp hscalar
          obtain ⟨hfield', hfields'⟩ := List.forall_mem_cons.mp hscalar'
          cases fields with
          | nil =>
              have hnil : fields' = [] := List.map_eq_nil_iff.mp hnames.symm
              subst hnil
              simp only [joined, List.map_cons, List.map_nil, List.intercalate_singleton, fieldText, hname,
                List.append_assoc, List.append_cancel_left_eq, List.cons_append, List.cons.injEq, true_and] at h
              simp only [List.map_cons, List.map_nil, List.append_cancel_right h]
          | cons next fields =>
              cases fields' with
              | nil => cases hnames
              | cons next' fields' =>
                  have hsplit (first second : String × Json) (rest : List (String × Json)) :
                      joined [','] ((first :: second :: rest).map fieldText) ++ ['}'] =
                        quoted first.1 ++ ':' :: (compactText first.2 ++
                          ',' :: (joined [','] ((second :: rest).map fieldText) ++ ['}'])) := by
                    simp [joined, List.intercalate_cons_cons, fieldText]
                  rw [hsplit, hsplit, hname] at h
                  obtain ⟨htext, hrest⟩ := compactText_cancel hfield hfield' ⟨_, _, rfl, rfl⟩ ⟨_, _, rfl, rfl⟩
                    (List.tail_eq_of_cons_eq (List.append_cancel_left h))
                  have htail := ih hnames hfields hfields' (List.tail_eq_of_cons_eq hrest)
                  rw [List.map_cons, htext, htail]
                  rfl

/-- Flat records under the same names, in the order of the text, that have the same text have the same texts
field by field. -/
theorem compactText_obj_cancel {fields fields' : List (String × Json)}
    (hnames : fields.map Prod.fst = fields'.map Prod.fst)
    (hsorted : (fields.map Prod.fst).Pairwise fun a b ↦ a.toList ≤ b.toList)
    (hscalar : ∀ field ∈ fields, field.2.isScalar = true) (hscalar' : ∀ field ∈ fields', field.2.isScalar = true)
    (h : compactText (.obj fields) = compactText (.obj fields')) :
    fields.map (fun field ↦ compactText field.2) = fields'.map fun field ↦ compactText field.2 := by
  have htext {fields : List (String × Json)}
      (hsorted : (fields.map Prod.fst).Pairwise fun a b ↦ a.toList ≤ b.toList) :
      compactText (.obj fields) = '{' :: (joined [','] (fields.map fieldText) ++ ['}']) := by
    have hpairs : compactFields fields = fields.map fun field ↦ (field.1, compactText field.2) := by
      induction fields with
      | nil => rfl
      | cons field fields ih =>
          rw [compactFields, ih (List.pairwise_cons.mp hsorted).2, compactField, List.map_cons]
    have hsort : sortFields (fields.map fun field ↦ (field.1, compactText field.2)) =
        fields.map fun field ↦ (field.1, compactText field.2) := by
      apply List.Pairwise.insertionSort_eq
      rw [List.pairwise_map] at hsorted ⊢
      exact hsorted
    rw [compactText, hpairs, hsort, List.map_map]
    rfl
  rw [htext hsorted, htext (by rw [← hnames]; exact hsorted)] at h
  exact joined_cancel hnames hscalar hscalar' (List.tail_eq_of_cons_eq h)

end WorkStack.Json
