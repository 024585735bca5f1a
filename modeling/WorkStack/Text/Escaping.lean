import Mathlib

/-!
# Escaped texts

A text is made inert character by character: some characters are given by name, others stand behind a
backslash, and all others stand for themselves. No name and no unmarked character holds a backslash, so the
backslashes of an escaped text are the ones that escape and the ones that are escaped, and which is which
shows in the number of backslashes before.
-/

namespace WorkStack.Text.Escaping

/-! ## Parts of a concatenation -/

/-- An item of a concatenation stands in one of its parts. -/
theorem exists_part {α β : Type} {f : α → List β} {items : List α} {front back : List β} {b : β}
    (h : items.flatMap f = front ++ b :: back) :
    ∃ before item after left right, items = before ++ item :: after ∧ f item = left ++ b :: right ∧
      front = before.flatMap f ++ left ∧ back = right ++ after.flatMap f := by
  induction items generalizing front with
  | nil => simp at h
  | cons item items ih =>
      rw [List.flatMap_cons, List.append_eq_append_iff] at h
      rcases h with ⟨left, hfront, hrest⟩ | ⟨right, hitem, hback⟩
      · obtain ⟨before, other, after, left', right, hitems, hother, hleft, hback⟩ := ih hrest
        refine ⟨item :: before, other, after, left', right, by rw [hitems, List.cons_append], hother, ?_, hback⟩
        rw [hfront, hleft, List.flatMap_cons, List.append_assoc]
      · cases right with
        | nil =>
            rw [List.nil_append] at hback
            obtain ⟨before, other, after, left', right, hitems, hother, hleft, hback'⟩ := @ih [] hback.symm
            refine ⟨item :: before, other, after, left', right, by rw [hitems, List.cons_append], hother, ?_, hback'⟩
            rw [List.flatMap_cons, List.append_assoc, ← hleft, hitem, List.append_nil, List.append_nil]
        | cons c right =>
            rw [List.cons_append, List.cons.injEq] at hback
            obtain ⟨rfl, hback⟩ := hback
            exact ⟨[], item, items, front, right, rfl, hitem, rfl, hback⟩

/-! ## Runs of backslashes -/

/-- The backslashes that a text ends with. -/
def run (text : List Char) : ℕ := (text.reverse.takeWhile (· == '\\')).length

variable {c : Char}

theorem run_concat_of_ne (hc : c ≠ '\\') (text : List Char) : run (text ++ [c]) = 0 := by
  simp [run, hc]

@[simp] theorem run_concat (text : List Char) : run (text ++ ['\\']) = run text + 1 := by
  simp [run]

/-! ## Escaping and reading back -/

/-- Which characters have names and which are marked with a backslash. -/
structure Table where
  names : List (Char × List Char)
  marked : Char → Bool
  /-- The character that every name begins with. -/
  sign : Char
  name_eq : ∀ c name, (c, name) ∈ names → ∃ rest, name = sign :: rest ∧ sign ∉ rest
  sign_named : sign ∈ names.map Prod.fst
  marked_named : ∀ c, marked c = true → c ∉ names.map Prod.fst
  marked_backslash : marked '\\' = true
  backslash_not_mem : ∀ c name, (c, name) ∈ names → '\\' ∉ name
  eq_of_isPrefix : ∀ c name c' name', (c, name) ∈ names → (c', name') ∈ names → name <+: name' → c = c' ∧ name = name'

namespace Table

variable (T : Table)

/-- The name of a character. -/
def nameOf (c : Char) : Option (List Char) := T.names.lookup c

def escapeChar (c : Char) : List Char :=
  match T.nameOf c with
  | some name => name
  | none => if T.marked c then ['\\', c] else [c]

def escape (text : List Char) : List Char := text.flatMap T.escapeChar

/-- What a reader takes an escaped text for. -/
def unescape : List Char → List Char
  | [] => []
  | c :: rest =>
      if c = '\\' then
        match rest with
        | [] => [c]
        | d :: rest => d :: unescape rest
      else match T.names.find? fun entry ↦ entry.2.isPrefixOf (c :: rest) with
        | some entry => entry.1 :: unescape (rest.drop (entry.2.length - 1))
        | none => c :: unescape rest
termination_by text => text.length
decreasing_by
  all_goals simp only [List.length_cons, List.length_drop]
  all_goals omega

variable {T}

theorem mem_names_of_nameOf {name : List Char} (h : T.nameOf c = some name) : (c, name) ∈ T.names := by
  rw [nameOf, List.lookup_eq_some_iff] at h
  obtain ⟨front, back, hnames, -⟩ := h
  rw [hnames]
  exact List.mem_append_right _ (List.mem_cons_self ..)

theorem nameOf_eq_none : T.nameOf c = none ↔ c ∉ T.names.map Prod.fst := by
  rw [nameOf, List.lookup_eq_none_iff, List.mem_map]
  constructor
  · rintro h ⟨name, hname, rfl⟩
    simpa using h name hname
  · intro h name hname
    simpa using fun heq : c = name.1 ↦ h ⟨name, hname, heq.symm⟩

/-- The four ways a character comes to stand in an escaped text. -/
theorem escapeChar_cases (c : Char) :
    (∃ name, (c, name) ∈ T.names ∧ T.escapeChar c = name) ∨
      (T.marked c = true ∧ T.escapeChar c = ['\\', c]) ∨
      (T.marked c = false ∧ c ∉ T.names.map Prod.fst ∧ T.escapeChar c = [c]) := by
  cases hname : T.nameOf c with
  | some name => exact .inl ⟨name, mem_names_of_nameOf hname, by rw [escapeChar, hname]⟩
  | none =>
      cases hmarked : T.marked c with
      | true => exact .inr (.inl ⟨rfl, by simp [escapeChar, hname, hmarked]⟩)
      | false => exact .inr (.inr ⟨rfl, nameOf_eq_none.mp hname, by simp [escapeChar, hname, hmarked]⟩)

theorem find_name {name : List Char} (h : (c, name) ∈ T.names) (rest : List Char) :
    T.names.find? (fun entry ↦ entry.2.isPrefixOf (name ++ rest)) = some (c, name) := by
  cases hfind : T.names.find? fun entry ↦ entry.2.isPrefixOf (name ++ rest) with
  | none =>
      have hnone := List.find?_eq_none.mp hfind _ h
      simp at hnone
  | some entry =>
      have hmem : entry ∈ T.names := List.mem_of_find?_eq_some hfind
      have hstart : entry.2 <+: name ++ rest := by simpa using List.find?_some hfind
      have hequal : entry.1 = c ∧ entry.2 = name := by
        rcases List.prefix_or_prefix_of_prefix hstart (List.prefix_append name rest) with hle | hle
        · exact T.eq_of_isPrefix _ _ _ _ hmem h hle
        · obtain ⟨hc, hname⟩ := T.eq_of_isPrefix _ _ _ _ h hmem hle
          exact ⟨hc.symm, hname.symm⟩
      rw [← hequal.1, ← hequal.2]

theorem find_none (h : c ≠ T.sign) (rest : List Char) :
    T.names.find? (fun entry ↦ entry.2.isPrefixOf (c :: rest)) = none := by
  rw [List.find?_eq_none]
  intro entry hentry hstart
  obtain ⟨body, hbody, -⟩ := T.name_eq _ _ hentry
  rw [hbody, List.isPrefixOf_iff_prefix, List.cons_prefix_cons] at hstart
  exact h hstart.1.symm

theorem sign_ne_backslash : T.sign ≠ '\\' := by
  intro h
  exact T.marked_named _ T.marked_backslash (h ▸ T.sign_named)

theorem unescape_of_find {rest : List Char} {entry : Char × List Char} (hc : c ≠ '\\')
    (h : T.names.find? (fun entry ↦ entry.2.isPrefixOf (c :: rest)) = some entry) :
    T.unescape (c :: rest) = entry.1 :: T.unescape (rest.drop (entry.2.length - 1)) := by
  conv_lhs => unfold unescape
  rw [if_neg hc, h]

theorem unescape_of_none {rest : List Char} (hc : c ≠ '\\')
    (h : T.names.find? (fun entry ↦ entry.2.isPrefixOf (c :: rest)) = none) :
    T.unescape (c :: rest) = c :: T.unescape rest := by
  conv_lhs => unfold unescape
  rw [if_neg hc, h]

/-- Reading takes a text and a character before it for that character and the text. -/
theorem unescape_cons (c : Char) (rest : List Char) :
    T.unescape (T.escapeChar c ++ rest) = c :: T.unescape rest := by
  rcases escapeChar_cases (T := T) c with ⟨name, hname, heq⟩ | ⟨-, heq⟩ | ⟨hmarked, hnamed, heq⟩
  · obtain ⟨body, hbody, -⟩ := T.name_eq _ _ hname
    have hfind := find_name hname rest
    rw [hbody, List.cons_append] at hfind
    rw [heq, hbody, List.cons_append, unescape_of_find sign_ne_backslash hfind]
    simp
  · rw [heq, List.cons_append, List.cons_append, List.nil_append, unescape, if_pos rfl]
  · have hsign : c ≠ T.sign := fun h ↦ hnamed (h ▸ T.sign_named)
    have hbackslash : c ≠ '\\' := by
      rintro rfl
      rw [T.marked_backslash] at hmarked
      cases hmarked
    rw [heq, List.cons_append, List.nil_append, unescape_of_none hbackslash (find_none hsign rest)]

/-- An escaped text is read as the text. -/
theorem unescape_escape (text : List Char) : T.unescape (T.escape text) = text := by
  induction text with
  | nil => simp [escape, unescape]
  | cons c text ih => rw [escape, List.flatMap_cons, unescape_cons, ← escape, ih]

/-! ## What stands where -/

theorem run_append_escapeChar {text : List Char} (c : Char) (h : Even (run text)) :
    Even (run (text ++ T.escapeChar c)) := by
  rcases escapeChar_cases (T := T) c with ⟨name, hname, heq⟩ | ⟨-, heq⟩ | ⟨hmarked, -, heq⟩
  · obtain ⟨body, hbody, -⟩ := T.name_eq _ _ hname
    have hne : name ≠ [] := by simp [hbody]
    have hlast : name.getLast hne ≠ '\\' := fun hlast ↦
      T.backslash_not_mem _ _ hname (hlast ▸ List.getLast_mem hne)
    rw [heq, ← List.dropLast_append_getLast hne, ← List.append_assoc, run_concat_of_ne hlast]
    exact Even.zero
  · rw [heq, show text ++ ['\\', c] = text ++ ['\\'] ++ [c] by simp]
    by_cases hc : c = '\\'
    · rw [hc, run_concat, run_concat]
      exact h.add_one.add_one
    · rw [run_concat_of_ne hc]
      exact Even.zero
  · have hc : c ≠ '\\' := by
      rintro rfl
      rw [T.marked_backslash] at hmarked
      cases hmarked
    rw [heq, run_concat_of_ne hc]
    exact Even.zero

/-- An escaped text ends with an even number of backslashes. -/
theorem even_run_escape (text : List Char) : Even (run (T.escape text)) := by
  induction text using List.reverseRecOn with
  | nil => exact Even.zero
  | append_singleton text c ih =>
      have hsplit : T.escape (text ++ [c]) = T.escape text ++ T.escapeChar c := by simp [escape]
      rw [hsplit]
      exact run_append_escapeChar c ih

/-- A character of an escaped text is a part of a name, or a backslash that escapes the next character, or a
marked character behind such a backslash, or a character that needs neither. -/
theorem placed_of_escape {text front back : List Char} (h : T.escape text = front ++ c :: back) :
    (∃ d name, (d, name) ∈ T.names ∧ ∃ left right, name = left ++ c :: right ∧ left <:+ front ∧ right <+: back) ∨
      (c = '\\' ∧ Even (run front) ∧ ∃ d rest, back = d :: rest ∧ T.marked d = true) ∨
      (T.marked c = true ∧ Odd (run front)) ∨ (T.marked c = false ∧ c ∉ T.names.map Prod.fst ∧ c ∈ text) := by
  obtain ⟨before, d, after, left, right, hitems, hpart, hfront, hback⟩ := exists_part h
  have heven : Even (run (before.flatMap T.escapeChar)) := even_run_escape before
  rcases escapeChar_cases (T := T) d with ⟨name, hname, heq⟩ | ⟨hmarked, heq⟩ | ⟨hmarked, hnamed, heq⟩
  · exact .inl ⟨d, name, hname, left, right, heq.symm.trans hpart, ⟨_, hfront.symm⟩, ⟨_, hback.symm⟩⟩
  · rw [heq] at hpart
    cases left with
    | nil =>
        obtain ⟨hc, hright⟩ := List.cons.inj hpart
        refine .inr (.inl ⟨hc.symm, ?_, d, after.flatMap T.escapeChar, ?_, hmarked⟩)
        · rwa [hfront, List.append_nil]
        · rw [hback, ← hright, List.singleton_append]
    | cons b left =>
        obtain ⟨hb, hrest⟩ := List.cons.inj hpart
        cases left with
        | nil =>
            obtain ⟨hc, -⟩ := List.cons.inj hrest
            refine .inr (.inr (.inl ⟨hc ▸ hmarked, ?_⟩))
            rw [hfront, ← hb, run_concat]
            exact heven.add_one
        | cons _ left => simp at hrest
  · rw [heq] at hpart
    cases left with
    | nil =>
        obtain ⟨hc, -⟩ := List.cons.inj hpart
        exact .inr (.inr (.inr ⟨hc ▸ hmarked, hc ▸ hnamed, by simp [hitems, hc]⟩))
    | cons _ left => simp at hpart

/-- The sign stands in an escaped text only where a name begins. -/
theorem name_of_sign {text front back : List Char} (h : T.escape text = front ++ T.sign :: back) :
    ∃ d name, (d, name) ∈ T.names ∧ name <+: T.sign :: back := by
  rcases placed_of_escape h with ⟨d, name, hname, left, right, hsplit, -, hright⟩ | ⟨hc, -⟩ | ⟨hmarked, -⟩ |
    ⟨-, hnamed, -⟩
  · obtain ⟨body, hbody, hsign⟩ := T.name_eq _ _ hname
    refine ⟨d, name, hname, ?_⟩
    cases left with
    | nil => rw [hsplit, List.nil_append, List.cons_prefix_cons]; exact ⟨rfl, hright⟩
    | cons b left =>
        rw [hbody, List.cons_append] at hsplit
        exact absurd (by simp [(List.cons.inj hsplit).2]) hsign
  · exact absurd hc sign_ne_backslash
  · exact absurd T.sign_named (T.marked_named _ hmarked)
  · exact absurd T.sign_named hnamed

end Table

end WorkStack.Text.Escaping
