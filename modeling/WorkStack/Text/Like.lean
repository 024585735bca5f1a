import Mathlib

/-!
# Patterns

The patterns of `text LIKE pattern ESCAPE escape`. A percent sign stands for any characters, an underline for one
character, and a character behind the escape character for itself. Letters of ASCII match in either case.
-/

namespace WorkStack.Text.Like

inductive Token where
  | any
  | one
  | char (c : Char)
  /-- An escape character at the end of a pattern, which matches nothing. -/
  | never
  deriving DecidableEq, Repr

def plainToken (c : Char) : Token := if c = '%' then .any else if c = '_' then .one else .char c

def tokens (escape : Char) : List Char → List Token
  | [] => []
  | [c] => if c = escape then [.never] else [plainToken c]
  | c :: d :: rest => if c = escape then .char d :: tokens escape rest else plainToken c :: tokens escape (d :: rest)

def sameLetter (c d : Char) : Bool := c.toLower == d.toLower

/-- Whether a text is what some tokens stand for. -/
def fits : List Token → List Char → Bool
  | [], text => text.isEmpty
  | .any :: rest, text => text.tails.any (fits rest)
  | .one :: rest, _ :: text => fits rest text
  | .char d :: rest, c :: text => sameLetter d c && fits rest text
  | _, _ => false

/-- `text LIKE pattern ESCAPE escape` -/
def like (escape : Char) (pattern text : List Char) : Bool := fits (tokens escape pattern) text

/-! ## Escaped texts -/

/-- `text.replace(c, by)` for one character. -/
def replaceChar (c : Char) (by' : List Char) (text : List Char) : List Char :=
  text.flatMap fun d ↦ if d = c then by' else [d]

/-- The text with every character of a pattern escaped. -/
def escaped (text : List Char) : List Char :=
  replaceChar '_' ['\\', '_'] (replaceChar '%' ['\\', '%'] (replaceChar '\\' ['\\', '\\'] text))

def escapedChar (c : Char) : List Char := if c = '\\' ∨ c = '%' ∨ c = '_' then ['\\', c] else [c]

theorem escaped_cons (c : Char) (text : List Char) : escaped (c :: text) = escapedChar c ++ escaped text := by
  unfold escaped replaceChar escapedChar
  rw [List.flatMap_cons, List.flatMap_append, List.flatMap_append]
  congr 1
  by_cases hback : c = '\\'
  · simp [hback]
  by_cases hpercent : c = '%'
  · simp [hpercent]
  by_cases hline : c = '_'
  · simp [hline]
  · simp [hback, hpercent, hline]

theorem tokens_escapedChar (c : Char) (rest : List Char) :
    tokens '\\' (escapedChar c ++ rest) = .char c :: tokens '\\' rest := by
  unfold escapedChar
  by_cases h : c = '\\' ∨ c = '%' ∨ c = '_'
  · rw [if_pos h]
    simp [tokens]
  · rw [if_neg h]
    simp only [not_or] at h
    obtain ⟨hback, hpercent, hline⟩ := h
    have hplain : plainToken c = .char c := by rw [plainToken, if_neg hpercent, if_neg hline]
    cases rest with
    | nil => simp [tokens, hback, hplain]
    | cons d rest => simp [tokens, hback, hplain]

/-- An escaped text stands for itself. -/
theorem tokens_escaped (text rest : List Char) :
    tokens '\\' (escaped text ++ rest) = text.map .char ++ tokens '\\' rest := by
  induction text with
  | nil => rfl
  | cons c text ih => rw [escaped_cons, List.append_assoc, tokens_escapedChar, ih, List.map_cons, List.cons_append]

/-! ## Texts without upper case -/

/-- A text without upper case letters of ASCII. -/
def Lower (text : List Char) : Prop := ∀ c ∈ text, c.toLower = c

theorem Lower.of_infix {text whole : List Char} (h : Lower whole) (hpart : text <:+: whole) : Lower text :=
  fun c hc ↦ h c (hpart.subset hc)

theorem fits_any (rest : List Token) (text : List Char) :
    fits (.any :: rest) text = true ↔ ∃ ending, ending <:+ text ∧ fits rest ending = true := by
  rw [fits, List.any_eq_true]
  simp only [List.mem_tails]

theorem fits_prefix {needle text : List Char} (hneedle : Lower needle) (htext : Lower text) :
    fits (needle.map .char ++ [.any]) text = true ↔ needle <+: text := by
  induction needle generalizing text with
  | nil =>
      rw [List.map_nil, List.nil_append, fits_any]
      exact iff_of_true ⟨[], List.nil_suffix, rfl⟩ List.nil_prefix
  | cons d needle ih =>
      cases text with
      | nil => simp [fits]
      | cons c text =>
          obtain ⟨hd, hneedle⟩ := List.forall_mem_cons.mp hneedle
          obtain ⟨hc, htext⟩ := List.forall_mem_cons.mp htext
          rw [List.map_cons, List.cons_append, fits, Bool.and_eq_true, ih hneedle htext, sameLetter, hd, hc, beq_iff_eq,
            List.cons_prefix_cons]

theorem fits_infix {needle text : List Char} (hneedle : Lower needle) (htext : Lower text) :
    fits (.any :: (needle.map .char ++ [.any])) text = true ↔ needle <:+: text := by
  rw [fits_any, List.infix_iff_prefix_suffix]
  apply exists_congr
  intro ending
  rw [and_comm]
  exact and_congr_left fun hending ↦ fits_prefix hneedle (htext.of_infix hending.isInfix)

/-- `text LIKE '<needle>%'` -/
theorem like_prefix {needle text : List Char} (hneedle : Lower needle) (htext : Lower text) :
    like '\\' (escaped needle ++ ['%']) text = true ↔ needle <+: text := by
  rw [like, tokens_escaped]
  exact fits_prefix hneedle htext

/-- `text LIKE '%<needle>%'` -/
theorem like_infix {needle text : List Char} (hneedle : Lower needle) (htext : Lower text) :
    like '\\' ('%' :: (escaped needle ++ ['%'])) text = true ↔ needle <:+: text := by
  have htokens : tokens '\\' ('%' :: (escaped needle ++ ['%'])) = .any :: (needle.map .char ++ [.any]) := by
    have hrest : tokens '\\' (escaped needle ++ ['%']) = needle.map .char ++ [.any] := tokens_escaped needle ['%']
    rw [← hrest]
    cases hpattern : escaped needle ++ ['%'] with
    | nil => simp at hpattern
    | cons c rest => simp [tokens, plainToken]
  rw [like, htokens]
  exact fits_infix hneedle htext

example : like '\\' "%a\\%_%".toList "bA%c".toList = true := by decide

end WorkStack.Text.Like
