import Mathlib

/-!
# Text

The few string methods of the interpreter that the models use, on the characters of a text.
-/

namespace WorkStack.Python

/-- `str.split` at one character. -/
def splitChars (separator : Char) : List Char → List (List Char)
  | [] => [[]]
  | c :: rest =>
      match splitChars separator rest with
      | [] => [[c]]
      | part :: parts => if c = separator then [] :: part :: parts else (c :: part) :: parts

def split (separator : Char) (text : String) : List String :=
  (splitChars separator text.toList).map String.ofList

example : split '/' "streams/activity/2026-09.ndjson" = ["streams", "activity", "2026-09.ndjson"] := by
  decide

/-- A property of the characters of a text that is checked one by one. -/
theorem forall_of_all {property : Char → Prop} [DecidablePred property] {text : List Char}
    (h : (text.all fun c ↦ decide (property c)) = true) : ∀ c ∈ text, property c :=
  fun c hc ↦ of_decide_eq_true (List.all_eq_true.mp h c hc)

/-! ## Stripping -/

/-- `str.isspace` of one character. -/
def isSpace (c : Char) : Bool :=
  let n := c.toNat
  (9 ≤ n && n ≤ 13) || (28 ≤ n && n ≤ 32) || (8192 ≤ n && n ≤ 8202) ||
    [0x85, 0xa0, 0x1680, 0x2028, 0x2029, 0x202f, 0x205f, 0x3000].contains n

section Stripping

variable (isSpace : Char → Bool)

def stripChars (text : List Char) : List Char := ((text.dropWhile isSpace).reverse.dropWhile isSpace).reverse

/-- `str.strip`, given the characters it takes away. -/
def stripText (text : String) : String := String.ofList (stripChars isSpace text.toList)

variable {isSpace}

theorem stripChars_eq_self {text : List Char} (hhead : ∀ c ∈ text.head?, isSpace c = false)
    (hlast : ∀ c ∈ text.getLast?, isSpace c = false) : stripChars isSpace text = text := by
  have hdrop : text.dropWhile isSpace = text := by
    cases text with
    | nil => rfl
    | cons c rest => rw [List.dropWhile_cons, if_neg (by simp [hhead c rfl])]
  have hreverse : text.reverse.dropWhile isSpace = text.reverse := by
    cases hcases : text.reverse with
    | nil => rfl
    | cons c rest =>
        have hc : c ∈ text.getLast? := by
          rw [← List.head?_reverse, hcases]
          rfl
        rw [List.dropWhile_cons, if_neg (by simp [hlast c hc])]
  rw [stripChars, hdrop, hreverse, List.reverse_reverse]

theorem head_dropWhile {text : List Char} {c : Char} (h : c ∈ (text.dropWhile isSpace).head?) : isSpace c = false := by
  induction text with
  | nil => cases h
  | cons d rest ih =>
      rw [List.dropWhile_cons] at h
      split at h
      · exact ih h
      · rename_i hd
        have hcd : d = c := Option.some.inj h
        rw [← hcd]
        simpa using hd

/-- A stripped text has nothing to strip. -/
theorem stripChars_stripChars (text : List Char) :
    stripChars isSpace (stripChars isSpace text) = stripChars isSpace text := by
  apply stripChars_eq_self
  · intro c hc
    have hstart : stripChars isSpace text <+: text.dropWhile isSpace := by
      rw [← List.reverse_suffix, stripChars, List.reverse_reverse]
      exact List.dropWhile_suffix _
    obtain ⟨rest, hrest⟩ := hstart
    have hhead : c ∈ (text.dropWhile isSpace).head? := by
      rw [← hrest, List.head?_append, hc]
      rfl
    exact head_dropWhile hhead
  · intro c hc
    rw [stripChars, List.getLast?_reverse] at hc
    exact head_dropWhile hc

theorem stripChars_map {f : Char → Char} (hf : ∀ c, isSpace (f c) = isSpace c) (text : List Char) :
    stripChars isSpace (text.map f) = (stripChars isSpace text).map f := by
  have hcomp : isSpace ∘ f = isSpace := funext hf
  simp only [stripChars, List.dropWhile_map, hcomp, ← List.map_reverse]

end Stripping

end WorkStack.Python
