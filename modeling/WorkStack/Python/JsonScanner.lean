import WorkStack.Python.Dict
import WorkStack.Python.FlatTexts
import WorkStack.Json

/-!
# Reading JSON

`json.loads` of a text. Blanks may stand between the tokens and nowhere else, a number with a fraction or an
exponent is a floating-point number, `NaN` and the infinities are read beside the literals of the format, and of
the fields of an object that have one name the last counts. A text that escapes a lone surrogate is not read,
as no text holds one here.
-/

namespace WorkStack.Python.Scanner

open Json

def isBlank (c : Char) : Bool := c = ' ' || c = '\t' || c = '\n' || c = '\r'

def skip (text : List Char) : List Char := text.dropWhile isBlank

/-! ## Strings -/

def hexDigit? (c : Char) : Option ℕ :=
  if c.isDigit then some (c.toNat - 48)
  else if 97 ≤ c.toNat ∧ c.toNat ≤ 102 then some (c.toNat - 87)
  else if 65 ≤ c.toNat ∧ c.toNat ≤ 70 then some (c.toNat - 55)
  else none

/-- `_decode_uXXXX`: the number that four hexadecimal digits stand for -/
def codeUnit : List Char → Option (ℕ × List Char)
  | a :: b :: c :: d :: rest => do
      let a ← hexDigit? a
      let b ← hexDigit? b
      let c ← hexDigit? c
      let d ← hexDigit? d
      some (4096 * a + 256 * b + 16 * c + d, rest)
  | _ => none

def isHighSurrogate (unit : ℕ) : Bool := 0xD800 ≤ unit && unit ≤ 0xDBFF

def isLowSurrogate (unit : ℕ) : Bool := 0xDC00 ≤ unit && unit ≤ 0xDFFF

/-- The code unit of the escape that stands first. -/
def unitEscape : List Char → Option (ℕ × List Char)
  | '\\' :: 'u' :: rest => codeUnit rest
  | _ => none

/-- The character of an escape by code units, of which two may make a pair. -/
def unicodeEscape (text : List Char) : Option (Char × List Char) := do
  let (unit, rest) ← codeUnit text
  if isHighSurrogate unit then do
    let (low, rest) ← unitEscape rest
    if isLowSurrogate low then some (Char.ofNat (0x10000 + 1024 * (unit - 0xD800) + (low - 0xDC00)), rest) else none
  else if isLowSurrogate unit then none
  else some (Char.ofNat unit, rest)

/-- `BACKSLASH` -/
def backslash : List (Char × Char) :=
  [('"', '"'), ('\\', '\\'), ('/', '/'), ('b', Char.ofNat 8), ('f', Char.ofNat 12), ('n', '\n'), ('r', '\r'),
    ('t', '\t')]

def escape : List Char → Option (Char × List Char)
  | [] => none
  | c :: rest => if c = 'u' then unicodeEscape rest else (backslash.lookup c).map fun found ↦ (found, rest)

/-- One character of a string, which may be written as an escape. -/
def character : List Char → Option (Char × List Char)
  | [] => none
  | c :: rest => if c = '\\' then escape rest else if c.toNat < 32 then none else some (c, rest)

/-- `scanstring`: the characters up to the closing quote -/
def characters : ℕ → List Char → Option (List Char × List Char)
  | 0, _ => none
  | _, [] => none
  | fuel + 1, c :: rest =>
      if c = '"' then some ([], rest)
      else do
        let (first, rest) ← character (c :: rest)
        let (others, rest) ← characters fuel rest
        some (first :: others, rest)

/-- A string whose opening quote is read. -/
def string (text : List Char) : Option (String × List Char) :=
  (characters text.length text).map fun read ↦ (String.ofList read.1, read.2)

/-! ## Numbers and literals -/

def digits (text : List Char) : List Char × List Char := (text.takeWhile Char.isDigit, text.dropWhile Char.isDigit)

def sign : List Char → List Char × List Char
  | [] => ([], [])
  | c :: rest => if c = '-' then (['-'], rest) else ([], c :: rest)

/-- The digits of an integer, which has no leading zeros. -/
def whole : List Char → Option (List Char × List Char)
  | [] => none
  | c :: rest =>
      if c = '0' then some (['0'], rest)
      else if c.isDigit then some (digits (c :: rest))
      else none

/-- A point and digits, or nothing. -/
def fraction : List Char → List Char × List Char
  | [] => ([], [])
  | c :: rest =>
      if c = '.' ∧ (digits rest).1 ≠ [] then (c :: (digits rest).1, (digits rest).2) else ([], c :: rest)

def exponentSign : List Char → List Char × List Char
  | [] => ([], [])
  | c :: rest => if c = '+' ∨ c = '-' then ([c], rest) else ([], c :: rest)

/-- An exponent, or nothing. -/
def exponent : List Char → List Char × List Char
  | [] => ([], [])
  | c :: rest =>
      let (sign, tail) := exponentSign rest
      if (c = 'e' ∨ c = 'E') ∧ (digits tail).1 ≠ [] then (c :: sign ++ (digits tail).1, (digits tail).2)
      else ([], c :: rest)

/-- `int` of digits with a sign -/
def signed (sign : List Char) (value : ℕ) : ℤ := if sign = [] then value else -value

/-- `NUMBER_RE` -/
def number (text : List Char) : Option (Json × List Char) := do
  let (sign, rest) := sign text
  let (whole, rest) ← whole rest
  let (fraction, rest) := fraction rest
  let (exponent, rest) := exponent rest
  if fraction = [] ∧ exponent = [] then some (.int (signed sign (Nat.ofDigitChars 10 whole 0)), rest)
  else some (.float (String.ofList (sign ++ whole ++ fraction ++ exponent)), rest)

def literals : List (List Char × Json) :=
  [("null".toList, .null), ("true".toList, .bool true), ("false".toList, .bool false), ("NaN".toList, .float "nan"),
    ("Infinity".toList, .float "inf"), ("-Infinity".toList, .float "-inf")]

def literal (text : List Char) : Option (Json × List Char) :=
  (literals.find? fun entry ↦ entry.1.isPrefixOf text).map fun entry ↦ (entry.2, text.drop entry.1.length)

/-! ## Arrays and objects -/

section Containers

variable {α : Type}

/-- Elements with commas between them, up to what closes them. -/
def separated (element : List Char → Option (α × List Char)) (close : Char) :
    ℕ → List Char → Option (List α × List Char)
  | 0, _ => none
  | fuel + 1, text => do
      let (first, rest) ← element text
      match skip rest with
      | [] => none
      | c :: rest =>
          if c = ',' then do
            let (others, rest) ← separated element close fuel (skip rest)
            some (first :: others, rest)
          else if c = close then some ([first], rest)
          else none

/-- Elements that may be missing altogether, after the opening bracket. -/
def enclosed (element : List Char → Option (α × List Char)) (close : Char) (text : List Char) :
    Option (List α × List Char) :=
  match skip text with
  | [] => none
  | c :: rest => if c = close then some ([], rest) else separated element close (rest.length + 1) (c :: rest)

/-- A name, a colon and a value. -/
def field (element : List Char → Option (α × List Char)) : List Char → Option ((String × α) × List Char)
  | [] => none
  | c :: rest =>
      if c = '"' then do
        let (name, rest) ← string rest
        match skip rest with
        | [] => none
        | c :: rest =>
            if c = ':' then do
              let (value, rest) ← element (skip rest)
              some ((name, value), rest)
            else none
      else none

end Containers

/-- The dictionary of pairs: a later one replaces an earlier one of its name. -/
def dictOf (pairs : List (String × Json)) : Dict String Json :=
  pairs.foldl (fun fields pair ↦ Dict.set pair.1 pair.2 fields) []

/-- `scan_once`, for values nested no deeper than a number -/
def value : ℕ → List Char → Option (Json × List Char)
  | 0, _ => none
  | _, [] => none
  | fuel + 1, c :: rest =>
      if c = '"' then (string rest).map fun read ↦ (.str read.1, read.2)
      else if c = '[' then (enclosed (value fuel) ']' rest).map fun read ↦ (.arr read.1, read.2)
      else if c = '{' then (enclosed (field (value fuel)) '}' rest).map fun read ↦ (.obj (dictOf read.1), read.2)
      else (literal (c :: rest)).or (number (c :: rest))

/-- `json.loads` -/
def loads (text : List Char) : Option Json := do
  let (found, rest) ← value (text.length + 1) (skip text)
  if skip rest = [] then some found else none

/-! ## Blanks -/

/-- A text of which reading starts at once. -/
def Starts (text : List Char) : Prop := ∃ c rest, text = c :: rest ∧ isBlank c = false

theorem Starts.append {text : List Char} (h : Starts text) (rest : List Char) : Starts (text ++ rest) := by
  obtain ⟨c, tail, rfl, hblank⟩ := h
  exact ⟨c, tail ++ rest, rfl, hblank⟩

theorem skip_cons {c : Char} (h : isBlank c = false) (rest : List Char) : skip (c :: rest) = c :: rest := by
  rw [skip, List.dropWhile_cons, h, if_neg (by simp)]

theorem Starts.skip_eq {text : List Char} (h : Starts text) : skip text = text := by
  obtain ⟨c, tail, rfl, hblank⟩ := h
  exact skip_cons hblank tail

/-! ## Strings -/

theorem hexDigit?_of_lt {n : ℕ} (h : n < 16) :
    hexDigit? (if n < 10 then Char.ofNat (48 + n) else Char.ofNat (87 + n)) = some n := by
  have hall : ∀ n : Fin 16,
      hexDigit? (if n.val < 10 then Char.ofNat (48 + n.val) else Char.ofNat (87 + n.val)) = some n.val := by decide
  exact hall ⟨n, h⟩

/-- The escape by four digits of a control character is read as that character. -/
theorem character_control {c : Char} (h : c.toNat < 32) (rest : List Char) :
    character ('\\' :: 'u' :: '0' :: '0' ::
      (if c.toNat / 16 < 10 then Char.ofNat (48 + c.toNat / 16) else Char.ofNat (87 + c.toNat / 16)) ::
      (if c.toNat % 16 < 10 then Char.ofNat (48 + c.toNat % 16) else Char.ofNat (87 + c.toNat % 16)) :: rest) =
      some (c, rest) := by
  have hzero : hexDigit? '0' = some 0 := rfl
  have hhigh : isHighSurrogate c.toNat = false := by
    rw [isHighSurrogate, Bool.and_eq_false_iff]
    exact .inl (decide_eq_false (by omega))
  have hlow : isLowSurrogate c.toNat = false := by
    rw [isLowSurrogate, Bool.and_eq_false_iff]
    exact .inl (decide_eq_false (by omega))
  change unicodeEscape _ = _
  simp only [unicodeEscape, codeUnit, hzero, hexDigit?_of_lt (show c.toNat / 16 < 16 by omega),
    hexDigit?_of_lt (show c.toNat % 16 < 16 by omega)]
  change (if isHighSurrogate (4096 * 0 + 256 * 0 + 16 * (c.toNat / 16) + c.toNat % 16) = true then _ else
    if isLowSurrogate (4096 * 0 + 256 * 0 + 16 * (c.toNat / 16) + c.toNat % 16) = true then _ else
    some (Char.ofNat (4096 * 0 + 256 * 0 + 16 * (c.toNat / 16) + c.toNat % 16), rest)) = _
  rw [show 4096 * 0 + 256 * 0 + 16 * (c.toNat / 16) + c.toNat % 16 = c.toNat by omega, hhigh, if_neg (by simp), hlow,
    if_neg (by simp), Char.ofNat_toNat]

/-- What is written for a character is read as that character. -/
theorem character_escapeChar (c : Char) (rest : List Char) : character (escapeChar c ++ rest) = some (c, rest) := by
  have hof {n : ℕ} (h : c.toNat = n) : c = Char.ofNat n := by rw [← h, Char.ofNat_toNat]
  by_cases hquote : c = '"'
  · rw [hquote]
    rfl
  by_cases hbackslash : c = '\\'
  · rw [hbackslash]
    rfl
  by_cases hnewline : c = '\n'
  · rw [hnewline]
    rfl
  by_cases hreturn : c = '\r'
  · rw [hreturn]
    rfl
  by_cases htab : c = '\t'
  · rw [htab]
    rfl
  by_cases hback : c.toNat = 8
  · rw [hof hback]
    rfl
  by_cases hfeed : c.toNat = 12
  · rw [hof hfeed]
    rfl
  rw [escapeChar, if_neg hquote, if_neg hbackslash, if_neg hnewline, if_neg hreturn, if_neg htab, if_neg hback,
    if_neg hfeed]
  by_cases hcontrol : c.toNat < 32
  · rw [if_pos hcontrol]
    exact character_control hcontrol rest
  · rw [if_neg hcontrol, List.singleton_append, character, if_neg hbackslash, if_neg hcontrol]

theorem head_escapeChar (c : Char) : ∃ first others, escapeChar c = first :: others ∧ first ≠ '"' := by
  unfold escapeChar
  dsimp only
  split_ifs with hquote
  all_goals first
    | exact ⟨_, _, rfl, by decide⟩
    | exact ⟨_, _, rfl, hquote⟩

theorem characters_flatMap (text rest : List Char) : ∀ {fuel : ℕ}, text.length < fuel →
    characters fuel (text.flatMap escapeChar ++ '"' :: rest) = some (text, rest) := by
  induction text with
  | nil =>
      intro fuel hfuel
      cases fuel with
      | zero => omega
      | succ fuel => rfl
  | cons c text ih =>
      intro fuel hfuel
      cases fuel with
      | zero => omega
      | succ fuel =>
          have hread := character_escapeChar c (text.flatMap escapeChar ++ '"' :: rest)
          obtain ⟨first, others, hescape, hne⟩ := head_escapeChar c
          rw [hescape, List.cons_append] at hread
          rw [List.flatMap_cons, List.append_assoc, hescape, List.cons_append, characters, if_neg hne, hread]
          change (characters fuel _ >>= _) = _
          rw [ih (by simpa using hfuel)]
          rfl

/-- A quoted text is read as the text. -/
theorem string_quoted (text : String) (rest : List Char) :
    string (text.toList.flatMap escapeChar ++ '"' :: rest) = some (text, rest) := by
  have hlength : ∀ cs : List Char, cs.length ≤ (cs.flatMap escapeChar).length := by
    intro cs
    induction cs with
    | nil => exact le_rfl
    | cons c cs ih =>
        obtain ⟨first, others, hescape, -⟩ := head_escapeChar c
        rw [List.flatMap_cons, List.length_append, hescape, List.length_cons, List.length_cons]
        omega
  have hfuel : text.toList.length < (text.toList.flatMap escapeChar ++ '"' :: rest).length := by
    have := hlength text.toList
    rw [List.length_append, List.length_cons]
    omega
  rw [string, characters_flatMap _ _ hfuel, Option.map_some, String.ofList_toList]

/-! ## Numbers -/

/-- What may stand behind a value: nothing, a comma or a closing bracket. -/
def Closes (rest : List Char) : Prop := ∀ c, rest.head? = some c → c = ',' ∨ c = ']' ∨ c = '}'

theorem closes_nil : Closes [] := by
  intro c h
  cases h

theorem closes_cons {c : Char} (h : c = ',' ∨ c = ']' ∨ c = '}') (rest : List Char) : Closes (c :: rest) := by
  intro c' h'
  cases h'
  exact h

theorem digits_append {front rest : List Char} (hfront : ∀ c ∈ front, c.isDigit = true)
    (hrest : Closes rest) : digits (front ++ rest) = (front, rest) := by
  have hhead : rest.takeWhile Char.isDigit = [] ∧ rest.dropWhile Char.isDigit = rest := by
    cases rest with
    | nil => exact ⟨rfl, rfl⟩
    | cons c rest =>
        have hdigit : c.isDigit = false := by
          rcases hrest c rfl with rfl | rfl | rfl
          · rfl
          · rfl
          · rfl
        simp [hdigit]
  rw [digits, List.takeWhile_append_of_pos hfront, List.dropWhile_append_of_pos hfront, hhead.1, hhead.2,
    List.append_nil]

theorem fraction_of_closes {rest : List Char} (h : Closes rest) : fraction rest = ([], rest) := by
  cases rest with
  | nil => rfl
  | cons c rest =>
      have hpoint : c ≠ '.' := by
        rcases h c rfl with rfl | rfl | rfl
        · decide
        · decide
        · decide
      rw [fraction, if_neg (fun hand ↦ hpoint hand.1)]

theorem exponent_of_closes {rest : List Char} (h : Closes rest) : exponent rest = ([], rest) := by
  cases rest with
  | nil => rfl
  | cons c rest =>
      have hletter : ¬ (c = 'e' ∨ c = 'E') := by
        rcases h c rfl with rfl | rfl | rfl
        · decide
        · decide
        · decide
      simp only [exponent, hletter, false_and, if_false]

theorem head_toDigits {n : ℕ} (h : 0 < n) : ∀ c ∈ (Nat.toDigits 10 n).head?, c ≠ '0' := by
  induction n using Nat.strongRecOn with
  | ind n ih =>
      by_cases hsmall : n < 10
      · rw [Nat.toDigits_of_lt_base hsmall]
        have hall : ∀ n : Fin 10, 0 < n.val → n.val.digitChar ≠ '0' := by decide
        intro c hc
        obtain rfl : n.digitChar = c := Option.some_inj.mp hc
        exact hall ⟨n, hsmall⟩ h
      · rw [Nat.toDigits_of_base_le (by omega) (by omega), List.head?_append_of_ne_nil _ Nat.toDigits_ne_nil]
        exact ih (n / 10) (by omega) (by omega)

theorem whole_toDigits (n : ℕ) {rest : List Char} (h : Closes rest) :
    whole (Nat.toDigits 10 n ++ rest) = some (Nat.toDigits 10 n, rest) := by
  have hdigits := @digits_append (Nat.toDigits 10 n) rest
    (fun c hc ↦ Nat.isDigit_of_mem_toDigits (by omega) (by omega) hc) h
  by_cases hn : n = 0
  · rw [hn]
    rfl
  · have hzero := head_toDigits (Nat.pos_of_ne_zero hn)
    cases htext : Nat.toDigits 10 n with
    | nil => exact absurd htext Nat.toDigits_ne_nil
    | cons c others =>
        rw [htext] at hdigits hzero
        have hc : c.isDigit = true :=
          @Nat.isDigit_of_mem_toDigits 10 n c (by omega) (by omega) (htext ▸ List.mem_cons_self ..)
        rw [List.cons_append] at hdigits ⊢
        rw [whole, if_neg (hzero c rfl), if_pos hc, hdigits]

theorem sign_toDigits (n : ℕ) (rest : List Char) :
    sign (Nat.toDigits 10 n ++ rest) = ([], Nat.toDigits 10 n ++ rest) := by
  cases htext : Nat.toDigits 10 n with
  | nil => exact absurd htext Nat.toDigits_ne_nil
  | cons c others =>
      have hc : c.isDigit = true :=
        @Nat.isDigit_of_mem_toDigits 10 n c (by omega) (by omega) (htext ▸ List.mem_cons_self ..)
      rw [List.cons_append, sign, if_neg (fun h ↦ by simp [h] at hc)]

/-- An integer is read from its digits. -/
theorem number_toString (value : ℤ) {rest : List Char} (h : Closes rest) :
    number ((toString value).toList ++ rest) = some (.int value, rest) := by
  cases value with
  | ofNat n =>
      rw [toList_toString_ofNat]
      simp only [number, sign_toDigits, whole_toDigits n h, Option.bind_eq_bind, Option.bind_some, fraction_of_closes h,
        exponent_of_closes h]
      change some (Json.int (signed [] (Nat.ofDigitChars 10 (Nat.toDigits 10 n) 0)), rest) = _
      rw [Nat.ofDigitChars_ten_toDigits]
      rfl
  | negSucc n =>
      rw [toList_toString_negSucc, List.cons_append]
      have hsign : sign ('-' :: (Nat.toDigits 10 (n + 1) ++ rest)) = (['-'], Nat.toDigits 10 (n + 1) ++ rest) := rfl
      simp only [number, hsign, whole_toDigits (n + 1) h, Option.bind_eq_bind, Option.bind_some, fraction_of_closes h,
        exponent_of_closes h]
      change some (Json.int (signed ['-'] (Nat.ofDigitChars 10 (Nat.toDigits 10 (n + 1)) 0)), rest) = _
      rw [Nat.ofDigitChars_ten_toDigits]
      rfl

/-- No literal starts with a digit, with or without a sign. -/
theorem literal_of_isDigit {c : Char} (h : c.isDigit = true) (rest : List Char) :
    literal (c :: rest) = none ∧ literal ('-' :: c :: rest) = none := by
  have hne (d : Char) (hd : d.isDigit = false) : (d == c) = false := by
    apply beq_false_of_ne
    rintro rfl
    rw [h] at hd
    cases hd
  constructor
  · simp [literal, literals, List.isPrefixOf, hne]
  · simp [literal, literals, List.isPrefixOf, hne]

theorem literal_toString (value : ℤ) (rest : List Char) : literal ((toString value).toList ++ rest) = none := by
  have hdigits : ∀ n : ℕ, ∃ c others, Nat.toDigits 10 n = c :: others ∧ c.isDigit = true := by
    intro n
    cases htext : Nat.toDigits 10 n with
    | nil => exact absurd htext Nat.toDigits_ne_nil
    | cons c others =>
        have hmem : c ∈ Nat.toDigits 10 n := htext ▸ List.mem_cons_self ..
        exact ⟨c, others, rfl, Nat.isDigit_of_mem_toDigits (by omega) (by omega) hmem⟩
  cases value with
  | ofNat n =>
      obtain ⟨c, others, htext, hc⟩ := hdigits n
      rw [toList_toString_ofNat, htext]
      exact (literal_of_isDigit hc (others ++ rest)).1
  | negSucc n =>
      obtain ⟨c, others, htext, hc⟩ := hdigits (n + 1)
      rw [toList_toString_negSucc, htext]
      exact (literal_of_isDigit hc (others ++ rest)).2

/-! ## Arrays and objects -/

section Containers

variable {α β : Type} {element : List Char → Option (α × List Char)} {close : Char} {write : β → List Char}
  {read : β → α}

theorem starts_joined {parts : List (List Char)} (hne : parts ≠ []) (h : ∀ part ∈ parts, Starts part)
    (rest : List Char) : Starts (joined [','] parts ++ rest) := by
  cases parts with
  | nil => exact absurd rfl hne
  | cons part parts =>
      have hpart := h part (List.mem_cons_self ..)
      cases parts with
      | nil =>
          rw [joined, List.intercalate_singleton]
          exact hpart.append rest
      | cons next parts =>
          rw [joined, List.intercalate_cons_cons, List.append_assoc, List.append_assoc]
          exact hpart.append _

theorem length_le_joined {parts : List (List Char)} (h : ∀ part ∈ parts, Starts part) :
    parts.length ≤ (joined [','] parts).length := by
  unfold joined
  induction parts with
  | nil => exact le_rfl
  | cons part parts ih =>
      rw [List.forall_mem_cons] at h
      obtain ⟨c, rest, rfl, -⟩ := h.1
      cases parts with
      | nil => simp
      | cons next parts =>
          have hle := ih h.2
          rw [List.intercalate_cons_cons, List.length_append, List.length_append, List.length_cons, List.length_cons]
          rw [List.length_cons] at hle
          simp only [List.length_cons, List.length_nil]
          omega

/-- Parts that are read one by one are read with commas between them. -/
theorem separated_joined (hclose : close = ']' ∨ close = '}') {parts : List β} (hne : parts ≠ [])
    (hstarts : ∀ part ∈ parts, Starts (write part))
    (hread : ∀ part ∈ parts, ∀ rest, Closes rest → element (write part ++ rest) = some (read part, rest))
    {fuel : ℕ} (hfuel : parts.length ≤ fuel) (rest : List Char) :
    separated element close fuel (joined [','] (parts.map write) ++ close :: rest) = some (parts.map read, rest) := by
  have hblank : isBlank close = false ∧ close ≠ ',' := by
    rcases hclose with rfl | rfl
    · decide
    · decide
  induction parts generalizing fuel with
  | nil => exact absurd rfl hne
  | cons part parts ih =>
      rw [List.forall_mem_cons] at hstarts hread
      cases fuel with
      | zero => simp at hfuel
      | succ fuel =>
          cases parts with
          | nil =>
              have hrest : Closes (close :: rest) := closes_cons (.inr hclose) rest
              simp only [List.map_cons, List.map_nil, joined, List.intercalate_singleton, separated, hread.1 _ hrest,
                Option.bind_eq_bind, Option.bind_some, skip_cons hblank.1, if_neg hblank.2, if_pos]
          | cons next parts =>
              have hothers := @ih (by simp) hstarts.2 hread.2 fuel (by simpa using hfuel)
              have hskip : skip (joined [','] ((next :: parts).map write) ++ close :: rest) =
                  joined [','] ((next :: parts).map write) ++ close :: rest := by
                apply Starts.skip_eq
                apply starts_joined (by simp)
                rw [List.forall_mem_map]
                exact hstarts.2
              have htext : joined [','] ((part :: next :: parts).map write) ++ close :: rest =
                  write part ++ (',' :: (joined [','] ((next :: parts).map write) ++ close :: rest)) := by
                rw [List.map_cons, List.map_cons, joined, List.intercalate_cons_cons]
                simp [joined]
              rw [htext]
              simp only [separated, hread.1 _ (closes_cons (.inl rfl) _), Option.bind_eq_bind, Option.bind_some,
                skip_cons (show isBlank ',' = false by decide), hskip, hothers, if_pos]
              rfl

/-- Parts that are read one by one are read between brackets. -/
theorem enclosed_joined (hclose : close = ']' ∨ close = '}') (parts : List β)
    (hstarts : ∀ part ∈ parts, Starts (write part)) (hhead : ∀ part ∈ parts, (write part).head? ≠ some close)
    (hread : ∀ part ∈ parts, ∀ rest, Closes rest → element (write part ++ rest) = some (read part, rest))
    (rest : List Char) :
    enclosed element close (joined [','] (parts.map write) ++ close :: rest) = some (parts.map read, rest) := by
  cases parts with
  | nil =>
      have hblank : isBlank close = false := by
        rcases hclose with rfl | rfl
        · decide
        · decide
      change enclosed element close (close :: rest) = _
      simp only [enclosed, skip_cons hblank, if_pos]
      rfl
  | cons part parts =>
      have hmap : ∀ text ∈ (part :: parts).map write, Starts text := by
        rw [List.forall_mem_map]
        exact hstarts
      have hskip := (starts_joined (by simp) hmap (close :: rest)).skip_eq
      obtain ⟨c, tail, hpart, -⟩ := hstarts part (List.mem_cons_self ..)
      have hne : c ≠ close := by
        intro h
        apply hhead part (List.mem_cons_self ..)
        rw [hpart, h]
        rfl
      have htext : ∃ others, joined [','] ((part :: parts).map write) ++ close :: rest = c :: others := by
        cases parts with
        | nil => simp [joined, hpart]
        | cons next parts => simp [joined, List.intercalate_cons_cons, hpart]
      obtain ⟨others, htext⟩ := htext
      have hfuel : (part :: parts).length ≤ others.length + 1 := by
        have hle := length_le_joined hmap
        have hlength := congrArg List.length htext
        rw [List.length_append, List.length_cons, List.length_cons] at hlength
        rw [List.length_map] at hle
        omega
      have hall := separated_joined hclose (List.cons_ne_nil part parts) hstarts hread hfuel rest
      rw [htext] at hall hskip ⊢
      simp only [enclosed, hskip, if_neg hne]
      exact hall

end Containers

end WorkStack.Python.Scanner
