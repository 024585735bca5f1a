import WorkStack.Python.Calendar
import WorkStack.Python.Sha256
import WorkStack.Python.Text

/-!
# The interpreter

What the services take from the interpreter and its standard library: the tables of Unicode, the
texts of values, the parser of timestamps and the digest. The services are modelled over any
interpreter; the laws are the documented ones that their proofs need.
-/

namespace WorkStack.Python

structure Interpreter where
  /-- `str.isspace` of one character, which is what `str.strip` takes away. -/
  isSpace : Char → Bool
  upper : String → String
  /-- The value of a decimal digit, which is what `\d` matches and `int` reads. -/
  digit : Char → Option ℕ
  /-- Whether two characters match each other under `re.IGNORECASE`. -/
  sameLetter : Char → Char → Bool
  /-- `str` of a value that is not a text. -/
  repr : Json → String
  fromIsoFormat : String → Option Stamp
  sha256 : Bytes → Store.Digest
  digit_readsAscii : ReadsAscii digit
  sameLetter_refl : ∀ c, sameLetter c c
  upper_upper : ∀ text, upper (upper text) = upper text
  strip_upper_strip : ∀ text, stripText isSpace (upper (stripText isSpace text)) = upper (stripText isSpace text)
  fromIsoFormat_isoformat : ∀ m : Moment,
    fromIsoFormat (String.ofList (m.isoformat ++ "+00:00".toList)) = some ⟨m.seconds, 0, true⟩

namespace Interpreter

variable (I : Interpreter)

/-- `str(value)` -/
def str : Json → String
  | .str text => text
  | value => I.repr value

/-- `text.strip()` -/
def strip (text : String) : String := stripText I.isSpace text

/-- A text in upper case without blanks around it. -/
def normal (text : String) : String := I.upper (I.strip text)

@[simp] theorem normal_normal (text : String) : I.normal (I.normal text) = I.normal text := by
  unfold normal strip
  rw [I.strip_upper_strip, I.upper_upper]

/-- Whether a prefix matches the start of a text under `re.IGNORECASE`, and what is left then. -/
def matchStart : List Char → List Char → Option (List Char)
  | [], text => some text
  | _ :: _, [] => none
  | c :: rest, d :: text => if I.sameLetter c d then matchStart rest text else none

/-- `int` of the digits that end a text, where `$` also matches before a last line feed. -/
def endNumber (text : List Char) : Option ℕ :=
  match number I.digit text with
  | some n => some n
  | none => if text.getLast? = some '\n' then number I.digit text.dropLast else none

/-- The number of an id that matches `^PREFIX-(\d+)$`, letters of either case. -/
def idNumber (name : List Char) (text : String) : Option ℕ :=
  (I.matchStart (name ++ ['-']) text.toList).bind I.endNumber

/-- `re.fullmatch(r"PREFIX-\d{width,}", text)` -/
def isNumbered (name : List Char) (width : ℕ) (text : String) : Bool :=
  match (name ++ ['-']).isPrefixOf text.toList with
  | true =>
      let digits := text.toList.drop (name.length + 1)
      decide (width ≤ digits.length) && (number I.digit digits).isSome
  | false => false

/-- `re.fullmatch(r"\d{4}-\d{2}-\d{2}", text)` -/
def isDateShape (text : String) : Bool :=
  fitsShape (fun c ↦ (I.digit c).isSome) "dddd-dd-dd".toList text.toList

/-- `datetime.fromisoformat(text[:-1] + "+00:00")` -/
def parseUtc (text : String) : Option Stamp :=
  I.fromIsoFormat (String.ofList (text.toList.dropLast ++ "+00:00".toList))

theorem parseUtc_utcNow (m : Moment) : I.parseUtc m.utcNow = some ⟨m.seconds, 0, true⟩ := by
  rw [parseUtc, Moment.utcNow, String.toList_ofList, List.dropLast_concat, I.fromIsoFormat_isoformat]

/-- `canonical_digest`, the digest of the compact JSON of a value. -/
def canonicalDigest (value : Json) : Store.Digest := I.sha256 (Json.compactJson value)

theorem matchStart_append (start text : List Char) : I.matchStart start (start ++ text) = some text := by
  induction start with
  | nil => rfl
  | cons c rest ih => rw [List.cons_append, matchStart, if_pos (I.sameLetter_refl c), ih]

/-- The number of an id is the number it was made from. -/
theorem idNumber_zeroPadded (name : List Char) (width n : ℕ) :
    I.idNumber name (String.ofList (name ++ '-' :: zeroPadded width n)) = some n := by
  have hread : number I.digit (zeroPadded width n) = some n := number_zeroPadded I.digit_readsAscii width n
  have hmatch : I.matchStart (name ++ ['-']) (name ++ '-' :: zeroPadded width n) =
      some (zeroPadded width n) := by
    simpa using I.matchStart_append (name ++ ['-']) (zeroPadded width n)
  simp [idNumber, hmatch, endNumber, hread]

/-- An id that was made from a number is well formed. -/
theorem isNumbered_zeroPadded (name : List Char) (width n : ℕ) :
    I.isNumbered name width (String.ofList (name ++ '-' :: zeroPadded width n)) = true := by
  have hread : number I.digit (zeroPadded width n) = some n := number_zeroPadded I.digit_readsAscii width n
  have hstart : (name ++ ['-']).isPrefixOf (name ++ '-' :: zeroPadded width n) = true := by
    rw [List.isPrefixOf_iff_prefix]
    exact ⟨zeroPadded width n, by simp⟩
  have hdrop : (name ++ '-' :: zeroPadded width n).drop (name.length + 1) = zeroPadded width n := by
    rw [List.drop_append]
    simp
  simp [isNumbered, hstart, hdrop, hread, le_length_zeroPadded]

end Interpreter

/-! ## ASCII -/

theorem toUpper_eq_self {c : Char} (h : ¬(97 ≤ c.toNat ∧ c.toNat ≤ 122)) : c.toUpper = c := by
  unfold Char.toUpper
  rw [dif_neg]
  exact fun hlower ↦ h ⟨UInt32.le_iff_toNat_le.mp hlower.1, UInt32.le_iff_toNat_le.mp hlower.2⟩

/-- The lower case letters are the ones with these numbers. -/
theorem eq_ofNat_of_lower {c : Char} (h : 97 ≤ c.toNat ∧ c.toNat ≤ 122) : ∃ n < 26, c = Char.ofNat (97 + n) := by
  refine ⟨c.toNat - 97, by omega, ?_⟩
  rw [show 97 + (c.toNat - 97) = c.toNat by omega, Char.ofNat_toNat]

theorem toUpper_toUpper (c : Char) : c.toUpper.toUpper = c.toUpper := by
  by_cases h : 97 ≤ c.toNat ∧ c.toNat ≤ 122
  · obtain ⟨n, hn, rfl⟩ := eq_ofNat_of_lower h
    revert n
    decide
  · rw [toUpper_eq_self h, toUpper_eq_self h]

theorem isWhitespace_toUpper (c : Char) : c.toUpper.isWhitespace = c.isWhitespace := by
  by_cases h : 97 ≤ c.toNat ∧ c.toNat ≤ 122
  · obtain ⟨n, hn, rfl⟩ := eq_ofNat_of_lower h
    revert n
    decide
  · rw [toUpper_eq_self h]

/-- What an interpreter does with ASCII text and with the timestamps the services write. -/
def asciiInterpreter : Interpreter where
  isSpace := Char.isWhitespace
  upper text := String.ofList (text.toList.map Char.toUpper)
  digit := asciiDigit
  sameLetter c d := c.toUpper == d.toUpper
  repr value := String.ofList (Json.compactText value)
  fromIsoFormat := readMoment
  sha256 := Sha256.digest
  digit_readsAscii := asciiDigit_readsAscii
  sameLetter_refl c := by simp
  upper_upper text := by
    have htwice : Char.toUpper ∘ Char.toUpper = Char.toUpper := funext toUpper_toUpper
    rw [String.toList_ofList, List.map_map, htwice]
  strip_upper_strip text := by
    simp only [stripText, String.toList_ofList, stripChars_map isWhitespace_toUpper, stripChars_stripChars]
  fromIsoFormat_isoformat := readMoment_isoformat

end WorkStack.Python
