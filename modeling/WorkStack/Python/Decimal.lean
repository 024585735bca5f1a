import Mathlib

/-!
# Decimal numbers in text

Numbers are written with `"{:0{width}d}".format` and read back with `int` from a run of digits.
Which characters are digits is left open: the interpreter knows many, and every law here needs only
that it knows the ten of ASCII.
-/

namespace WorkStack.Python

/-- `"{:0{width}d}".format(n)` -/
def zeroPadded (width n : ℕ) : List Char := (Nat.toDigits 10 n).leftpad width '0'

/-- The value of one of the ten ASCII digits. -/
def asciiDigit (c : Char) : Option ℕ := if c.isDigit then some (c.toNat - 48) else none

/-- `int` of a run of digits, continuing a number already read. -/
def readDigits (digit : Char → Option ℕ) : ℕ → List Char → Option ℕ
  | n, [] => some n
  | n, c :: rest =>
      match digit c with
      | some value => readDigits digit (10 * n + value) rest
      | none => none

/-- `int` of a nonempty run of digits. -/
def number (digit : Char → Option ℕ) (text : List Char) : Option ℕ :=
  if text = [] then none else readDigits digit 0 text

/-- The ten ASCII digits have their values. -/
def ReadsAscii (digit : Char → Option ℕ) : Prop := ∀ c, c.isDigit → digit c = some (c.toNat - 48)

theorem asciiDigit_readsAscii : ReadsAscii asciiDigit := by
  intro c hc
  rw [asciiDigit, if_pos hc]

section Digits

variable {digit : Char → Option ℕ}

theorem readDigits_eq_ofDigitChars (hdigit : ReadsAscii digit) (n : ℕ) {text : List Char}
    (htext : ∀ c ∈ text, c.isDigit) : readDigits digit n text = some (Nat.ofDigitChars 10 text n) := by
  induction text generalizing n with
  | nil => simp [readDigits]
  | cons c rest ih =>
      have hc : digit c = some (c.toNat - 48) := hdigit c (htext c (List.mem_cons_self ..))
      have hrest : ∀ c ∈ rest, c.isDigit := fun d hd ↦ htext d (List.mem_cons_of_mem _ hd)
      simp [readDigits, hc, ih _ hrest, Nat.ofDigitChars_cons]

theorem isDigit_of_mem_zeroPadded {width n : ℕ} {c : Char} (h : c ∈ zeroPadded width n) : c.isDigit := by
  rw [zeroPadded, List.leftpad, List.mem_append] at h
  rcases h with hzero | hdigit
  · rw [List.eq_of_mem_replicate hzero]
    decide
  · exact Nat.isDigit_of_mem_toDigits (by omega) (by omega) hdigit

theorem zeroPadded_ne_nil (width n : ℕ) : zeroPadded width n ≠ [] := by
  simp [zeroPadded, List.leftpad]

theorem le_length_zeroPadded (width n : ℕ) : width ≤ (zeroPadded width n).length := by
  simp only [zeroPadded, List.leftpad, List.length_append, List.length_replicate]
  omega

/-- A number below `10 ^ width` fills its width exactly. -/
theorem length_zeroPadded {width n : ℕ} (hwidth : 0 < width) (h : n < 10 ^ width) :
    (zeroPadded width n).length = width := by
  have hdigits : (Nat.toDigits 10 n).length ≤ width := (Nat.length_toDigits_le_iff (by omega) hwidth).mpr h
  simp only [zeroPadded, List.leftpad, List.length_append, List.length_replicate]
  omega

theorem length_toDigits_mono {m n : ℕ} (h : m ≤ n) : (Nat.toDigits 10 m).length ≤ (Nat.toDigits 10 n).length := by
  have hbound : n < 10 ^ (Nat.toDigits 10 n).length :=
    (Nat.length_toDigits_le_iff (by omega) Nat.length_toDigits_pos).mp le_rfl
  exact (Nat.length_toDigits_le_iff (by omega) Nat.length_toDigits_pos).mpr (lt_of_le_of_lt h hbound)

/-- A smaller number is not longer. -/
theorem length_zeroPadded_mono (width : ℕ) {m n : ℕ} (h : m ≤ n) :
    (zeroPadded width m).length ≤ (zeroPadded width n).length := by
  have hdigits := length_toDigits_mono h
  simp only [zeroPadded, List.leftpad, List.length_append, List.length_replicate]
  omega

/-- Reading a number back gives the number that was written. -/
theorem number_zeroPadded (hdigit : ReadsAscii digit) (width n : ℕ) :
    number digit (zeroPadded width n) = some n := by
  rw [number, if_neg (zeroPadded_ne_nil width n), readDigits_eq_ofDigitChars hdigit 0]
  · simp [zeroPadded, List.leftpad, Nat.ofDigitChars_append]
  · exact fun c hc ↦ isDigit_of_mem_zeroPadded hc

theorem zeroPadded_injective {width m n : ℕ} (h : zeroPadded width m = zeroPadded width n) : m = n := by
  have hread := congrArg (number asciiDigit) h
  simpa [number_zeroPadded asciiDigit_readsAscii] using hread

end Digits

end WorkStack.Python
