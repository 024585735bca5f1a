import WorkStack.Python.Calendar

/-!
# Dates of ISO 8601

`date.fromisoformat` reads a day of the calendar and a day of a week of the year, each of them with
hyphens and without. A date is written with hyphens only, so a text is written back as it was read
exactly when it has the shape `YYYY-MM-DD`.
-/

namespace WorkStack.Python

/-! ## Digits of a given width -/

theorem toNat_sub_lt_ten {c : Char} (h : c.isDigit) : 48 ≤ c.toNat ∧ c.toNat - 48 < 10 := by
  simp only [Char.isDigit, Bool.and_eq_true, decide_eq_true_eq, ge_iff_le, UInt32.le_iff_toNat_le] at h
  have hlow : 48 ≤ c.toNat := h.1
  have hhigh : c.toNat ≤ 57 := h.2
  omega

theorem eq_of_toNat_sub {c d : Char} (hc : c.isDigit) (hd : d.isDigit) (h : c.toNat - 48 = d.toNat - 48) : c = d := by
  have hcn := toNat_sub_lt_ten hc
  have hdn := toNat_sub_lt_ten hd
  have hsame : c.toNat = d.toNat := by omega
  calc
    c = Char.ofNat c.toNat := (Char.ofNat_toNat c).symm
    _ = Char.ofNat d.toNat := by rw [hsame]
    _ = d := Char.ofNat_toNat d

theorem ofDigitChars_lt {text : List Char} (h : ∀ c ∈ text, c.isDigit) (n : ℕ) :
    Nat.ofDigitChars 10 text n < (n + 1) * 10 ^ text.length := by
  induction text generalizing n with
  | nil => simp
  | cons c rest ih =>
      have hc := (toNat_sub_lt_ten (h c (List.mem_cons_self ..))).2
      have hrest := ih (fun d hd ↦ h d (List.mem_cons_of_mem _ hd)) (10 * n + (c.toNat - 48))
      rw [Nat.ofDigitChars_cons, List.length_cons]
      calc
        Nat.ofDigitChars 10 rest (10 * n + (c.toNat - '0'.toNat))
          < (10 * n + (c.toNat - 48) + 1) * 10 ^ rest.length := hrest
        _ ≤ (n + 1) * 10 * 10 ^ rest.length := Nat.mul_le_mul_right _ (by omega)
        _ = (n + 1) * 10 ^ (rest.length + 1) := by rw [Nat.pow_succ, Nat.mul_assoc, Nat.mul_comm 10]

/-- Digits of one length are told apart by their number. -/
theorem ofDigitChars_injective {text other : List Char} (htext : ∀ c ∈ text, c.isDigit)
    (hother : ∀ c ∈ other, c.isDigit) (hlength : text.length = other.length) {m n : ℕ}
    (h : Nat.ofDigitChars 10 text m = Nat.ofDigitChars 10 other n) : m = n ∧ text = other := by
  induction text generalizing other m n with
  | nil =>
      have hnil : other = [] := List.length_eq_zero_iff.mp hlength.symm
      subst hnil
      simpa using h
  | cons c rest ih =>
      match other, hlength with
      | d :: others, hlength =>
          rw [Nat.ofDigitChars_cons, Nat.ofDigitChars_cons] at h
          have hrest : ∀ e ∈ rest, e.isDigit := fun e he ↦ htext e (List.mem_cons_of_mem _ he)
          have hothers : ∀ e ∈ others, e.isDigit := fun e he ↦ hother e (List.mem_cons_of_mem _ he)
          have ⟨hvalue, hsame⟩ := ih hrest hothers (by simpa using hlength) h
          have hc := htext c (List.mem_cons_self ..)
          have hd := hother d (List.mem_cons_self ..)
          have hcn := toNat_sub_lt_ten hc
          have hdn := toNat_sub_lt_ten hd
          have hzero : '0'.toNat = 48 := rfl
          constructor
          · omega
          · rw [hsame, eq_of_toNat_sub hc hd (by omega)]

/-- A run of digits is the number it has, padded to its length. -/
theorem zeroPadded_of_number {text : List Char} {n : ℕ} (h : ∀ c ∈ text, c.isDigit)
    (hnumber : number asciiDigit text = some n) : zeroPadded text.length n = text := by
  unfold number at hnumber
  split at hnumber
  · cases hnumber
  · rename_i hne
    have hpos : 0 < text.length := List.length_pos_iff.mpr hne
    rw [readDigits_eq_ofDigitChars asciiDigit_readsAscii 0 h] at hnumber
    have hvalue : Nat.ofDigitChars 10 text 0 = n := Option.some.inj hnumber
    have hbound : n < 10 ^ text.length := by
      rw [← hvalue]
      simpa using ofDigitChars_lt h 0
    have hdigits : ∀ c ∈ zeroPadded text.length n, c.isDigit := fun c hc ↦ isDigit_of_mem_zeroPadded hc
    have hback : Nat.ofDigitChars 10 (zeroPadded text.length n) 0 = n := by
      simp [zeroPadded, List.leftpad, Nat.ofDigitChars_append]
    exact (ofDigitChars_injective hdigits h (length_zeroPadded hpos hbound) (hback.trans hvalue.symm)).2

/-! ## Weeks -/

/-- `_days_before_year`, one less than the ordinal of January 1. -/
def daysBeforeYear (year : ℕ) : ℕ :=
  let before := year - 1
  before * 365 + before / 4 - before / 100 + before / 400

/-- The weekday of January 1, where Monday is 0. -/
def firstWeekday (year : ℕ) : ℕ := daysBeforeYear year % 7

/-- Whether a year has a week 53: it begins on a Thursday, or on a Wednesday if it is a leap year. -/
def hasWeek53 (year : ℕ) : Bool := firstWeekday year == 3 || (firstWeekday year == 2 && isLeapYear year)

/-- The days from January 1 to the Monday of week 1, the week with the first Thursday. -/
def firstMonday (year : ℕ) : ℤ := if 3 < firstWeekday year then 7 - firstWeekday year else -firstWeekday year

/-- The month and day of a number of days after the first of these months. -/
def monthAndDay (year : ℕ) : List ℕ → ℕ → Option (ℕ × ℕ)
  | [], _ => none
  | month :: months, days =>
      if days < daysInMonth year month then some (month, days + 1)
      else monthAndDay year months (days - daysInMonth year month)

def daysInYear (year : ℕ) : ℕ := if isLeapYear year then 366 else 365

/-- The date of a number of days after January 1, less than a week outside of the year. -/
def dayOfYear (year : ℕ) (days : ℤ) : Option (ℕ × ℕ × ℕ) :=
  if days < 0 then some (year - 1, 12, (32 + days).toNat)
  else if (daysInYear year : ℤ) ≤ days then some (year + 1, 1, (days - daysInYear year).toNat + 1)
  else (monthAndDay year (List.range' 1 12) days.toNat).map fun date ↦ (year, date)

/-- `_isoweek_to_gregorian` -/
def weekDate (year week day : ℕ) : Option (ℕ × ℕ × ℕ) :=
  if 1 ≤ year ∧ 1 ≤ week ∧ (week ≤ 52 ∨ week = 53 ∧ hasWeek53 year) ∧ 1 ≤ day ∧ day ≤ 7 then
    dayOfYear year (firstMonday year + (week - 1) * 7 + (day - 1))
  else none

/-! ## Reading a date -/

/-- `date(year, month, day)` -/
def checkedDate (date : ℕ × ℕ × ℕ) : Option (ℕ × ℕ × ℕ) :=
  if IsDate date.1 date.2.1 date.2.2 then some date else none

/-- A day of the calendar, with its month and its day from these places on. -/
def calendarDateAt (text : List Char) (month day : ℕ) : Option (ℕ × ℕ × ℕ) := do
  let year ← field text 0 4
  let month ← field text month 2
  let day ← field text day 2
  checkedDate (year, month, day)

/-- The day of a week at a place; without a place it is Monday. -/
def weekdayAt (text : List Char) : Option ℕ → Option ℕ
  | none => some 1
  | some place => field text place 1

/-- A day of a week, with the week and the day from these places on. -/
def weekDateAt (text : List Char) (week : ℕ) (day : Option ℕ) : Option (ℕ × ℕ × ℕ) := do
  let year ← field text 0 4
  let week ← field text week 2
  let day ← weekdayAt text day
  let date ← weekDate year week day
  checkedDate date

def hasShape (shape : String) (text : List Char) : Bool := fitsShape Char.isDigit shape.toList text

/-- `date.fromisoformat` -/
def dateFromIsoFormat (text : String) : Option (ℕ × ℕ × ℕ) :=
  let chars := text.toList
  if hasShape "dddd-dd-dd" chars then calendarDateAt chars 5 8
  else if hasShape "dddddddd" chars then calendarDateAt chars 4 6
  else if hasShape "dddd-Wdd" chars then weekDateAt chars 6 none
  else if hasShape "ddddWdd" chars then weekDateAt chars 5 none
  else if hasShape "dddd-Wdd-d" chars then weekDateAt chars 6 (some 9)
  else if hasShape "ddddWddd" chars then weekDateAt chars 5 (some 7)
  else none

example : dateFromIsoFormat "2020W534" = some (2020, 12, 31) := by decide

example : dateFromIsoFormat "9999-W52-6" = none := by decide

theorem checkedDate_eq_some {date read : ℕ × ℕ × ℕ} (h : checkedDate date = some read) :
    read = date ∧ IsDate read.1 read.2.1 read.2.2 := by
  unfold checkedDate at h
  split at h
  · rename_i hdate
    cases h
    exact ⟨rfl, hdate⟩
  · cases h

/-! ## The written form -/

/-- A text of a shape has its length, and holds digits and characters of the shape. -/
theorem of_fitsShape {isDigit : Char → Bool} {shape text : List Char} (h : fitsShape isDigit shape text = true) :
    text.length = shape.length ∧ ∀ c ∈ text, isDigit c = true ∨ c ∈ shape := by
  induction shape generalizing text with
  | nil =>
      cases text with
      | nil => exact ⟨rfl, fun c hc ↦ absurd hc List.not_mem_nil⟩
      | cons c text => cases h
  | cons s shape ih =>
      cases text with
      | nil => cases h
      | cons c text =>
          obtain ⟨hc, hrest⟩ := Bool.and_eq_true_iff.mp h
          obtain ⟨hlength, hall⟩ := ih hrest
          refine ⟨congrArg (· + 1) hlength, ?_⟩
          intro c' hc'
          rcases List.mem_cons.mp hc' with rfl | hmem
          · split at hc
            · exact .inl hc
            · right
              rw [beq_iff_eq.mp hc]
              exact List.mem_cons_self ..
          · rcases hall c' hmem with hdigit | hshape
            · exact .inl hdigit
            · exact .inr (List.mem_cons_of_mem _ hshape)

/-- The shape of a date with hyphens tells its characters. -/
theorem exists_chars_of_shape {text : List Char} (h : hasShape "dddd-dd-dd" text = true) :
    ∃ years months days : List Char, text = years ++ '-' :: months ++ '-' :: days ∧ years.length = 4 ∧
      months.length = 2 ∧ days.length = 2 ∧ ∀ c ∈ years ++ months ++ days, c.isDigit := by
  have hlength : text.length = 10 := (of_fitsShape h).1
  match text, hlength with
  | [a, b, c, d, x, e, f, y, g, i], _ =>
      simp only [hasShape, String.reduceToList, fitsShape, Bool.and_eq_true, beq_iff_eq, if_true, Char.reduceEq,
        if_false] at h
      obtain ⟨ha, hb, hc, hd, rfl, he, hf, rfl, hg, hi, -⟩ := h
      exact ⟨[a, b, c, d], [e, f], [g, i], rfl, rfl, rfl, rfl, by simp [ha, hb, hc, hd, he, hf, hg, hi]⟩

theorem hasShape_of_digits {years months days : List Char} (hy : years.length = 4) (hm : months.length = 2)
    (hd : days.length = 2) (hdigits : ∀ c ∈ years ++ months ++ days, c.isDigit) :
    hasShape "dddd-dd-dd" (years ++ '-' :: months ++ '-' :: days) = true := by
  match years, months, days, hy, hm, hd with
  | [a, b, c, d], [e, f], [g, i], _, _, _ =>
      simp only [List.cons_append, List.nil_append, List.mem_cons, List.not_mem_nil, or_false, forall_eq_or_imp,
        forall_eq] at hdigits
      simp [hasShape, fitsShape, hdigits]

section Written

variable {years months days : List Char}

theorem field_years (hy : years.length = 4) (rest : List Char) : field (years ++ rest) 0 4 = number asciiDigit years := by
  simp [field, ← hy]

theorem field_months (hy : years.length = 4) (hm : months.length = 2) :
    field (years ++ '-' :: months ++ '-' :: days) 5 2 = number asciiDigit months := by
  match years, months, hy, hm with
  | [a, b, c, d], [e, f], _, _ => rfl

theorem field_days (hy : years.length = 4) (hm : months.length = 2) (hd : days.length = 2) :
    field (years ++ '-' :: months ++ '-' :: days) 8 2 = number asciiDigit days := by
  match years, months, days, hy, hm, hd with
  | [a, b, c, d], [e, f], [g, i], _, _, _ => rfl

end Written

theorem lengths_of_isDate {year month day : ℕ} (h : IsDate year month day) :
    (zeroPadded 4 year).length = 4 ∧ (zeroPadded 2 month).length = 2 ∧ (zeroPadded 2 day).length = 2 := by
  have hdays := daysInMonth_le year month
  obtain ⟨_, hyear, _, hmonth, _, hday⟩ := h
  exact ⟨length_zeroPadded (by omega) (by omega), length_zeroPadded (by omega) (by omega),
    length_zeroPadded (by omega) (by omega)⟩

theorem fields_dateText {year month day : ℕ} (h : IsDate year month day) :
    field (Moment.dateText year month day) 0 4 = some year ∧ field (Moment.dateText year month day) 5 2 = some month ∧
      field (Moment.dateText year month day) 8 2 = some day := by
  obtain ⟨hy, hm, hd⟩ := lengths_of_isDate h
  have hread (width n : ℕ) : number asciiDigit (zeroPadded width n) = some n :=
    number_zeroPadded asciiDigit_readsAscii width n
  refine ⟨?_, ?_, ?_⟩
  · rw [Moment.dateText, List.append_assoc, field_years hy, hread]
  · rw [Moment.dateText, field_months hy hm, hread]
  · rw [Moment.dateText, field_days hy hm hd, hread]

theorem hasShape_dateText {year month day : ℕ} (h : IsDate year month day) :
    hasShape "dddd-dd-dd" (Moment.dateText year month day) = true := by
  obtain ⟨hy, hm, hd⟩ := lengths_of_isDate h
  apply hasShape_of_digits hy hm hd
  intro c hc
  simp only [List.mem_append] at hc
  rcases hc with (hc | hc) | hc
  all_goals exact isDigit_of_mem_zeroPadded hc

/-- What a text with hyphens is read as is written as the text. -/
theorem dateText_of_read {text : String} {year month day : ℕ} (hshape : hasShape "dddd-dd-dd" text.toList = true)
    (h : dateFromIsoFormat text = some (year, month, day)) :
    IsDate year month day ∧ text.toList = Moment.dateText year month day := by
  obtain ⟨years, months, days, htext, hy, hm, hd, hdigits⟩ := exists_chars_of_shape hshape
  simp only [dateFromIsoFormat, hshape, if_true, calendarDateAt, Option.bind_eq_bind, Option.bind_eq_some_iff] at h
  obtain ⟨year', hyear, month', hmonth, day', hday, h⟩ := h
  obtain ⟨hsame, hdate⟩ := checkedDate_eq_some h
  cases hsame
  rw [htext] at hyear hmonth hday
  rw [List.append_assoc, field_years hy] at hyear
  rw [field_months hy hm] at hmonth
  rw [field_days hy hm hd] at hday
  have hyears := zeroPadded_of_number (fun c hc ↦ hdigits c (by simp [hc])) hyear
  have hmonths := zeroPadded_of_number (fun c hc ↦ hdigits c (by simp [hc])) hmonth
  have hdays := zeroPadded_of_number (fun c hc ↦ hdigits c (by simp [hc])) hday
  rw [hy] at hyears
  rw [hm] at hmonths
  rw [hd] at hdays
  exact ⟨hdate, by rw [htext, Moment.dateText, hyears, hmonths, hdays]⟩

theorem isIsoDate_iff_exists {text : String} :
    isIsoDate text = true ↔ ∃ year month day, IsDate year month day ∧ text.toList = Moment.dateText year month day := by
  constructor
  · intro h
    unfold isIsoDate at h
    split at h
    · rename_i year month day _ _ _
      simp only [Bool.and_eq_true, decide_eq_true_eq, beq_iff_eq] at h
      exact ⟨year, month, day, h⟩
    · cases h
  · intro ⟨year, month, day, hdate, htext⟩
    obtain ⟨hyears, hmonths, hdays⟩ := fields_dateText hdate
    simp [isIsoDate, htext, hyears, hmonths, hdays, hdate]

/-- A text that is read is written back as it was exactly when it has its hyphens in the places of the calendar. -/
theorem isIsoDate_iff_hasShape {text : String} (h : (dateFromIsoFormat text).isSome) :
    isIsoDate text = true ↔ hasShape "dddd-dd-dd" text.toList = true := by
  rw [isIsoDate_iff_exists]
  constructor
  · intro ⟨year, month, day, hdate, htext⟩
    rw [htext]
    exact hasShape_dateText hdate
  · intro hshape
    obtain ⟨⟨year, month, day⟩, hread⟩ := Option.isSome_iff_exists.mp h
    exact ⟨year, month, day, dateText_of_read hshape hread⟩

end WorkStack.Python
