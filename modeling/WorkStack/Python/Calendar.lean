import Mathlib
import WorkStack.Python.Decimal

/-!
# Moments and calendar days

A moment is a second of UTC. It is written the way `datetime.isoformat` writes it, and two moments
are compared by the seconds since the beginning of the calendar.
-/

namespace WorkStack.Python

def isLeapYear (year : ℕ) : Bool := year % 4 == 0 && (year % 100 != 0 || year % 400 == 0)

def daysInMonth (year month : ℕ) : ℕ :=
  if month = 2 then (if isLeapYear year then 29 else 28)
  else if month = 4 ∨ month = 6 ∨ month = 9 ∨ month = 11 then 30
  else 31

def IsDate (year month day : ℕ) : Prop :=
  1 ≤ year ∧ year ≤ 9999 ∧ 1 ≤ month ∧ month ≤ 12 ∧ 1 ≤ day ∧ day ≤ daysInMonth year month

instance (year month day : ℕ) : Decidable (IsDate year month day) := by
  unfold IsDate
  infer_instance

/-- A second of UTC, as `datetime.now(timezone.utc).replace(microsecond=0)` gives it. -/
structure Moment where
  year : ℕ
  month : ℕ
  day : ℕ
  hour : ℕ
  minute : ℕ
  second : ℕ
  isDate : IsDate year month day
  isTime : hour < 24 ∧ minute < 60 ∧ second < 60
  deriving DecidableEq

namespace Moment

/-- `toordinal` -/
def ordinal (m : Moment) : ℕ :=
  let before := m.year - 1
  let months := (List.range (m.month - 1)).map fun index ↦ daysInMonth m.year (index + 1)
  before * 365 + before / 4 - before / 100 + before / 400 + months.sum + m.day

/-- The seconds between two moments are the difference of theirs. -/
def seconds (m : Moment) : ℤ := ((m.ordinal * 24 + m.hour) * 60 + m.minute) * 60 + m.second

def dateText (year month day : ℕ) : List Char :=
  zeroPadded 4 year ++ '-' :: zeroPadded 2 month ++ '-' :: zeroPadded 2 day

/-- `isoformat()` up to the offset. -/
def isoformat (m : Moment) : List Char :=
  dateText m.year m.month m.day ++ 'T' :: zeroPadded 2 m.hour ++ ':' :: zeroPadded 2 m.minute ++
    ':' :: zeroPadded 2 m.second

/-- `utc_now()` at this moment. -/
def utcNow (m : Moment) : String := String.ofList (m.isoformat ++ ['Z'])

end Moment

/-- The number in the digits of a text from one place on. -/
def field (text : List Char) (start width : ℕ) : Option ℕ := number asciiDigit ((text.drop start).take width)

/-- `date.fromisoformat(text).isoformat() == text` -/
def isIsoDate (text : String) : Bool :=
  match field text.toList 0 4, field text.toList 5 2, field text.toList 8 2 with
  | some year, some month, some day => decide (IsDate year month day) &&
      text.toList == Moment.dateText year month day
  | _, _, _ => false

/-- Whether a text has a shape, in which `d` stands for a digit. -/
def fitsShape (isDigit : Char → Bool) : List Char → List Char → Bool
  | [], [] => true
  | s :: shape, c :: text => (if s = 'd' then isDigit c else s == c) && fitsShape isDigit shape text
  | _, _ => false

/-- What `datetime.fromisoformat` reads from a text: the second of UTC, what is left of it, and
whether its offset is the one of UTC. -/
structure Stamp where
  seconds : ℤ
  microsecond : ℕ
  utc : Bool
  deriving DecidableEq

/-- `datetime.fromisoformat` of a text that was written by `isoformat`, with the offset of UTC. -/
def readMoment (text : String) : Option Stamp :=
  match field text.toList 0 4, field text.toList 5 2, field text.toList 8 2, field text.toList 11 2,
    field text.toList 14 2, field text.toList 17 2 with
  | some year, some month, some day, some hour, some minute, some second =>
      if h : IsDate year month day ∧ hour < 24 ∧ minute < 60 ∧ second < 60 then
        let moment : Moment := ⟨year, month, day, hour, minute, second, h.1, h.2⟩
        if text.toList = moment.isoformat ++ "+00:00".toList then some ⟨moment.seconds, 0, true⟩ else none
      else none
  | _, _, _, _, _, _ => none

theorem daysInMonth_le (year month : ℕ) : daysInMonth year month ≤ 31 := by
  unfold daysInMonth
  split
  · split <;> omega
  · split <;> omega

theorem readMoment_isoformat (m : Moment) :
    readMoment (String.ofList (m.isoformat ++ "+00:00".toList)) = some ⟨m.seconds, 0, true⟩ := by
  have hdays := daysInMonth_le m.year m.month
  obtain ⟨_, hyear, _, hmonth, _, hday⟩ := m.isDate
  obtain ⟨hhour, hminute, hsecond⟩ := m.isTime
  have two : ∀ n, n < 100 → ∃ a b, zeroPadded 2 n = [a, b] ∧ number asciiDigit [a, b] = some n := by
    intro n hn
    obtain ⟨a, b, hab⟩ := List.length_eq_two.mp (length_zeroPadded Nat.two_pos hn)
    exact ⟨a, b, hab, hab ▸ number_zeroPadded asciiDigit_readsAscii 2 n⟩
  obtain ⟨a, b, c, d, hy⟩ : ∃ a b c d, zeroPadded 4 m.year = [a, b, c, d] := by
    have hlength : (zeroPadded 4 m.year).length = 4 := length_zeroPadded (by omega) (by omega)
    match zeroPadded 4 m.year, hlength with
    | [a, b, c, d], _ => exact ⟨a, b, c, d, rfl⟩
  have hyears : number asciiDigit [a, b, c, d] = some m.year :=
    hy ▸ number_zeroPadded asciiDigit_readsAscii 4 m.year
  obtain ⟨_, _, hmo, hmonths⟩ := two m.month (by omega)
  obtain ⟨_, _, hd, hdays⟩ := two m.day (by omega)
  obtain ⟨_, _, hh, hhours⟩ := two m.hour (by omega)
  obtain ⟨_, _, hmi, hminutes⟩ := two m.minute (by omega)
  obtain ⟨_, _, hs, hseconds⟩ := two m.second (by omega)
  have hvalid : IsDate m.year m.month m.day ∧ m.hour < 24 ∧ m.minute < 60 ∧ m.second < 60 :=
    ⟨m.isDate, m.isTime⟩
  simp [readMoment, field, Moment.isoformat, Moment.dateText, hy, hmo, hd, hh, hmi, hs, hyears, hmonths,
    hdays, hhours, hminutes, hseconds, hvalid]

end WorkStack.Python
