import WorkStack.Python.Interpreter

/-!
# The shapes of timestamps

The pattern of RFC 3339, with a fraction of the second or without one. A digit is whatever the
interpreter takes for one.
-/

namespace WorkStack.Python

variable (P : Interpreter)

def isAnyDigit (c : Char) : Bool := (P.digit c).isSome

/-- `(?:[01]\d|2[0-3]):[0-5]\d` -/
def isHourMinute : List Char → Bool
  | [a, b, ':', c, d] =>
      ((a == '0' || a == '1') && isAnyDigit P b || a == '2' && '0' ≤ b && b ≤ '3') &&
        '0' ≤ c && c ≤ '5' && isAnyDigit P d
  | _ => false

/-- The shape of a date, a `T` and a time of day to the second. -/
def isDateTimeShape (text : List Char) : Bool :=
  fitsShape (isAnyDigit P) "dddd-dd-ddT".toList (text.take 11) && isHourMinute P ((text.drop 11).take 5) &&
    (match text.drop 16 with
      | [':', a, b] => '0' ≤ a && a ≤ '5' && isAnyDigit P b
      | _ => false)

/-- `Z` or a signed number of hours and minutes. -/
def isOffset : List Char → Bool
  | ['Z'] => true
  | c :: rest => (c == '+' || c == '-') && isHourMinute P rest
  | [] => false

/-- The digits of the fraction in what follows the second, if that is well formed. -/
def fractionOf : List Char → Option (List Char)
  | '.' :: rest =>
      let digits := rest.takeWhile (isAnyDigit P)
      if digits ≠ [] ∧ isOffset P (rest.drop digits.length) then some digits else none
  | rest => if isOffset P rest then some [] else none

/-- The fraction of a text that fits the pattern. -/
def rfc3339Fraction (text : String) : Option (List Char) :=
  if isDateTimeShape P (text.toList.take 19) then fractionOf P (text.toList.drop 19) else none

/-- A stamp of UTC to the second. -/
def isStamp (text : String) : Bool :=
  isDateTimeShape P (text.toList.take 19) && text.toList.drop 19 == ['Z']

end WorkStack.Python
