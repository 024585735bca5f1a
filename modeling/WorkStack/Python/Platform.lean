import WorkStack.Python.Interpreter

/-!
# The standard library

The parsers of the standard library that only some services use: UUIDs, calendar dates, JSON texts and
regular expressions.
-/

namespace WorkStack.Python

/-- What is asked of a `uuid.UUID`. -/
structure Uuid where
  text : String
  isNil : Bool
  isRfc4122 : Bool
  deriving DecidableEq

structure Platform extends Interpreter where
  /-- `uuid.UUID(text)` -/
  uuid : String → Option Uuid
  /-- `str(uuid.uuid5(namespace, name))` -/
  uuid5 : Uuid → String → String
  /-- Whether `date.fromisoformat(text)` reads a date. -/
  readsDate : String → Bool
  /-- `json.loads(text)` -/
  loads : String → Option Json
  /-- `re.search(pattern, text) is not None` -/
  search : String → String → Bool

namespace Platform

variable (P : Platform)

/-- Whether a text is the canonical form of a UUID other than the nil one. -/
def isCanonicalUuid (text : String) : Bool :=
  match P.uuid text with
  | some parsed => !parsed.isNil && parsed.text == text
  | none => false

/-- Whether it is of the variant of RFC 4122 besides. -/
def isRfc4122Uuid (text : String) : Bool :=
  match P.uuid text with
  | some parsed => !parsed.isNil && parsed.text == text && parsed.isRfc4122
  | none => false

end Platform

/-- What a platform does with the canonical texts of UUIDs, with texts that hold no secret, and with the
names and texts that are listed for it. -/
def asciiPlatform (names : List ((String × String) × String)) (texts : List (String × Json)) : Platform where
  toInterpreter := asciiInterpreter
  uuid text :=
    if fitsShape (fun c ↦ c.isDigit || ('a' ≤ c && c ≤ 'f')) "dddddddd-dddd-dddd-dddd-dddddddddddd".toList
        text.toList then
      some ⟨text, text.toList.all fun c ↦ c == '0' || c == '-', (text.toList.drop 19).head?.any (· ∈ "89ab".toList)⟩
    else none
  uuid5 parsed name := (names.lookup (parsed.text, name)).getD ""
  readsDate := isIsoDate
  loads text := texts.lookup text
  search _ _ := false

example : (asciiPlatform [] []).isRfc4122Uuid "6f1c2b7e-9a54-4d3e-8f10-2b7c5a9d4e61" = true := by decide

end WorkStack.Python
