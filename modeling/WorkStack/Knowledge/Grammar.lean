import WorkStack.Effect.Refusing
import WorkStack.Python.Platform
import WorkStack.Python.Timestamps
import WorkStack.Streams.EventContract

/-!
# The grammar of knowledge requests

The texts that a request and the ledger of requests are made of: aliases, digests, identifiers and
instants. An instant keeps its fraction of a second as the digits that were written, so no two instants
are confused by rounding.
-/

open WorkStack.Python WorkStack.Effect.Refusing

namespace WorkStack.Knowledge

/-- What the requests take from the libraries. -/
structure Library extends Platform where
  /-- `urllib.parse.unquote` -/
  unquote : String → String

/-- `KnowledgeLedgerError` and `KnowledgeRequestError`, and the error of a calendar that ends. -/
inductive Refusal where
  | ledger (code : String) (field : Option String)
  | request (code : String) (field : Option String)
  | overflow
  deriving DecidableEq, Repr

abbrev Checked := Except Refusal

def maxTaskRevision : ℤ := 2 ^ 53 - 1

def maxCorpusRefChars : ℕ := 64

/-! ## Patterns -/

def isLowerAlnum (c : Char) : Bool := ('a' ≤ c && c ≤ 'z') || c.isDigit

/-- `CORPUS_REF_RE.fullmatch(text)` -/
def isCorpusRef (text : String) : Bool :=
  text.toList.head?.any isLowerAlnum && text.toList.getLast?.any isLowerAlnum && text.length ≤ maxCorpusRefChars &&
    text.toList.all fun c ↦ isLowerAlnum c || c == '.' || c == '_' || c == '-'

/-- `CAPTURE_ID_RE.fullmatch(text)` -/
def isCaptureId (text : String) : Bool := Streams.isNumberedText "C-".toList 4 text.toList

/-- `SHA256_RE.fullmatch(text)` -/
def isDigest (text : String) : Bool :=
  text.toList.take 7 == "sha256:".toList && Streams.fits (Streams.isHexRun 64) (text.toList.drop 7)

/-- `TASK_ID_RE.fullmatch(text)` -/
def isTaskId (P : Interpreter) (text : String) : Bool :=
  (P.matchStart "T-".toList text.toList).any fun digits ↦
    4 ≤ digits.length && digits.all (isAnyDigit P)

/-! ## Instants -/

/-- `_RFC3339Instant`: the second of UTC, and the digits of the fraction without the last zeros. -/
structure Instant where
  second : ℤ
  fraction : List Char
  deriving DecidableEq

namespace Instant

/-- The order of the dataclass. -/
def before (a b : Instant) : Bool :=
  decide (a.second < b.second) || (a.second == b.second && decide (a.fraction < b.fraction))

end Instant

/-- The last second that a `datetime` can hold. -/
def lastSecond : ℤ := 315537983999

/-- `rstrip("0")` -/
def withoutZeros (digits : List Char) : List Char := (digits.reverse.dropWhile (· == '0')).reverse

/-- The text that `parse_rfc3339` hands to `datetime.fromisoformat`. -/
def isoCandidate (text : String) : String :=
  if text.toList.getLast? = some 'Z' then String.ofList (text.toList.dropLast ++ "+00:00".toList) else text

/-- `parse_rfc3339`, where `rfc3339Fraction` is the group `fraction` of `RFC3339_RE`. -/
def parseRfc3339 (P : Interpreter) (text : String) : Option Instant := do
  let fraction ← rfc3339Fraction P text
  let stamp ← P.fromIsoFormat (isoCandidate text)
  if 86400 ≤ stamp.seconds ∧ stamp.seconds ≤ lastSecond then
    some ⟨stamp.seconds, withoutZeros fraction⟩
  else none

example : (parseRfc3339 asciiInterpreter "2026-09-01T08:30:00Z").isSome = true := by decide

/-! ## Readers of values

What the ledger and the requests read alike, each with its own refusals. -/

section Readers

variable (refuse : String → Refusal)

/-- `_exact_int` -/
def exactInt (minimum maximum : ℤ) : Json → Checked ℤ
  | .int value => if minimum ≤ value ∧ value ≤ maximum then .ok value else .error (refuse "out_of_range")
  | _ => .error (refuse "invalid_number")

/-- `_canonical_uuid` -/
def canonicalUuid (P : Platform) : Json → Checked String
  | .str text => if P.isCanonicalUuid text then .ok text else .error (refuse "invalid_uuid")
  | _ => .error (refuse "invalid_uuid")

/-- A text with a property. -/
def matching (accepts : String → Bool) (code : String) : Json → Checked String
  | .str text => if accepts text then .ok text else .error (refuse code)
  | _ => .error (refuse code)

/-- The fields of an object that has these keys and no other. -/
def closedObject (wrongKind : String) (allowed : List String) : Json → Checked (Dict String Json)
  | .obj fields =>
      if (Dict.keys fields).any fun key ↦ !allowed.contains key then .error (refuse "unknown_field")
      else if allowed.any fun key ↦ !(Dict.keys fields).contains key then .error (refuse "missing_field")
      else .ok fields
  | _ => .error (refuse wrongKind)

variable {refuse}

/-! A value that was written and is accepted is read as what it was. -/

theorem exactInt_int {minimum maximum value result : ℤ} (h : exactInt refuse minimum maximum (.int value) = .ok result) :
    result = value := by
  simp only [exactInt, ite_ok_eq_ok, Except.ok.injEq] at h
  exact h.2.symm

theorem matching_str {accepts : String → Bool} {code text result : String}
    (h : matching refuse accepts code (.str text) = .ok result) : result = text := by
  simp only [matching, ite_ok_eq_ok, Except.ok.injEq] at h
  exact h.2.symm

theorem canonicalUuid_str {P : Platform} {text result : String} (h : canonicalUuid refuse P (.str text) = .ok result) :
    result = text := by
  simp only [canonicalUuid, ite_ok_eq_ok, Except.ok.injEq] at h
  exact h.2.symm

theorem closedObject_obj {wrongKind : String} {allowed : List String} {fields result : Dict String Json}
    (h : closedObject refuse wrongKind allowed (.obj fields) = .ok result) : result = fields := by
  simp only [closedObject, ite_eq_ok, Except.ok.injEq] at h
  exact h.2.2.symm

end Readers

end WorkStack.Knowledge
