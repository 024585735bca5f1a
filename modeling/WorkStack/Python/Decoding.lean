import WorkStack.Python.Dict
import WorkStack.Json

/-!
# Reading decoded values

A reader goes through a decoded value and refuses at the first place that is not as it should be. The
steps below are the ones that readers are put together from: a check with the error it ends in, and the
kinds of value that a field may be asked to have.
-/

namespace WorkStack.Python.Decoding

variable {ε : Type}

/-- An object holds each of its keys once. -/
abbrev Fields := Dict String Json

def check (condition : Bool) (error : ε) : Except ε Unit := if condition then .ok () else .error error

/-- `raw[key]` of a key that is there. -/
def item (fields : Fields) (key : String) : Json := (Dict.get fields key).getD .null

/-- `set(raw) == allowed` -/
def hasKeys (allowed : List String) (fields : Fields) : Bool :=
  (Dict.keys fields).all allowed.contains && allowed.all (Dict.keys fields).contains

def asObject (error : ε) : Json → Except ε Fields
  | .obj fields => .ok fields
  | _ => .error error

def asList (error : ε) : Json → Except ε (List Json)
  | .arr items => .ok items
  | _ => .error error

def asText (error : ε) : Json → Except ε String
  | .str text => .ok text
  | _ => .error error

def asBool (error : ε) : Json → Except ε Bool
  | .bool value => .ok value
  | _ => .error error

/-- An `int` that is no `bool`. -/
def asInt (error : ε) : Json → Except ε ℤ
  | .int value => .ok value
  | _ => .error error

/-- Whether a value is this text. -/
def isText (text : String) : Json → Bool
  | .str other => other == text
  | _ => false

variable {error : ε}

theorem check_eq_ok {condition : Bool} {result : Unit} :
    check condition error = .ok result ↔ condition = true := by
  simp [check]

variable {value : Json}

theorem asObject_eq_ok {fields : Fields} :
    asObject error value = .ok fields ↔ value = .obj fields := by
  cases value <;> simp [asObject]

theorem asList_eq_ok {items : List Json} :
    asList error value = .ok items ↔ value = .arr items := by
  cases value <;> simp [asList]

theorem asText_eq_ok {text : String} : asText error value = .ok text ↔ value = .str text := by
  cases value <;> simp [asText]

theorem asBool_eq_ok {flag : Bool} : asBool error value = .ok flag ↔ value = .bool flag := by
  cases value <;> simp [asBool]

theorem asInt_eq_ok {number : ℤ} : asInt error value = .ok number ↔ value = .int number := by
  cases value <;> simp [asInt]

end WorkStack.Python.Decoding
