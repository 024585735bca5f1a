import WorkStack.Json

/-!
# Equality of values

`==` of two decoded values: dictionaries are compared without regard to their order, and truth
values are the numbers they stand for.
-/

namespace WorkStack.Json

mutual

def same : Json → Json → Bool
  | arr items, other =>
      match other with
      | arr others => sameItems items others
      | _ => false
  | obj fields, other =>
      match other with
      | obj others => fields.length == others.length && sameFields fields others
      | _ => false
  | null, other =>
      match other with
      | null => true
      | _ => false
  | str text, other =>
      match other with
      | str text' => text == text'
      | _ => false
  | float lexeme, other =>
      match other with
      | float lexeme' => lexeme == lexeme'
      | _ => false
  | int value, other => other.int? == some value
  | bool value, other => other.int? == some (if value then 1 else 0)

def sameItems : List Json → List Json → Bool
  | [], others => others.isEmpty
  | item :: items, others =>
      match others with
      | [] => false
      | other :: rest => same item other && sameItems items rest

def sameFields : List (String × Json) → List (String × Json) → Bool
  | [], _ => true
  | field :: fields, others => sameField field others && sameFields fields others

def sameField : String × Json → List (String × Json) → Bool
  | (name, value), others =>
      match others.lookup name with
      | some other => same value other
      | none => false

end

@[simp] theorem same_str (text text' : String) : same (str text) (str text') = (text == text') := by
  rw [same]

theorem same_str_left {text : String} {other : Json} : same (str text) other = true ↔ other = str text := by
  cases other with
  | str text' =>
      rw [same_str, beq_iff_eq]
      constructor
      · exact fun h ↦ congrArg str h.symm
      · exact fun h ↦ (str.inj h).symm
  | _ => simp [same]

example : same (obj [("a", int 1), ("b", str "x")]) (obj [("b", str "x"), ("a", bool true)]) = true := by
  decide +kernel

end WorkStack.Json
