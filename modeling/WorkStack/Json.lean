import Mathlib

/-!
# Decoded documents and their bytes

Documents are decoded JSON. Their two serializations are the ones the store uses: the indented form
that becomes the bytes of a file, and the compact form that digests are taken over. Both sort the
keys of every object, so neither depends on the order in which a value was built.
-/

namespace WorkStack

abbrev Bytes := List UInt8

inductive Json where
  | null
  | bool (value : Bool)
  | int (value : Int)
  | float (lexeme : String)
  | str (value : String)
  | arr (items : List Json)
  | obj (fields : List (String × Json))
  deriving Repr, Inhabited

namespace Json

/-- The value of a field, as `dict.get` finds it. -/
def get? (name : String) : Json → Option Json
  | obj fields => fields.lookup name
  | _ => none

def isObject : Json → Bool
  | obj _ => true
  | _ => false

/-- The integer a value compares equal to. -/
def int? : Json → Option ℤ
  | int value => some value
  | bool value => some (if value then 1 else 0)
  | _ => none

/-! ## Serialization -/

def escapeChar (c : Char) : List Char :=
  let hexDigit (n : ℕ) : Char := if n < 10 then Char.ofNat (48 + n) else Char.ofNat (87 + n)
  if c = '"' then ['\\', '"']
  else if c = '\\' then ['\\', '\\']
  else if c = '\n' then ['\\', 'n']
  else if c = '\r' then ['\\', 'r']
  else if c = '\t' then ['\\', 't']
  else if c.toNat = 8 then ['\\', 'b']
  else if c.toNat = 12 then ['\\', 'f']
  else if c.toNat < 32 then
    ['\\', 'u', '0', '0', hexDigit (c.toNat / 16), hexDigit (c.toNat % 16)]
  else [c]

def quoted (text : String) : List Char := '"' :: text.toList.flatMap escapeChar ++ ['"']

/-- The fields in the order of their names, as `sort_keys` has it. -/
def sortFields {α : Type} (fields : List (String × α)) : List (String × α) :=
  fields.insertionSort fun a b ↦ a.1.toList ≤ b.1.toList

def joined (separator : List Char) (parts : List (List Char)) : List Char :=
  separator.intercalate parts

/-- The text of a value that holds no other value. -/
def leaf : Json → List Char
  | bool true => "true".toList
  | bool false => "false".toList
  | int value => (toString value).toList
  | float lexeme => lexeme.toList
  | str value => quoted value
  | _ => "null".toList

mutual

/-- `json.dumps` with `ensure_ascii=False`, compact separators and sorted keys. -/
def compactText : Json → List Char
  | arr items => '[' :: joined [','] (compactItems items) ++ [']']
  | obj fields =>
      '{' :: joined [','] ((sortFields (compactFields fields)).map fun field ↦
        quoted field.1 ++ ':' :: field.2) ++ ['}']
  | value => leaf value

def compactItems : List Json → List (List Char)
  | [] => []
  | item :: items => compactText item :: compactItems items

def compactFields : List (String × Json) → List (String × List Char)
  | [] => []
  | field :: fields => compactField field :: compactFields fields

def compactField : String × Json → String × List Char
  | (name, value) => (name, compactText value)

end

def newline (depth : ℕ) : List Char := '\n' :: List.replicate (2 * depth) ' '

mutual

/-- `json.dumps` with `ensure_ascii=False`, `indent=2` and sorted keys, at a nesting depth. -/
def indentedText (depth : ℕ) : Json → List Char
  | arr [] => ['[', ']']
  | arr items =>
      '[' :: newline (depth + 1) ++ joined (',' :: newline (depth + 1))
        (indentedItems (depth + 1) items) ++ newline depth ++ [']']
  | obj [] => ['{', '}']
  | obj fields =>
      '{' :: newline (depth + 1) ++ joined (',' :: newline (depth + 1))
        ((sortFields (indentedFields (depth + 1) fields)).map fun field ↦
          quoted field.1 ++ ':' :: ' ' :: field.2) ++ newline depth ++ ['}']
  | value => leaf value

def indentedItems (depth : ℕ) : List Json → List (List Char)
  | [] => []
  | item :: items => indentedText depth item :: indentedItems depth items

def indentedFields (depth : ℕ) : List (String × Json) → List (String × List Char)
  | [] => []
  | field :: fields => indentedField depth field :: indentedFields depth fields

def indentedField (depth : ℕ) : String × Json → String × List Char
  | (name, value) => (name, indentedText depth value)

end

def utf8 (text : List Char) : Bytes := text.flatMap String.utf8EncodeChar

/-- `_compact_json`: the bytes a digest of a value is taken over. -/
def compactJson (value : Json) : Bytes := utf8 (compactText value)

/-- `_serialized_json_bytes`: the bytes a value becomes on disk. -/
def serializedJsonBytes (value : Json) : Bytes := utf8 (indentedText 0 value ++ ['\n'])

example : compactText (obj [("b", arr [int 1, null]), ("a", str "x\"")]) =
    "\x7b\"a\":\"x\\\"\",\"b\":[1,null]\x7d".toList := by decide

example : indentedText 0 (obj [("b", arr [int (-1), obj []]), ("a", bool true)]) =
    "\x7b\n  \"a\": true,\n  \"b\": [\n    -1,\n    \x7b\x7d\n  ]\n\x7d".toList := by decide

end Json

end WorkStack
