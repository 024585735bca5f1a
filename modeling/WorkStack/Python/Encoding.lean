import WorkStack.Json

/-!
# Documents in the order they were built

`json.dumps` with `ensure_ascii` and compact separators, the keys in the order of the object. What is
written is plain ASCII, so that a text takes as many bytes as it has characters.
-/

namespace WorkStack.Json

def hexDigits (n : ℕ) : List Char :=
  let hexDigit (digit : ℕ) : Char := if digit < 10 then Char.ofNat (48 + digit) else Char.ofNat (87 + digit)
  ['\\', 'u', hexDigit (n / 4096 % 16), hexDigit (n / 256 % 16), hexDigit (n / 16 % 16), hexDigit (n % 16)]

/-- One character; above the basic plane it is written as its two surrogates. -/
def asciiChar (c : Char) : List Char :=
  if c.toNat < 127 then escapeChar c
  else if c.toNat < 65536 then hexDigits c.toNat
  else hexDigits (55296 + (c.toNat - 65536) / 1024) ++ hexDigits (56320 + (c.toNat - 65536) % 1024)

def asciiQuoted (text : String) : List Char := '"' :: text.toList.flatMap asciiChar ++ ['"']

mutual

/-- `json.dumps` with `ensure_ascii=True` and compact separators. -/
def asciiText : Json → List Char
  | arr items => '[' :: joined [','] (asciiItems items) ++ [']']
  | obj fields => '\x7b' :: joined [','] (asciiFields fields) ++ ['\x7d']
  | str value => asciiQuoted value
  | value => leaf value

def asciiItems : List Json → List (List Char)
  | [] => []
  | item :: items => asciiText item :: asciiItems items

def asciiFields : List (String × Json) → List (List Char)
  | [] => []
  | field :: fields => asciiField field :: asciiFields fields

def asciiField : String × Json → List Char
  | (name, value) => asciiQuoted name ++ ':' :: asciiText value

end

example : asciiText (obj [("b", arr [int 1, null]), ("a", str "é\"")]) =
    "\x7b\"b\":[1,null],\"a\":\"\\u00e9\\\"\"\x7d".toList := by decide

end WorkStack.Json
