import TreeAtlas.Json.Number

/-!
# Data values

A data value is a tree of objects and arrays over scalars. The fields of an object are kept in the
order of their keys, each key once: setting a field again replaces its value. `write` gives the
compact text.
-/

namespace TreeAtlas

inductive Json where
  | null
  | bool (b : Bool)
  | num (n : Json.Number)
  | str (s : String)
  | arr (items : List Json)
  | obj (fields : List (String × Json))

namespace Json

instance : Inhabited Json := ⟨.null⟩

/-- Fields in the order of their keys. -/
abbrev Fields := List (String × Json)

namespace Fields

/-- Sets a field and keeps the order. -/
def insert (key : String) (value : Json) : Fields → Fields
  | [] => [(key, value)]
  | (k, v) :: rest =>
    if key < k then (key, value) :: (k, v) :: rest
    else if key = k then (key, value) :: rest
    else (k, v) :: insert key value rest

def find? (key : String) (fields : Fields) : Option Json :=
  fields.lookup key

def erase (key : String) (fields : Fields) : Fields :=
  fields.filter fun field => field.1 != key

end Fields

/-- Whether a value counts as present: `null`, `false`, zero and the empty text do not. -/
def isTruthy : Json → Bool
  | .null => false
  | .bool b => b
  | .num n => !n.isZero
  | .str s => !s.isEmpty
  | .arr _ => true
  | .obj _ => true

def hexDigit (n : Nat) : Char :=
  Nat.digitChar n

/-- The escape of a character in a string: only the quote, the backslash and the control
characters below the space have one. -/
def escapedChar (c : Char) : List Char :=
  if c = '"' then ['\\', '"']
  else if c = '\\' then ['\\', '\\']
  else if 0x20 ≤ c.toNat then [c]
  else if c = '\x08' then ['\\', 'b']
  else if c = '\t' then ['\\', 't']
  else if c = '\n' then ['\\', 'n']
  else if c = '\x0c' then ['\\', 'f']
  else if c = '\r' then ['\\', 'r']
  else ['\\', 'u', '0', '0', hexDigit (c.toNat / 16), hexDigit (c.toNat % 16)]

def quote (s : String) : String :=
  String.ofList ('"' :: s.toList.flatMap escapedChar ++ ['"'])

mutual

/-- Appends the compact text of a value. -/
def writeOnto (out : String) : Json → String
  | .null => out ++ "null"
  | .bool b => out ++ if b then "true" else "false"
  | .num n => out ++ n.write
  | .str s => out ++ quote s
  | .arr items => writeItems (out ++ "[") true items ++ "]"
  | .obj fields => writeFields (out ++ "\x7b") true fields ++ "\x7d"

def writeItems (out : String) (first : Bool) : List Json → String
  | [] => out
  | v :: vs => writeItems (writeOnto (if first then out else out ++ ",") v) false vs

def writeFields (out : String) (first : Bool) : List (String × Json) → String
  | [] => out
  | (k, v) :: rest =>
    writeFields (writeOnto ((if first then out else out ++ ",") ++ quote k ++ ":") v) false rest

end

def write (v : Json) : String :=
  writeOnto "" v

end Json

end TreeAtlas
