import TreeAtlas.Json.Value

/-!
# Written records

What records are written as: fields in the order of the record, numbers of either width, and data
values as they are. There is a compact text and one with a line for each field and item.
-/

namespace TreeAtlas

inductive Written where
  | null
  | flag (b : Bool)
  | whole (n : Nat)
  | single (x : Float32)
  | text (s : String)
  | data (v : Json)
  | list (items : List Written)
  | record (fields : List (String × Written))

namespace Written

def optional {α : Type} (write : α → Written) : Option α → Written
  | none => .null
  | some a => write a

/-- Text of what holds nothing else. -/
def scalar : Written → String
  | .null => "null"
  | .flag b => if b then "true" else "false"
  | .whole n => toString n
  | .single x => singleData x
  | .text s => Json.quote s
  | .data v => v.write
  | .list _ | .record _ => ""

mutual

def compactOnto (out : String) : Written → String
  | .list items => compactItems (out ++ "[") true items ++ "]"
  | .record fields => compactFields (out ++ "\x7b") true fields ++ "\x7d"
  | w => out ++ w.scalar

def compactItems (out : String) (first : Bool) : List Written → String
  | [] => out
  | w :: ws => compactItems (compactOnto (if first then out else out ++ ",") w) false ws

def compactFields (out : String) (first : Bool) : List (String × Written) → String
  | [] => out
  | (k, w) :: rest =>
    compactFields (compactOnto ((if first then out else out ++ ",") ++ Json.quote k ++ ":") w)
      false rest

end

def compact (w : Written) : String :=
  compactOnto "" w

/-- The start of a line `depth` levels in. -/
def newLine (depth : Nat) : String :=
  String.ofList ('\n' :: List.replicate (2 * depth) ' ')

mutual

def prettyOnto (depth : Nat) (out : String) : Written → String
  | .list [] => out ++ "[]"
  | .list items => prettyItems (depth + 1) (out ++ "[") true items ++ newLine depth ++ "]"
  | .record [] => out ++ "\x7b\x7d"
  | .record fields =>
    prettyFields (depth + 1) (out ++ "\x7b") true fields ++ newLine depth ++ "\x7d"
  | w => out ++ w.scalar

def prettyItems (depth : Nat) (out : String) (first : Bool) : List Written → String
  | [] => out
  | w :: ws =>
    prettyItems depth (prettyOnto depth ((if first then out else out ++ ",") ++ newLine depth) w)
      false ws

def prettyFields (depth : Nat) (out : String) (first : Bool) : List (String × Written) → String
  | [] => out
  | (k, w) :: rest =>
    prettyFields depth
      (prettyOnto depth
        ((if first then out else out ++ ",") ++ newLine depth ++ Json.quote k ++ ": ") w)
      false rest

end

/-- Two spaces a level, one line for each field and item. -/
def pretty (w : Written) : String :=
  prettyOnto 0 "" w

end Written

end TreeAtlas
