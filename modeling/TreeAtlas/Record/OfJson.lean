import TreeAtlas.Record.OfTree

/-!
# Records in data values

Objects are read in the order of their keys. An array may be shorter than the record where the
missing fields have defaults, but not longer.
-/

namespace TreeAtlas.Record

def foundJson : Json → Found
  | .null => .null
  | .bool b => .boolean b
  | .num n => foundNumber n
  | .str s => .string s
  | .arr _ => .sequence
  | .obj _ => .map

abbrev JsonReader := TreeReader Json Mismatch

def refuse {α : Type} (expected : String) (v : Json) : Except Mismatch α :=
  .error (.invalidType (foundJson v) expected)

def recordOfJson {α ρ σ : Type} (name : String) (fields : Fields JsonReader ρ σ) (build : ρ → α) :
    JsonReader α
  | .obj members =>
    (ofMembers id (fun _ => .ok ()) fields (members.map fun (k, v) => (.ok k, v))).map build
  | .arr items => do
    let (row, rest) ← readItems id (elementsExpected name fields.count) fields 0 items
    if rest.isEmpty then return build row
    else .error (.invalidLength items.length "fewer elements in array")
  | v => refuse ("struct " ++ name) v

def boundedOfJson (bound : Nat) (expected : String) : JsonReader Nat
  | .num n => boundedNat bound expected n
  | v => refuse expected v

def ofJson : DataFormat JsonReader where
  text
    | .str s => .ok s
    | v => refuse "a string" v
  flag
    | .bool b => .ok b
    | v => refuse "a boolean" v
  single
    | .num n => .ok n.toSingle
    | v => refuse "f32" v
  size := boundedOfJson UInt64.size "usize"
  word := boundedOfJson UInt32.size "u32"
  any := .ok
  optional read
    | .null => .ok none
    | v => (read v).map some
  record := recordOfJson

end TreeAtlas.Record
