import TreeAtlas.Json5.Parser
import TreeAtlas.Record.OfTree

/-!
# Records in relaxed data

Numeric fields go by the source text of whatever stands there, so only a number can be one; other
fields are told what they found. Items beyond the end of a record are passed over unread, members
nobody asked for are read all the same.
-/

namespace TreeAtlas.Json5

open Record (Mismatch Found)

inductive ReadError where
  | value (e : ValueError)
  | mismatch (m : Mismatch)

def ReadError.message : ReadError → String
  | .value e => e.message
  | .mismatch m => m.message .relaxed

abbrev Reader := Record.TreeReader Node ReadError

def valued {α : Type} (x : Except ValueError α) : Except ReadError α :=
  x.mapError .value

def foundNumber (source : List Char) : Except ValueError Found :=
  if isWhole source then (integerOf source).map .integer else (floatOf source).map .floating

def found : Node → Except ValueError Found
  | .null => .ok .null
  | .boolean b => .ok (.boolean b)
  | .string pieces => (text pieces).map .string
  | .number source => foundNumber source
  | .array _ => .ok .sequence
  | .object _ => .ok .map

def refuse {α : Type} (expected : String) (node : Node) : Except ReadError α := do
  let found ← valued (found node)
  .error (.mismatch (.invalidType found expected))

mutual

/-- Reads a value nobody asked for. -/
def ignore : Node → Except ReadError Unit
  | .null => .ok ()
  | .boolean _ => .ok ()
  | .string pieces => (valued (text pieces)).map fun _ => ()
  | .number source => (valued (foundNumber source)).map fun _ => ()
  | .array items => ignoreItems items
  | .object members => ignoreMembers members

def ignoreItems : List Node → Except ReadError Unit
  | [] => .ok ()
  | v :: vs => do
    ignore v
    ignoreItems vs

def ignoreMembers : List (List Piece × Node) → Except ReadError Unit
  | [] => .ok ()
  | (key, v) :: rest => do
    let _ ← valued (text key)
    ignore v
    ignoreMembers rest

end

/-- The number that stands where one is asked for. -/
def numberAt : Node → Except ReadError Float
  | .number source => valued (floatOf source)
  | _ => .error (.value .badNumber)

open Record in
def recordAt {α ρ σ : Type} (name : String) (fields : Fields Reader ρ σ) (build : ρ → α) :
    Reader α
  | .object members =>
    (ofMembers .mismatch ignore fields (members.map fun (k, v) => (valued (text k), v))).map build
  | .array items =>
    (readItems .mismatch (elementsExpected name fields.count) fields 0 items).map
      fun x => build x.1
  | node => refuse ("struct " ++ name) node

def format : Record.Format Reader where
  text
    | .string pieces => valued (text pieces)
    | node => refuse "a string" node
  flag
    | .boolean b => .ok b
    | node => refuse "a boolean" node
  single node := (numberAt node).map singleOfDouble
  size node := (numberAt node).map fun x => x.toUInt64.toNat
  optional read
    | .null => .ok none
    | node => (read node).map some
  record := recordAt

end TreeAtlas.Json5
