import TreeAtlas.Decimal.Notation
import TreeAtlas.Json.Value
import TreeAtlas.Text.Quoted

/-!
# Records in data

A record is read from an object by the names of its fields or from an array by their order. The
description of a record is written once, over any `Format`: a format says how it reads the scalar
kinds, how it treats a missing value and how it walks a record.

Reading by name fills one slot a field; a name met twice is a fault, a name nobody answers to is
passed over, and slots that stay vacant are completed at the end.
-/

namespace TreeAtlas.Record

inductive Found where
  | integer (i : Int)
  | floating (x : Float)
  | string (s : String)
  | boolean (b : Bool)
  | null
  | sequence
  | map

/-- How data does not match what a record asks for. -/
inductive Mismatch where
  | invalidType (found : Found) (expected : String)
  | invalidValue (found : Int) (expected : String)
  | invalidLength (length : Nat) (expected : String)
  | duplicateField (name : String)
  | missingField (name : String)
  | unknownVariant (name : String) (known : List String)

/-- The words in which formats differ. -/
structure Wording where
  null : String
  floating : Float → String

/-- The text of a number, with a point in it when the number is finite. -/
def pointedText (x : Float) : String :=
  let s := doubleText x
  if x.isFinite && !s.toList.contains '.' then s ++ ".0" else s

def Wording.data : Wording := ⟨"null", doubleData⟩

def Wording.relaxed : Wording := ⟨"unit value", pointedText⟩

def Found.describe (wording : Wording) : Found → String
  | .integer i => "integer `" ++ toString i ++ "`"
  | .floating x => "floating point `" ++ wording.floating x ++ "`"
  | .string s => "string " ++ Text.quoted s
  | .boolean b => "boolean `" ++ (if b then "true" else "false") ++ "`"
  | .null => wording.null
  | .sequence => "sequence"
  | .map => "map"

def Mismatch.message (wording : Wording) : Mismatch → String
  | .invalidType found expected =>
    "invalid type: " ++ found.describe wording ++ ", expected " ++ expected
  | .invalidValue i expected =>
    "invalid value: integer `" ++ toString i ++ "`, expected " ++ expected
  | .invalidLength n expected => "invalid length " ++ toString n ++ ", expected " ++ expected
  | .duplicateField name => "duplicate field `" ++ name ++ "`"
  | .missingField name => "missing field `" ++ name ++ "`"
  | .unknownVariant name known =>
    "unknown variant `" ++ name ++ "`, expected " ++
      String.intercalate " or " (known.map fun k => "`" ++ k ++ "`")

/-- What stands for a field that is not there. -/
inductive Absent (α : Type) where
  | required
  /-- May be left out of an object, but not of an array. -/
  | nameable (value : α)
  | default (value : α)

/-- The fields of a record, each with its reader: `ρ` is the type of the values, `σ` that of the
slots they are collected in. -/
inductive Fields (R : Type → Type) : (ρ σ : Type) → Type 1 where
  | nil : Fields R Unit Unit
  | cons {α ρ σ : Type} (name : String) (aliases : List String) (absent : Absent α) (read : R α)
      (rest : Fields R ρ σ) : Fields R (α × ρ) (Option α × σ)

/-- Where the value of a named field belongs. -/
inductive Place (R : Type → Type) (σ : Type) : Type 1 where
  | unknown
  | taken (name : String)
  | free {α : Type} (read : R α) (put : α → σ)

namespace Fields

variable {R : Type → Type}

def count {ρ σ : Type} : Fields R ρ σ → Nat
  | .nil => 0
  | .cons _ _ _ _ rest => rest.count + 1

def vacant {ρ σ : Type} : Fields R ρ σ → σ
  | .nil => ()
  | .cons _ _ _ _ rest => (none, rest.vacant)

def place {ρ σ : Type} (key : String) : Fields R ρ σ → σ → Place R σ
  | .nil, _ => .unknown
  | .cons name aliases _ read rest, (slot, slots) =>
    if key = name ∨ key ∈ aliases then
      if slot.isSome then .taken name else .free read fun v => (some v, slots)
    else match rest.place key slots with
      | .unknown => .unknown
      | .taken name => .taken name
      | .free read put => .free read fun v => (slot, put v)

/-- The record of the slots, with what stands for the vacant ones. -/
def complete {ρ σ : Type} : Fields R ρ σ → σ → Except Mismatch ρ
  | .nil, _ => .ok ()
  | .cons name _ absent _ rest, (slot, slots) => do
    let v ← match slot, absent with
      | some v, _ => .ok v
      | none, .required => .error (.missingField name)
      | none, .nameable v => .ok v
      | none, .default v => .ok v
    return (v, ← rest.complete slots)

end Fields

/-- What stands for a field that an array is too short for. -/
def Absent.positional {α : Type} (absent : Absent α) (index : Nat) (expected : String) :
    Except Mismatch α :=
  match absent with
  | .default v => .ok v
  | .required | .nameable _ => .error (.invalidLength index expected)

/-- What an array that is too short is told. -/
def elementsExpected (name : String) (n : Nat) : String :=
  "struct " ++ name ++ " with " ++ toString n ++ " elements"

/-- How the kinds of values are read in one format. -/
structure Format (R : Type → Type) : Type 1 where
  text : R String
  flag : R Bool
  single : R Float32
  size : R Nat
  optional {α : Type} : R α → R (Option α)
  record {α ρ σ : Type} (name : String) (fields : Fields R ρ σ) (build : ρ → α) : R α

/-- A format in which a field may also hold any data value. -/
structure DataFormat (R : Type → Type) : Type 1 extends Format R where
  word : R Nat
  any : R Json

/-- The value of a whole number below a bound. -/
def boundedNat (bound : Nat) (expected : String) : Json.Number → Except Mismatch Nat
  | .int i _ => if 0 ≤ i ∧ i < bound then .ok i.toNat else .error (.invalidValue i expected)
  | .float x _ => .error (.invalidType (.floating x) expected)

def foundNumber : Json.Number → Found
  | .int i _ => .integer i
  | .float x _ => .floating x

end TreeAtlas.Record
