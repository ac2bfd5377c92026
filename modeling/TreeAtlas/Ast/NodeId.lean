import TreeAtlas.Json.Value
import TreeAtlas.Log

/-!
# Identifiers of nodes

An identifier is a number or a text. One given as text, on a command line say, is read as a number
if it can be: first as a whole number of 64 bits, then as a floating point number, which counts as
whole when it has no fraction and fits 64 bits.
-/

namespace TreeAtlas

inductive NodeId where
  | number (n : Json.Number)
  | text (s : String)

namespace NodeId

def same : NodeId → NodeId → Bool
  | .number m, .number n => m == n
  | .text s, .text t => s == t
  | _, _ => false

instance : BEq NodeId := ⟨same⟩

def display : NodeId → String
  | .number n => n.write
  | .text s => s

/-- The whole value of a finite number between the ends of a signed 64 bit word. -/
def wholeOfFloat? (x : Float) : Option Int :=
  match Decimal.Format.double.decode x.toBits.toNat with
  | .finite negative m q =>
    let divisor := Decimal.pow2 (-q).toNat
    if m % divisor = 0 then
      let n : Int := (m * Decimal.pow2 q.toNat / divisor : Nat)
      let i := if negative then -n else n
      if Decimal.fitsWord i then some i else none
    else none
  | _ => none

/-- The number a text stands for, if it stands for a finite one. -/
def numberOfText? (s : String) : Option Json.Number :=
  let whole? := (Decimal.integer? s.toList).filter Decimal.fitsWord
  match whole? with
  | some i => Json.Number.ofInt? i
  | none => do
    let x := (← Decimal.Literal.ofChars? s.toList).toDouble
    match wholeOfFloat? x with
    | some i => Json.Number.ofInt? i
    | none => Json.Number.ofFloat? x

def ofText (s : String) : NodeId :=
  match numberOfText? s with
  | some n => .number n
  | none => .text s

def unusualLine (v : Json) : LogLine :=
  ⟨.warn, .document, "non-scalar node id " ++ v.write ++ "; using its JSON text"⟩

/-- The identifier of a data value. Anything but a number or a string is named by its text, which
is worth a warning. -/
def ofJson : Json → Option NodeId × List LogLine
  | .null => (none, [])
  | .num n => (some (.number n), [])
  | .str s => (some (.text s), [])
  | v => (some (.text v.write), [unusualLine v])

end NodeId

/-- Equality of identifiers that may be missing. -/
def sameId : Option NodeId → Option NodeId → Bool
  | some a, some b => a == b
  | none, none => true
  | _, _ => false

end TreeAtlas
