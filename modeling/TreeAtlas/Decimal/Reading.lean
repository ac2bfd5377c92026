import TreeAtlas.Decimal.Binary

/-!
# Reading decimal numbers

A literal has an optional sign and is a word for what is not finite, or digits with an optional
point and an optional exponent. Its value is rounded once, to the format asked for. A literal whose
first digit lies far outside every format is settled by its magnitude alone, so that no power of
ten beyond the range of the formats is computed.
-/

namespace TreeAtlas.Decimal

inductive Literal where
  | nan
  | infinite (negative : Bool)
  /-- The number `digits * 10 ^ exponent`, or its opposite. -/
  | number (negative : Bool) (digits : Nat) (exponent : Int)
  deriving DecidableEq, Repr

def digitValue (c : Char) : Nat :=
  c.toNat - '0'.toNat

def ofDigits (cs : List Char) : Nat :=
  cs.foldl (fun n c => 10 * n + digitValue c) 0

/-- A sign, if there is one, and what follows it. -/
def takeSign : List Char → Bool × List Char
  | '-' :: cs => (true, cs)
  | '+' :: cs => (false, cs)
  | cs => (false, cs)

/-- Exponent part at the end of a literal: nothing, or a mark, a sign and digits. -/
def exponentPart? : List Char → Option Int
  | [] => some 0
  | c :: cs =>
    if c = 'e' ∨ c = 'E' then
      let (negative, ds) := takeSign cs
      if ds.isEmpty ∨ ¬ ds.all Char.isDigit then none
      else some (if negative then -(ofDigits ds : Int) else ofDigits ds)
    else none

/-- Digits with an optional point, at least one of them, and an exponent part. -/
def unsigned? (negative : Bool) (cs : List Char) : Option Literal :=
  let whole := cs.takeWhile Char.isDigit
  let (part, rest) := match cs.dropWhile Char.isDigit with
    | '.' :: r => (r.takeWhile Char.isDigit, r.dropWhile Char.isDigit)
    | r => ([], r)
  if whole.isEmpty ∧ part.isEmpty then none
  else (exponentPart? rest).map fun e =>
    .number negative (ofDigits (whole ++ part)) (e - part.length)

def Literal.ofChars? (cs : List Char) : Option Literal :=
  let (negative, body) := takeSign cs
  match String.ofList (body.map Char.toLower) with
  | "inf" | "infinity" => some (.infinite negative)
  | "nan" => some .nan
  | _ => unsigned? negative body

/-- Bit pattern of the nearest number of the format. -/
def Literal.bits (f : Format) : Literal → Nat
  | .nan => f.infinityBits + pow2 (f.fraction - 1)
  | .infinite negative => f.withSign negative f.infinityBits
  | .number negative digits exponent =>
    let top := exponent + (Nat.toDigits 10 digits).length
    f.withSign negative <|
      if digits = 0 ∨ top < -400 then 0
      else if 400 < top then f.infinityBits
      else f.nearest (digits * pow10 exponent.toNat) (pow10 (-exponent).toNat)

def Literal.toSingle (x : Literal) : Float32 :=
  Float32.ofBits (UInt32.ofNat (x.bits .single))

def Literal.toDouble (x : Literal) : Float :=
  Float.ofBits (UInt64.ofNat (x.bits .double))

/-- A whole number with an optional sign. -/
def integer? (cs : List Char) : Option Int :=
  let (negative, ds) := takeSign cs
  if ds.isEmpty ∨ ¬ ds.all Char.isDigit then none
  else some (if negative then -(ofDigits ds : Int) else ofDigits ds)

/-- Whether a whole number fits a signed word of 64 bits. -/
def fitsWord (i : Int) : Bool :=
  -0x8000000000000000 ≤ i && i < 0x8000000000000000

end TreeAtlas.Decimal

namespace TreeAtlas

open Decimal

/-- The nearest number of half the width. -/
def singleOfDouble (x : Float) : Float32 :=
  Float32.ofBits (UInt32.ofNat (Format.double.convert .single x.toBits.toNat))

def singleOfNat (n : Nat) : Float32 :=
  Float32.ofBits (UInt32.ofNat (Format.single.nearest n 1))

def singleOfInt (i : Int) : Float32 :=
  Float32.ofBits (UInt32.ofNat (Format.single.withSign (i < 0) (Format.single.nearest i.natAbs 1)))

/-- The greater number, or the other one if one is no number; of equal numbers, the second. -/
def singleMax (x y : Float32) : Float32 :=
  if x.isNaN || x ≤ y then y else x

/-- The smaller number, or the other one if one is no number; of equal numbers, the second. -/
def singleMin (x y : Float32) : Float32 :=
  if x.isNaN || y ≤ x then y else x

end TreeAtlas
