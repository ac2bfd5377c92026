import TreeAtlas.Decimal.Shortest

/-!
# Decimal notation

How digits become text: positional notation with no exponent, the notation of data files, which
changes to an exponent outside a range of magnitudes and always marks a number as fractional, and
a fixed number of places rounded half to even from the exact binary value.
-/

namespace TreeAtlas.Decimal

namespace Digits

def chars (d : Digits) : List Char :=
  Nat.toDigits 10 d.digits

/-- Exponent of the first digit. -/
def magnitude (d : Digits) : Int :=
  d.exponent + d.chars.length - 1

/-- Positional notation: zeros fill the places up to the point. -/
def positional (d : Digits) : List Char :=
  if 0 ≤ d.exponent then d.chars ++ List.replicate d.exponent.toNat '0'
  else
    let places := d.exponent.natAbs
    let width := d.chars.length
    if places < width then d.chars.take (width - places) ++ '.' :: d.chars.drop (width - places)
    else '0' :: '.' :: List.replicate (places - width) '0' ++ d.chars

/-- One digit before the point, the others after it, and a signed exponent. -/
def scientific (d : Digits) : List Char :=
  let mantissa := match d.chars with
    | first :: second :: rest => first :: '.' :: second :: rest
    | short => short
  let sign := if d.magnitude < 0 then '-' else '+'
  mantissa ++ 'e' :: sign :: Nat.toDigits 10 d.magnitude.natAbs

end Digits

def signed (negative : Bool) (cs : List Char) : List Char :=
  if negative then '-' :: cs else cs

/-- Decisions of the notation of data files. -/
structure DataNotation where
  /-- Magnitudes written positionally. -/
  lowest : Int
  highest : Int

def DataNotation.single : DataNotation := ⟨-6, 12⟩

def DataNotation.double : DataNotation := ⟨-5, 15⟩

def DataNotation.write (style : DataNotation) (d : Digits) : List Char :=
  if d.magnitude < style.lowest ∨ style.highest < d.magnitude then d.scientific
  else if 0 ≤ d.exponent then d.positional ++ ['.', '0']
  else d.positional

/-- Positional text of a bit pattern, without a point when the number is whole. -/
def Format.display (f : Format) (bits : Nat) : String :=
  match f.decode bits with
  | .nan => "NaN"
  | .infinite negative => if negative then "-inf" else "inf"
  | .finite negative m q =>
    let digits := if m = 0 then ['0'] else (shortest .greater f m q).positional
    String.ofList (signed negative digits)

/-- Text of a bit pattern in a data file, which has no word for what is not finite. -/
def Format.dataText (f : Format) (style : DataNotation) (bits : Nat) : String :=
  match f.decode bits with
  | .nan | .infinite _ => "null"
  | .finite negative m q =>
    String.ofList <| signed negative <|
      if m = 0 then ['0', '.', '0'] else style.write (shortest .even f m q)

/-- The exact value in hundredths, rounded half to even. -/
def hundredths (m : Nat) (q : Int) : Nat :=
  roundHalfEven (m * 100 * pow2 q.toNat) (pow2 (-q).toNat)

/-- Text with two places. -/
def Format.fixedTwo (f : Format) (bits : Nat) : String :=
  match f.decode bits with
  | .nan => "NaN"
  | .infinite negative => if negative then "-inf" else "inf"
  | .finite negative m q =>
    let n := hundredths m q
    String.ofList <| signed negative <|
      Nat.toDigits 10 (n / 100) ++ '.' :: Nat.digitChar (n / 10 % 10) :: [Nat.digitChar (n % 10)]

end TreeAtlas.Decimal

namespace TreeAtlas

open Decimal

/-- Positional text of the shortest digits. -/
def singleText (x : Float32) : String :=
  Format.single.display x.toBits.toNat

def singleData (x : Float32) : String :=
  Format.single.dataText .single x.toBits.toNat

def singleFixed (x : Float32) : String :=
  Format.single.fixedTwo x.toBits.toNat

def doubleText (x : Float) : String :=
  Format.double.display x.toBits.toNat

def doubleData (x : Float) : String :=
  Format.double.dataText .double x.toBits.toNat

end TreeAtlas
