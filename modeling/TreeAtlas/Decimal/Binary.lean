/-!
# Binary floating point formats

A format is read through its bit pattern: a finite number is `m * 2 ^ q`. In the other direction
`nearest` rounds an exact quotient to the format, a tie going to the even neighbour. With `q` at
least the least exponent, the pattern of `m * 2 ^ q` is `(q - least) * 2 ^ fraction + m`, for
subnormal numbers, for normal ones and for a mantissa that rounds up into the next binade.
-/

namespace TreeAtlas.Decimal

def pow2 (n : Nat) : Nat :=
  Nat.pow 2 n

def pow10 (n : Nat) : Nat :=
  Nat.pow 10 n

/-- Widths of the fraction and exponent fields. -/
structure Format where
  fraction : Nat
  exponent : Nat
  deriving DecidableEq, Repr

namespace Format

def single : Format := ⟨23, 8⟩

def double : Format := ⟨52, 11⟩

/-- Exponent of the last place of the subnormal numbers. -/
def least (f : Format) : Int :=
  2 - pow2 (f.exponent - 1) - f.fraction

def infinityBits (f : Format) : Nat :=
  (pow2 f.exponent - 1) * pow2 f.fraction

def signBit (f : Format) : Nat :=
  pow2 (f.fraction + f.exponent)

end Format

inductive Binary where
  | nan
  | infinite (negative : Bool)
  /-- The number `m * 2 ^ q`, or its opposite. -/
  | finite (negative : Bool) (m : Nat) (q : Int)
  deriving DecidableEq, Repr

def Format.decode (f : Format) (bits : Nat) : Binary :=
  let negative := f.signBit ≤ bits
  let e := bits / pow2 f.fraction % pow2 f.exponent
  let m := bits % pow2 f.fraction
  if e = pow2 f.exponent - 1 then
    if m = 0 then .infinite negative else .nan
  else if e = 0 then .finite negative m f.least
  else .finite negative (m + pow2 f.fraction) (f.least + (e - 1))

/-- The quotient rounded to a whole number, a half going to the even neighbour. -/
def roundHalfEven (num den : Nat) : Nat :=
  let n := num / den
  let r := num % den
  if 2 * r < den then n else if den < 2 * r then n + 1 else n + n % 2

/-- Bit pattern, sign apart, of the number of the format nearest to `num / den`. -/
def Format.nearest (f : Format) (num den : Nat) : Nat :=
  if num = 0 then 0
  else
    let guess : Int := (num.log2 : Int) - den.log2 - f.fraction
    let whole (q : Int) : Nat := num * pow2 (-q).toNat / (den * pow2 q.toNat)
    let q := max (if whole guess < pow2 f.fraction then guess - 1 else guess) f.least
    let m := roundHalfEven (num * pow2 (-q).toNat) (den * pow2 q.toNat)
    min ((q - f.least).toNat * pow2 f.fraction + m) f.infinityBits

def Format.withSign (f : Format) (negative : Bool) (bits : Nat) : Nat :=
  if negative then f.signBit + bits else bits

/-- Bit pattern of the nearest number of another format. -/
def Format.convert (f g : Format) (bits : Nat) : Nat :=
  match f.decode bits with
  | .nan => g.infinityBits + 1
  | .infinite negative => g.withSign negative g.infinityBits
  | .finite negative m q => g.withSign negative (g.nearest (m * pow2 q.toNat) (pow2 (-q).toNat))

end TreeAtlas.Decimal
