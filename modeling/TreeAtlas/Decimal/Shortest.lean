import TreeAtlas.Decimal.Binary

/-!
# Shortest decimal digits

The real numbers that round to `m * 2 ^ q` form an interval, its ends included iff `m` is even.
The digits written for the number are those of the coarsest decimal grid with a point in the
interval. If a grid has such a point, one of the two grid points beside the number is one, so only
those are tested; of two hits the nearer is taken, and of two equally near the one that the notation
prefers.
-/

namespace TreeAtlas.Decimal

/-- Which of two digits is taken that are equally near. -/
inductive Tie where
  | greater
  | even
  deriving DecidableEq, Repr

/-- The number `digits * 10 ^ exponent`. -/
structure Digits where
  digits : Nat
  exponent : Int
  deriving DecidableEq, Repr

/-- A number and the interval that rounds to it, as multiples of `up / down`. -/
structure Neighbourhood where
  low : Nat
  mid : Nat
  high : Nat
  closed : Bool
  up : Nat
  down : Nat

namespace Neighbourhood

/-- Below a power of two the next smaller number is only half as far away. -/
def of (f : Format) (m : Nat) (q : Int) : Neighbourhood :=
  { low := if m = pow2 f.fraction ∧ f.least < q then 4 * m - 1 else 4 * m - 2
    mid := 4 * m
    high := 4 * m + 2
    closed := m % 2 = 0
    up := pow2 (q - 2).toNat
    down := pow2 (2 - q).toNat }

/-- Whether `c * 10 ^ s` lies in the interval. -/
def contains (n : Neighbourhood) (c : Nat) (s : Int) : Bool :=
  let point := c * n.down * pow10 s.toNat
  let scale := n.up * pow10 (-s).toNat
  if n.closed then n.low * scale ≤ point && point ≤ n.high * scale
  else n.low * scale < point && point < n.high * scale

/-- The last point of the grid `10 ^ s` that is not above the number. -/
def floor (n : Neighbourhood) (s : Int) : Nat :=
  n.mid * n.up * pow10 (-s).toNat / (n.down * pow10 s.toNat)

/-- Whether `c * 10 ^ s` is taken rather than the next grid point. -/
def prefersBelow (tie : Tie) (n : Neighbourhood) (c : Nat) (s : Int) : Bool :=
  match compare (2 * (n.mid * n.up * pow10 (-s).toNat))
      ((2 * c + 1) * (n.down * pow10 s.toNat)) with
  | .lt => true
  | .gt => false
  | .eq => tie = .even ∧ c % 2 = 0

/-- Exponent of the first decimal digit. -/
def magnitude (n : Neighbourhood) : Int :=
  let d : Int := (n.mid * n.up).log2 - n.down.log2
  let k := (d - 1) * 30103 / 100000
  if 1 ≤ n.floor (k + 1) then k + 1 else k

/-- Tries the grids from `10 ^ s` down, `fuel` of them. -/
def search (tie : Tie) (n : Neighbourhood) : Nat → Int → Digits
  | 0, s => ⟨n.floor s, s⟩
  | fuel + 1, s =>
    let c := n.floor s
    match n.contains c s, n.contains (c + 1) s with
    | false, false => n.search tie fuel (s - 1)
    | true, false => ⟨c, s⟩
    | false, true => ⟨c + 1, s⟩
    | true, true => if n.prefersBelow tie c s then ⟨c, s⟩ else ⟨c + 1, s⟩

end Neighbourhood

/-- Moves trailing zeros of the digits into the exponent, `fuel` of them at most. -/
def Digits.trimZeros : Nat → Digits → Digits
  | 0, d => d
  | fuel + 1, d =>
    if d.digits % 10 = 0 ∧ d.digits ≠ 0 then trimZeros fuel ⟨d.digits / 10, d.exponent + 1⟩ else d

/-- The fewest digits that read back as `m * 2 ^ q`, where `0 < m`. Seventeen are enough for
either format. -/
def shortest (tie : Tie) (f : Format) (m : Nat) (q : Int) : Digits :=
  let n := Neighbourhood.of f m q
  (n.search tie 17 n.magnitude).trimZeros 17

end TreeAtlas.Decimal
