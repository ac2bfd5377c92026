import TreeAtlas.Decimal.Notation
import TreeAtlas.Decimal.Reading

/-!
# Numbers of data files

A number is a whole number that fits 64 bits, with or without a sign, or a finite floating point
number. The two never compare equal, whatever their values are.
-/

namespace TreeAtlas.Json

def InRange (i : Int) : Prop :=
  -0x8000000000000000 ≤ i ∧ i < UInt64.size

instance (i : Int) : Decidable (InRange i) :=
  inferInstanceAs (Decidable (_ ∧ _))

inductive Number where
  | int (value : Int) (inRange : InRange value)
  | float (value : Float) (finite : value.isFinite = true)

namespace Number

def ofInt? (i : Int) : Option Number :=
  if h : InRange i then some (.int i h) else none

def ofFloat? (x : Float) : Option Number :=
  if h : x.isFinite = true then some (.float x h) else none

/-- Whole numbers compare as such and floating point numbers by their order, so the two zeros are
equal. -/
def same : Number → Number → Bool
  | .int i _, .int j _ => i == j
  | .float x _, .float y _ => x == y
  | _, _ => false

instance : BEq Number := ⟨same⟩

def isZero : Number → Bool
  | .int i _ => i == 0
  | .float x _ => x == 0.0

def write : Number → String
  | .int i _ => toString i
  | .float x _ => doubleData x

/-- The nearest number of half the width, a floating point number being halved as it is. -/
def toSingle : Number → Float32
  | .int i _ => singleOfInt i
  | .float x _ => singleOfDouble x

end Number

end TreeAtlas.Json
