import TreeAtlas.Config
import TreeAtlas.Decimal.Notation

/-!
# Sizes of pictures

The size of a picture comes from the lengths that a drawing states in its text. Lengths that are
both usable are those of its frame, and a fluid width fills the frame. Without a frame a length that
is fluid or cannot be read is the one asked for.
-/

namespace TreeAtlas.Image

open Decimal

/-- A length as it reads back from a drawing, which has words for what is not finite. -/
def stated? (length : Float32) : Option Float32 :=
  if length.isFinite then
    (Literal.ofChars? (singleFixed length).toList).map fun l => singleOfDouble l.toDouble
  else none

def isUsable (length : Float32) : Bool :=
  length.isFinite && 0 < length

/-- The whole pixels that cover a usable length, as far as they can be counted. -/
def pixels (length : Float32) : Nat :=
  match Format.single.decode length.toBits.toNat with
  | .finite _ m q =>
    let unit := pow2 (-q).toNat
    min ((m * pow2 q.toNat + unit - 1) / unit) (UInt32.size - 1)
  | _ => 0

/-- The size of the picture of a drawing with two lengths, if it has one. -/
def size? (asked : RenderConfig) (width height : Float32) : Option (Nat × Nat) :=
  let width := stated? width
  let height := stated? height
  let (width, height) :=
    if width.any isUsable && height.any isUsable then
      (if asked.fluidWidth then width.map (· * 100 / 100) else width, height)
    else (if asked.fluidWidth then none else width, height)
  let width := width.getD asked.width
  let height := height.getD asked.height
  if isUsable width && isUsable height then some (pixels width, pixels height) else none

/-- The widest picture: a row of four bytes a pixel has less than two to the power of 31 bytes. -/
def widest : Nat := (0x80000000 - 1) / 4

end TreeAtlas.Image
