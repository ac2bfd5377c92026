/-!
# Fonts

A typeface maps characters to glyphs and glyphs to advances. A library answers a list of families
with a typeface, if it has one for them. A catalogue is such a library: it finds a typeface by the
exact name of its family, knows which family a generic name stands for, and tries the families
asked for in turn.
-/

namespace TreeAtlas

/-- What measuring needs of a typeface. -/
structure Typeface where
  unitsPerEm : Nat
  glyph? : Char → Option Nat
  /-- Horizontal advance of a glyph, in font units. -/
  advance? : Nat → Option UInt16

inductive FontFamily where
  | named (name : String)
  | serif
  | sansSerif
  | monospace
  deriving DecidableEq, Repr

structure FontLibrary where
  find? : List FontFamily → Option Typeface

structure FontCatalogue where
  faces : List (String × Typeface)
  serif : String
  sansSerif : String
  monospace : String

namespace FontCatalogue

def familyName (catalogue : FontCatalogue) : FontFamily → String
  | .named name => name
  | .serif => catalogue.serif
  | .sansSerif => catalogue.sansSerif
  | .monospace => catalogue.monospace

/-- The typeface of the first family that has one. -/
def library (catalogue : FontCatalogue) : FontLibrary where
  find? families :=
    families.findSome? fun family => catalogue.faces.lookup (catalogue.familyName family)

end FontCatalogue

namespace Typeface

/-- A typeface with one glyph for each character that has an advance. -/
def ofAdvances (unitsPerEm : Nat) (advance? : Char → Option Nat) : Typeface where
  unitsPerEm
  glyph? c := (advance? c).map fun _ => c.toNat
  advance? glyph := (advance? (Char.ofNat glyph)).map UInt16.ofNat

/-- Proportional, with letters, digits and a few other characters. -/
def proportional : Typeface :=
  ofAdvances 1000 fun c =>
    let n := c.toNat
    if 'A' ≤ c ∧ c ≤ 'Z' then some (600 + 10 * (n - 'A'.toNat))
    else if 'a' ≤ c ∧ c ≤ 'z' then some (400 + 7 * (n - 'a'.toNat))
    else if '0' ≤ c ∧ c ≤ '9' then some 550
    else match n with
      | 0x20 => some 250
      | 0x2D => some 333
      | 0x2E => some 275
      | 0x23 => some 0
      | 0xE9 => some 512
      | 0x3BB => some 640
      | 0x301 => some 0
      | 0x4E2D => some 1000
      | 0x1F600 => some 1371
      | _ => none

/-- One advance for every printable ASCII character. -/
def fixedPitch : Typeface :=
  ofAdvances 2048 fun c => if ' ' ≤ c ∧ c ≤ '~' then some 1229 else none

end Typeface

/-- The typefaces that are at hand. Most generic names stand for families that are not. -/
def FontLibrary.builtIn : FontLibrary :=
  FontCatalogue.library
    { faces := [("Oracle Sans", .proportional), ("Oracle Mono", .fixedPitch)]
      serif := "Times New Roman"
      sansSerif := "Arial"
      monospace := "Oracle Mono" }

end TreeAtlas
