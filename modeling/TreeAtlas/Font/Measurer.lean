import TreeAtlas.Decimal.Reading
import TreeAtlas.Font.Library
import TreeAtlas.Log
import TreeAtlas.Text.Blank
import TreeAtlas.Text.Quoted

/-!
# Measuring text

The width of a text is the sum of the advances of its characters, line ends apart, in the order of
the text. A character without an advance counts with an average ratio of the font size, and so does
every character when no typeface is found.

A measurer remembers what it found out: the typeface of each list of families, the advances of all
ASCII characters of a typeface, and those of the other characters it met.
-/

namespace TreeAtlas

/-- Average advance of a character relative to the font size. -/
def averageRatio : Float32 := 0.56

def estimateWidth (text : String) (size : Float32) : Float32 :=
  singleOfNat (text.toList.filter (· != '\n')).length * size * averageRatio

/-- A typeface with the advances looked up so far. -/
structure FontFace where
  typeface : Typeface
  /-- Advances of the ASCII characters, zero where there is none. -/
  ascii : Array UInt16
  others : List (Char × Option UInt16) := []

namespace FontFace

def lookUp (typeface : Typeface) (c : Char) : Option UInt16 :=
  (typeface.glyph? c).bind typeface.advance?

def ofTypeface (typeface : Typeface) : FontFace where
  typeface
  ascii := ((List.range 128).map fun n => (lookUp typeface (Char.ofNat n)).getD 0).toArray

/-- The advance of a character. An ASCII character with no width has none. -/
def advance (face : FontFace) (c : Char) : Option UInt16 × FontFace :=
  if c.toNat < 128 then
    ((face.ascii[c.toNat]?).filter (0 < ·), face)
  else match face.others.lookup c with
    | some known => (known, face)
    | none =>
      let found := lookUp face.typeface c
      (found, { face with others := (c, found) :: face.others })

/-- Adds the advances of characters to a width. -/
def extend (scale fallback : Float32) (face : FontFace) (width : Float32) :
    List Char → Float32 × FontFace
  | [] => (width, face)
  | c :: cs =>
    if c = '\n' then extend scale fallback face width cs
    else
      let (found, face) := face.advance c
      let step := match found with
        | some units => singleOfNat units.toNat * scale
        | none => fallback
      extend scale fallback face (width + step) cs

def width (face : FontFace) (text : String) (size : Float32) : Float32 × FontFace :=
  let scale := size / singleOfNat (max face.typeface.unitsPerEm 1)
  let (width, face) := face.extend scale (size * averageRatio) 0 text.toList
  (singleMax width 0, face)

end FontFace

/-- The family a name stands for. -/
def FontFamily.ofName (name : List Char) : FontFamily :=
  match String.ofList (Text.lowerAscii name) with
  | "serif" => .serif
  | "monospace" | "ui-monospace" => .monospace
  | "sans-serif" | "system-ui" | "-apple-system" | "ui-sans-serif" => .sansSerif
  | _ => .named (String.ofList name)

/-- The families of a list of names between commas, each of which may be quoted. -/
def FontFamily.list (names : String) : List FontFamily :=
  let pieces := (Text.splitAt ',' names.toList).map fun piece =>
    Text.strip (· == '\x27') (Text.strip (· == '"') (Text.trim piece))
  match pieces.filter (!·.isEmpty) with
  | [] => [.sansSerif]
  | found => found.map ofName

structure TextMeasurer where
  /-- What was found for a list of families, under its text without blanks at the ends. -/
  faces : List (String × Option FontFace) := []

namespace TextMeasurer

def key (family : String) : String :=
  String.ofList (Text.trim family.toList)

def missingFontLine (family : String) : LogLine :=
  ⟨.debug, .fonts, "no font for " ++ Text.quoted family ++ ", estimating text widths"⟩

/-- Looks for the typeface of a list of families unless that was done before. -/
def load (m : TextMeasurer) (lib : FontLibrary) (family : String) : Logged TextMeasurer :=
  match m.faces.lookup (key family) with
  | some _ => ⟨m, []⟩
  | none =>
    let face := (lib.find? (FontFamily.list family)).map FontFace.ofTypeface
    ⟨⟨(key family, face) :: m.faces⟩, if face.isNone then [missingFontLine family] else []⟩

/-- Keeps what was learnt about a typeface. -/
def remember (m : TextMeasurer) (family : String) (face : FontFace) : TextMeasurer :=
  ⟨m.faces.map fun (k, known) => if k = key family then (k, some face) else (k, known)⟩

/-- The width of a text in a typeface of the families, if there is one. -/
def measure (m : TextMeasurer) (lib : FontLibrary) (text : String) (size : Float32)
    (family : String) : Logged (Option Float32 × TextMeasurer) := do
  let m ← m.load lib family
  match m.faces.lookup (key family) with
  | some (some face) =>
    let (width, face) := face.width text size
    return (some width, m.remember family face)
  | _ => return (none, m)

/-- The width of a text, estimated if no typeface is found. An empty text and a font without
height have no width, and nothing is looked for. -/
def textWidth (m : TextMeasurer) (lib : FontLibrary) (text : String) (size : Float32)
    (family : String) : Logged (Float32 × TextMeasurer) :=
  if text.isEmpty || size ≤ 0 then return (0, m)
  else do
    let (width, m) ← m.measure lib text size family
    return (width.getD (estimateWidth text size), m)

end TextMeasurer

end TreeAtlas
