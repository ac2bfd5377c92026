import TreeAtlas.Markup.Escape

/-!
# Markup

Elements with their attributes in order, and one writer for them. Attribute values and character
data are held as they are written, so what has to be escaped is escaped where the tree is built.
-/

namespace TreeAtlas

/-- A name and its written value. -/
abbrev Attribute := String × String

inductive Markup where
  /-- Written character data. -/
  | data (written : String)
  /-- An element without content, closed in its own tag. -/
  | single (name : String) (attributes : List Attribute)
  | element (name : String) (attributes : List Attribute) (content : List Markup)

namespace Markup

def text (s : String) : Markup :=
  .data (escape s)

def writeAttributes (out : String) (attributes : List Attribute) : String :=
  attributes.foldl (fun out (name, value) => out ++ " " ++ name ++ "=\"" ++ value ++ "\"") out

mutual

/-- Appends the text of a tree. -/
def writeOnto (out : String) : Markup → String
  | .data written => out ++ written
  | .single name attributes => writeAttributes (out ++ "<" ++ name) attributes ++ "/>"
  | .element name attributes content =>
    writeAllOnto (writeAttributes (out ++ "<" ++ name) attributes ++ ">") content
      ++ "</" ++ name ++ ">"

def writeAllOnto (out : String) : List Markup → String
  | [] => out
  | m :: ms => writeAllOnto (writeOnto out m) ms

end

def write (m : Markup) : String :=
  writeOnto "" m

end Markup

end TreeAtlas
