import TreeAtlas.Text.Blank

/-!
# Paths

A path is read as the names it goes through, from the root or from where one stands. Separators in
a row count as one, and a separator at the end asks for a folder.
-/

namespace TreeAtlas.Command

structure Path where
  isAbsolute : Bool
  names : List String
  /-- Whether a separator ends the path. -/
  asksFolder : Bool
  deriving DecidableEq, Repr

/-- The names from the root down to a file or a folder. -/
abbrev Place := List String

/-- The place one name further: a lone point stays, and two points go up. -/
def Place.follow (p : Place) (name : String) : Place :=
  if name = "." then p else if name = ".." then p.dropLast else p ++ [name]

namespace Path

def ofText (s : String) : Path where
  isAbsolute := s.toList.head? = some '/'
  names := ((Text.splitAt '/' s.toList).map String.ofList).filter (· ≠ "")
  asksFolder := s.toList.getLast? = some '/'

/-- Whether the path is the name that stands for standard input. With a point before it, the name
is that of a file. -/
def isStandardInput (p : Path) : Bool :=
  !p.isAbsolute && p.names.head? == some "-" && p.names.tail.all (· == ".")

/-- The place from which the path starts. -/
def start (p : Path) (here : Place) : Place :=
  if p.isAbsolute then [] else here

/-- The place to which the path leads, if the folders on the way are there. -/
def place (p : Path) (here : Place) : Place :=
  p.names.foldl Place.follow (p.start here)

end Path

end TreeAtlas.Command
