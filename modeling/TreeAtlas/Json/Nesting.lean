import TreeAtlas.Json.Value

/-!
# Nesting of a data text

One pass over the characters, without reading values: how deep brackets nest at most, brackets
inside strings apart. Closing brackets never bring the depth below zero.
-/

namespace TreeAtlas.Json

structure BracketScan where
  depth : Nat := 0
  deepest : Nat := 0
  inString : Bool := false
  escaped : Bool := false
  deriving DecidableEq, Repr

def BracketScan.step (s : BracketScan) (c : Char) : BracketScan :=
  if s.inString then
    if s.escaped then { s with escaped := false }
    else if c = '\\' then { s with escaped := true }
    else if c = '"' then { s with inString := false }
    else s
  else if c = '"' then { s with inString := true }
  else if c = '\x7b' ∨ c = '[' then
    { s with depth := s.depth + 1, deepest := max s.deepest (s.depth + 1) }
  else if c = '\x7d' ∨ c = ']' then { s with depth := s.depth - 1 }
  else s

def nesting (text : List Char) : Nat :=
  (text.foldl BracketScan.step {}).deepest

end TreeAtlas.Json
