/-!
# View modes

The two ways to draw a tree.
-/

namespace TreeAtlas

inductive ViewMode where
  | tree
  | bubble
  deriving DecidableEq, Repr

namespace ViewMode

instance : Inhabited ViewMode := ⟨.tree⟩

/-- In the order of the switch. -/
def all : List ViewMode := [.tree, .bubble]

def token : ViewMode → String
  | .tree => "tree"
  | .bubble => "bubble"

def title : ViewMode → String
  | .tree => "Tree"
  | .bubble => "Bubble Graph"

def ofToken? (s : String) : Option ViewMode :=
  all.find? fun mode => mode.token == s

def other : ViewMode → ViewMode
  | .tree => .bubble
  | .bubble => .tree

end ViewMode

end TreeAtlas
