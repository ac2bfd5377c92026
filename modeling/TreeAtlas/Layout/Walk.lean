import TreeAtlas.Ast.Basic

/-!
# Walks in document order

A walk visits the nodes below the root depth first, each node once for every way to reach it. The
visits still to come wait on a stack; beside it lies the path of the last visit, and what of it is
above the next visit is cut back by depth. The walk fails where it would go deeper or longer than
its limits allow, leave the array, or meet a node again among its own ancestors.
-/

namespace TreeAtlas

inductive LayoutError where
  | cycle (node : NodeRef)
  | depthExceeded (limit : Nat)
  | tooManyNodes (limit : Nat)
  | unknownNode (node : NodeRef)
  deriving DecidableEq, Repr

def LayoutError.message : LayoutError → String
  | .cycle node => "node " ++ node.display ++ " is its own ancestor"
  | .depthExceeded limit => "tree is deeper than " ++ toString limit ++ " levels"
  | .tooManyNodes limit => "tree expands to more than " ++ toString limit ++ " nodes"
  | .unknownNode node => "node " ++ node.display ++ " is not in the arena"

structure Visit where
  node : NodeRef
  depth : Nat
  /-- Position of the parent's visit in the walk. -/
  parent : Option Nat
  deriving DecidableEq, Repr

structure Walk where
  visits : Array Visit := #[]
  path : Array NodeRef := #[]
  stack : List Visit

namespace Walk

/-- The visits of the children of a node that was visited at `slot`. -/
def below (node : AstNode) (slot depth : Nat) : List Visit :=
  node.children.map fun child => ⟨child, depth + 1, some slot⟩

/-- Visits `v`, the top of the stack above `rest`. -/
def visit (ast : Ast) (w : Walk) (v : Visit) (rest : List Visit) : Except LayoutError Walk :=
  match ast.get? v.node, w with
  | none, _ => .error (.unknownNode v.node)
  | some node, ⟨visits, path, _⟩ =>
    let above := path.shrink v.depth
    if above.contains v.node then .error (.cycle v.node)
    else
      let stack := below node visits.size v.depth ++ rest
      .ok { visits := visits.push v, path := above.push v.node, stack }

/-- Runs a walk to its end, `budget` visits more at most. -/
def run (ast : Ast) (maxDepth maxNodes : Nat) : Nat → Walk → Except LayoutError (Array Visit)
  | budget, w =>
    match w.stack with
    | [] => .ok w.visits
    | v :: rest =>
      if maxDepth < v.depth then .error (.depthExceeded maxDepth)
      else match budget with
        | 0 => .error (.tooManyNodes maxNodes)
        | budget + 1 => do
          let w ← w.visit ast v rest
          run ast maxDepth maxNodes budget w

end Walk

/-- The nodes of a tree in document order, with depths and parents. -/
def preorder (ast : Ast) (maxDepth maxNodes : Nat) : Except LayoutError (Array Visit) :=
  Walk.run ast maxDepth maxNodes maxNodes { stack := (ast.root.map (⟨·, 0, none⟩)).toList }

end TreeAtlas
