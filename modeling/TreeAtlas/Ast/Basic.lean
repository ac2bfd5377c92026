import TreeAtlas.Ast.NodeId

/-!
# Syntax trees

The nodes of a tree lie in one array and refer to each other by position. Nothing keeps a reference
inside the array or a node out of its own subtree: trees that were read from a document are sound,
trees put together by hand need not be, and what walks them has to say so.
-/

namespace TreeAtlas

structure NodeRef where
  index : Nat
  deriving DecidableEq, Repr, Inhabited

def NodeRef.display (r : NodeRef) : String :=
  "#" ++ toString r.index

/-- Where a node keeps its children. -/
inductive ChildShape where
  | leaf
  | children (refs : List NodeRef)
  | body (refs : List NodeRef)
  | binary (left right : NodeRef)
  deriving DecidableEq, Repr

namespace ChildShape

def refs : ChildShape → List NodeRef
  | .leaf => []
  | .children refs => refs
  | .body refs => refs
  | .binary left right => [left, right]

def containerName : ChildShape → Option String
  | .leaf => none
  | .children _ => some "children"
  | .body _ => some "body"
  | .binary _ _ => some "left/right"

end ChildShape

structure AstNode where
  id : Option NodeId := none
  kind : Option String := none
  shape : ChildShape := .leaf
  attributes : Json.Fields := []

namespace AstNode

def defaultLabel : String := "Node"

def label (node : AstNode) : String :=
  node.kind.getD defaultLabel

def children (node : AstNode) : List NodeRef :=
  node.shape.refs

def isLeaf (node : AstNode) : Bool :=
  node.children.isEmpty

end AstNode

def setShapeAt (nodes : Array AstNode) (r : NodeRef) (shape : ChildShape) : Array AstNode :=
  nodes.modify r.index fun node => { node with shape }

structure Ast where
  nodes : Array AstNode := #[]
  root : Option NodeRef := none

namespace Ast

def empty : Ast := {}

def get? (ast : Ast) (r : NodeRef) : Option AstNode :=
  ast.nodes[r.index]?

def size (ast : Ast) : Nat :=
  ast.nodes.size

def isEmpty (ast : Ast) : Bool :=
  ast.root.isNone

def rootNode? (ast : Ast) : Option AstNode :=
  ast.root.bind ast.get?

/-- Adds a node, which gets the next position. -/
def push (ast : Ast) (node : AstNode) : Ast × NodeRef :=
  ({ ast with nodes := ast.nodes.push node }, ⟨ast.nodes.size⟩)

/-- Gives a node other children. Nothing happens to a node that is not there. -/
def setShape (ast : Ast) (r : NodeRef) (shape : ChildShape) : Ast :=
  { ast with nodes := setShapeAt ast.nodes r shape }

def contains (ast : Ast) (r : NodeRef) : Bool :=
  r.index < ast.nodes.size

/-- The first node with the identifier. -/
def findById? (ast : Ast) (id : NodeId) : Option NodeRef :=
  (ast.nodes.findIdx? fun node => node.id.any (· == id)).map NodeRef.mk

end Ast

end TreeAtlas
