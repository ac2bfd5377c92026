import TreeAtlas.Layout.Bubbles

/-!
# Layout dumps

The bubble graph as data: nodes and edges, the edges between the keys of nodes.
-/

namespace TreeAtlas

structure DumpNode where
  key : String
  id : Option String
  label : String
  depth : Nat
  index : Nat
  x : Float32
  y : Float32
  r : Float32

structure DumpEdge where
  id : String
  source : String
  target : String
  points : List (Float32 × Float32)

structure LayoutDump where
  width : Float32
  height : Float32
  levels : Nat
  nodes : List DumpNode
  edges : List DumpEdge

namespace LayoutDump

def node (b : Bubble) : DumpNode :=
  { key := b.key, id := b.id.map NodeId.display, label := b.label, depth := b.depth,
    index := b.index, x := b.x, y := b.y, r := b.r }

/-- An edge between the keys of the circles at its ends. -/
def edge (layout : BubbleLayout) (l : BubbleLink) : Option DumpEdge := do
  let source ← layout.bubbles[l.source]?
  let target ← layout.bubbles[l.target]?
  return { id := l.id, source := source.key, target := target.key,
           points := [(l.x1, l.y1), (l.x2, l.y2)] }

def ofLayout (layout : BubbleLayout) : LayoutDump where
  width := layout.width
  height := layout.height
  levels := layout.levels
  nodes := layout.bubbles.toList.map node
  edges := layout.links.filterMap (edge layout)

def writtenNode (n : DumpNode) : Written :=
  .record
    [("key", .text n.key), ("id", .optional .text n.id), ("label", .text n.label),
      ("depth", .whole n.depth), ("index", .whole n.index), ("x", .single n.x),
      ("y", .single n.y), ("r", .single n.r)]

def writtenEdge (e : DumpEdge) : Written :=
  .record
    [("id", .text e.id), ("from", .text e.source), ("to", .text e.target),
      ("points", .list (e.points.map fun (x, y) => .list [.single x, .single y]))]

def written (dump : LayoutDump) : Written :=
  .record
    [("width", .single dump.width), ("height", .single dump.height),
      ("levels", .whole dump.levels), ("nodes", .list (dump.nodes.map writtenNode)),
      ("edges", .list (dump.edges.map writtenEdge))]

/-- The contents of a dump file. -/
def fileText (dump : LayoutDump) : String :=
  dump.written.pretty

end LayoutDump

end TreeAtlas
