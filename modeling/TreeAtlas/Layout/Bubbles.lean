import TreeAtlas.Config
import TreeAtlas.Layout.Descendants

/-!
# The bubble graph

A grid of circles, one for each visit of the walk. The row is the depth; the column is the rank
among all visits of that depth so far, siblings or not. A circle grows with what is below its node,
up to a cap, and is linked to the circle of the visit it was reached from.
-/

namespace TreeAtlas

structure Bubble where
  node : NodeRef
  id : Option NodeId
  /-- The identifier as text, or depth and rank where there is none. -/
  key : String
  depth : Nat
  index : Nat
  x : Float32
  y : Float32
  r : Float32
  label : String

/-- A line between two circles, given by their positions in the layout. -/
structure BubbleLink where
  id : String
  source : Nat
  target : Nat
  x1 : Float32
  y1 : Float32
  x2 : Float32
  y2 : Float32

structure BubbleLayout where
  bubbles : Array Bubble := #[]
  links : List BubbleLink := []
  width : Float32
  height : Float32

def Bubble.contains (b : Bubble) (x y : Float32) : Bool :=
  let dx := x - b.x
  let dy := y - b.y
  dx * dx + dy * dy ≤ b.r * b.r

namespace BubbleLayout

def empty (config : LayoutConfig) : BubbleLayout :=
  { width := config.minWidth, height := config.minHeight }

/-- The topmost circle under a point: later ones are drawn over earlier ones. -/
def bubbleAt? (layout : BubbleLayout) (x y : Float32) : Option Bubble :=
  layout.bubbles.toList.reverse.find? fun b => b.contains x y

/-- Number of levels that have a circle. -/
def levels (layout : BubbleLayout) : Nat :=
  layout.bubbles.toList.foldl (fun n b => max n (b.depth + 1)) 0

end BubbleLayout

/-- The base radius and a step for each node below, up to a cap. Settings that are negative or no
number mean no growth. -/
def nodeRadius (config : LayoutConfig) (descendants : Nat) : Float32 :=
  config.baseRadius
    + singleMin (singleMax (singleOfNat descendants * config.radiusStep) 0)
        (singleMax config.maxRadiusGrowth 0)

/-- Visits of each depth so far. -/
abbrev LevelSizes := Array Nat

def LevelSizes.count (sizes : LevelSizes) (depth : Nat) : Nat :=
  sizes.getD depth 0

/-- Counts one more visit of a depth, with room made for it. -/
def LevelSizes.push (sizes : LevelSizes) (depth : Nat) : LevelSizes :=
  (sizes ++ Array.replicate (depth + 1 - sizes.size) 0).modify depth (· + 1)

structure Placing where
  sizes : LevelSizes := #[]
  counter : DescendantCounter
  bubbles : Array Bubble := #[]

/-- Places the circle of a visit. -/
def Placing.place (ast : Ast) (config : LayoutConfig) (p : Placing) (visit : Visit) :
    Except LayoutError Placing :=
  match ast.get? visit.node with
  | none => .error (.unknownNode visit.node)
  | some node =>
    match p.counter.count ast visit.node with
    | (_, .error e) => .error e
    | (counter, .ok descendants) =>
      let index := p.sizes.count visit.depth
      .ok
        { sizes := p.sizes.push visit.depth
          counter
          bubbles := p.bubbles.push
            { node := visit.node
              id := node.id
              key := match node.id with
                | some id => id.display
                | none => toString visit.depth ++ "-" ++ toString index
              depth := visit.depth
              index
              x := config.paddingX + singleOfNat index * config.columnWidth
              y := config.paddingY + singleOfNat visit.depth * config.rowHeight
              r := nodeRadius config descendants
              label := node.label } }

/-- The ends of the links, in the order of the visits. -/
def linkEnds (visits : List Visit) : List (Nat × Nat) :=
  visits.zipIdx.filterMap fun (visit, slot) => visit.parent.map fun parent => (parent, slot)

/-- A link from the bottom of one circle to the top of another. -/
def linkBetween (bubbles : Array Bubble) (number source target : Nat) : Option BubbleLink := do
  let parent ← bubbles[source]?
  let child ← bubbles[target]?
  return {
    id := "edge-" ++ toString number
    source
    target
    x1 := parent.x
    y1 := parent.y + parent.r
    x2 := child.x
    y2 := child.y - child.r }

/-- Extent of `steps` steps between two paddings, with slack and a least value. -/
def canvasExtent (padding step slack least : Float32) (steps : Nat) : Float32 :=
  singleMax (padding * 2 + singleOfNat steps * step + slack) least

/-- The layout of a tree. -/
def bubbleLayout (ast : Ast) (config : LayoutConfig) : Except LayoutError BubbleLayout := do
  let visits ← preorder ast config.maxDepth config.maxNodes
  let p ← visits.toList.foldlM (Placing.place ast config) { counter := .ofAst ast }
  let columns := p.sizes.foldl max 1
  return {
    bubbles := p.bubbles
    links := (linkEnds visits.toList).zipIdx.filterMap fun ((source, target), number) =>
      linkBetween p.bubbles number source target
    width := canvasExtent config.paddingX config.columnWidth config.overflowSlack
      config.minWidth (columns - 1)
    height := canvasExtent config.paddingY config.rowHeight config.overflowSlack
      config.minHeight (p.sizes.size - 1) }

def BubbleLayout.report (layout : BubbleLayout) : List LogLine :=
  [⟨.debug, .bubbles, "bubble layout: " ++ toString layout.bubbles.size ++ " nodes, "
    ++ toString layout.levels ++ " levels, " ++ singleText layout.width ++ "x"
    ++ singleText layout.height⟩]

/-- Lays out a tree and reports it. -/
def layoutBubbles (ast : Ast) (config : LayoutConfig) : Attempt LayoutError BubbleLayout :=
  .reported (bubbleLayout ast config) BubbleLayout.report

namespace BubbleLayout

def writtenId : Option NodeId → Written
  | none => .null
  | some (.number n) => .data (.num n)
  | some (.text s) => .text s

def writtenBubble (b : Bubble) : Written :=
  .record
    [("node", .whole b.node.index), ("id", writtenId b.id), ("key", .text b.key),
      ("depth", .whole b.depth), ("index", .whole b.index), ("x", .single b.x),
      ("y", .single b.y), ("r", .single b.r), ("label", .text b.label)]

def writtenLink (l : BubbleLink) : Written :=
  .record
    [("id", .text l.id), ("from", .whole l.source), ("to", .whole l.target), ("x1", .single l.x1),
      ("y1", .single l.y1), ("x2", .single l.x2), ("y2", .single l.y2)]

def written (layout : BubbleLayout) : Written :=
  .record
    [("nodes", .list (layout.bubbles.toList.map writtenBubble)),
      ("links", .list (layout.links.map writtenLink)), ("width", .single layout.width),
      ("height", .single layout.height)]

end BubbleLayout

end TreeAtlas
