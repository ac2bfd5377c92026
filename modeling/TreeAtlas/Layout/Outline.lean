import TreeAtlas.Config
import TreeAtlas.Font.Measurer
import TreeAtlas.Layout.Bubbles

/-!
# The outline

One row for each visit of the walk, indented by depth and as wide as its text. The budgets of the
walk are those of the bubble graph, so that both views accept the same trees.
-/

namespace TreeAtlas

structure OutlineRow where
  node : NodeRef
  id : Option NodeId
  depth : Nat
  x : Float32
  y : Float32
  width : Float32
  height : Float32
  text : String
  childCount : Nat

structure Outline where
  rows : Array OutlineRow := #[]
  width : Float32
  height : Float32

def OutlineRow.contains (row : OutlineRow) (x y : Float32) : Bool :=
  row.x ≤ x && x ≤ row.x + row.width && row.y ≤ y && y ≤ row.y + row.height

namespace Outline

def empty (config : TreeConfig) : Outline :=
  { width := config.minWidth, height := config.minHeight }

/-- The first row under a point. -/
def rowAt? (outline : Outline) (x y : Float32) : Option OutlineRow :=
  outline.rows.find? fun row => row.contains x y

end Outline

def rowText (label : String) (id : Option NodeId) (showIds : Bool) : String :=
  match id with
  | some id => if showIds then label ++ " #" ++ id.display else label
  | none => label

/-- The rows so far, their right edge, and what is known about the font. -/
structure RowPlacing where
  rows : Array OutlineRow := #[]
  rightEdge : Float32 := 0
  measurer : TextMeasurer := {}
  lines : List LogLine := []

/-- Places the row of a visit below the others. -/
def RowPlacing.place (lib : FontLibrary) (ast : Ast) (config : TreeConfig) (family : String)
    (p : RowPlacing) (visit : Visit) : Except LayoutError RowPlacing :=
  match ast.get? visit.node with
  | none => .error (.unknownNode visit.node)
  | some node =>
    let text := rowText node.label node.id config.showIds
    let measured := p.measurer.textWidth lib text config.fontSize family
    let x := config.padding + singleOfNat visit.depth * config.indent
    let width := measured.value.1 + config.rowPaddingX * 2
    .ok
      { rows := p.rows.push
          { node := visit.node
            id := node.id
            depth := visit.depth
            x
            y := config.padding + singleOfNat p.rows.size * config.rowHeight
            width
            height := config.rowHeight
            text
            childCount := node.children.length }
        rightEdge := singleMax p.rightEdge (x + width)
        measurer := measured.value.2
        lines := p.lines ++ measured.lines }

/-- The outline of the rows that were placed. -/
def RowPlacing.outline (config : TreeConfig) (p : RowPlacing) : Outline where
  rows := p.rows
  width := singleMax (p.rightEdge + config.padding) config.minWidth
  height := singleMax (config.padding * 2 + singleOfNat p.rows.size * config.rowHeight)
    config.minHeight

def Outline.report (outline : Outline) : List LogLine :=
  [⟨.debug, .outline, "tree layout: " ++ toString outline.rows.size ++ " rows, "
    ++ singleText outline.width ++ "x" ++ singleText outline.height⟩]

/-- Lays out a tree and reports it. Nothing is reported about a tree without nodes. -/
def layoutOutline (lib : FontLibrary) (ast : Ast) (config : TreeConfig) (limits : LayoutConfig)
    (family : String) : Attempt LayoutError Outline := do
  let visits ← Attempt.ofExcept (preorder ast limits.maxDepth limits.maxNodes)
  if visits.isEmpty then return .empty config
  else
    let p ← Attempt.ofExcept
      (visits.toList.foldlM (RowPlacing.place lib ast config family) {})
    let outline := p.outline config
    Attempt.log (p.lines ++ outline.report)
    return outline

namespace Outline

def writtenRow (row : OutlineRow) : Written :=
  .record
    [("node", .whole row.node.index), ("id", BubbleLayout.writtenId row.id),
      ("depth", .whole row.depth), ("x", .single row.x), ("y", .single row.y),
      ("width", .single row.width), ("height", .single row.height), ("text", .text row.text),
      ("child_count", .whole row.childCount)]

def written (outline : Outline) : Written :=
  .record
    [("rows", .list (outline.rows.toList.map writtenRow)), ("width", .single outline.width),
      ("height", .single outline.height)]

end Outline

end TreeAtlas
