import TreeAtlas.Layout.Outline
import TreeAtlas.Markup.Element

/-!
# Drawings

The two views as vector graphics. What comes from a tree is escaped; colours of the theme are not.
A node is highlighted if it has an identifier and that is the selected one.
-/

namespace TreeAtlas

namespace Drawing

def isSelected (id selected : Option NodeId) : Bool :=
  match id, selected with
  | some id, some selected => id == selected
  | _, _ => false

/-- The graphic around what is drawn, with a background unless it is put into something else. -/
def canvas (theme : Theme) (render : RenderConfig) (width height : Float32)
    (content : List Markup) : Markup :=
  let w := singleFixed width
  let h := singleFixed height
  let place : Attribute := ("viewBox", "0 0 " ++ w ++ " " ++ h)
  let space : Attribute := ("xmlns", "http://www.w3.org/2000/svg")
  if render.fluidWidth then
    .element "svg" [space, ("width", "100%"), ("height", h), place, ("style", "display:block")]
      content
  else
    .element "svg" [space, ("width", w), ("height", h), place] <|
      .single "rect" [("width", "100%"), ("height", "100%"), ("fill", theme.background)] :: content

def link (theme : Theme) (l : BubbleLink) : Markup :=
  .single "line"
    [("id", l.id), ("x1", singleFixed l.x1), ("y1", singleFixed l.y1), ("x2", singleFixed l.x2),
      ("y2", singleFixed l.y2), ("stroke", theme.lineColor), ("stroke-width", "1")]

def bubble (theme : Theme) (selected : Option NodeId) (b : Bubble) : Markup :=
  let (fill, stroke, strokeWidth) :=
    if isSelected b.id selected then (theme.selectedFill, theme.selectedStroke, "2")
    else (theme.nodeFill, theme.nodeStroke, "1")
  .element "g"
    [("data-key", Markup.escape b.key), ("data-node", toString b.node.index),
      ("style", "cursor:pointer")]
    [.single "circle"
        [("cx", singleFixed b.x), ("cy", singleFixed b.y), ("r", singleFixed b.r), ("fill", fill),
          ("stroke", stroke), ("stroke-width", strokeWidth)],
      .element "text"
        [("x", singleFixed b.x), ("y", singleFixed (b.y + 4)), ("text-anchor", "middle"),
          ("font-family", Markup.escape theme.fontFamily),
          ("font-size", singleText theme.fontSize), ("fill", theme.nodeTextColor),
          ("style", "pointer-events:none;user-select:none")]
        [.text b.label]]

/-- The bubble graph: all links, then all circles over them. -/
def bubbles (layout : BubbleLayout) (selected : Option NodeId) (theme : Theme)
    (render : RenderConfig) : Markup :=
  canvas theme render layout.width layout.height
    [.element "g" [("class", "links")] (layout.links.map (link theme)),
      .element "g" [("class", "nodes")] (layout.bubbles.toList.map (bubble theme selected))]

/-- What stands before the text of a row that has children. -/
def marker (row : OutlineRow) : String :=
  if 0 < row.childCount then "▾ " else ""

def row (theme : Theme) (fontSize : Float32) (selected : Option NodeId) (r : OutlineRow) :
    Markup :=
  let highlighted := isSelected r.id selected
  let textY := r.y + r.height / 2 + fontSize * 0.35
  let text := Markup.element "text"
    [("x", singleFixed (r.x + 8)), ("y", singleFixed textY),
      ("font-family", Markup.escape theme.fontFamily), ("font-size", singleText fontSize),
      ("fill", if highlighted then theme.accentTextColor else theme.textColor)]
    [.data (marker r), .text r.text]
  let background := Markup.single "rect"
    [("x", singleFixed r.x), ("y", singleFixed (r.y + 1)), ("width", singleFixed r.width),
      ("height", singleFixed (r.height - 2)), ("rx", "6"), ("ry", "6"),
      ("fill", theme.accentBackground), ("stroke", theme.selectedStroke), ("stroke-width", "1")]
  .element "g" [("data-node", toString r.node.index), ("style", "cursor:pointer")]
    (if highlighted then [background, text] else [text])

def outline (layout : Outline) (selected : Option NodeId) (fontSize : Float32) (theme : Theme)
    (render : RenderConfig) : Markup :=
  canvas theme render layout.width layout.height
    (layout.rows.toList.map (row theme fontSize selected))

end Drawing

end TreeAtlas
