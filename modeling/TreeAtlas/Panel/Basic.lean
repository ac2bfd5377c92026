import TreeAtlas.Panel.Inspector
import TreeAtlas.Panel.ViewMode
import TreeAtlas.Panel.Views

/-!
# The panel

A card with a switch between the two views, the view that is on, and the side pane. Only the view
that is on is laid out. What is selected belongs to whoever shows the panel: it is told when the
panel is rendered, and a click only reports the node that was hit.
-/

namespace TreeAtlas

structure AstPanel where
  viewMode : ViewMode := .tree
  theme : Theme
  render : RenderConfig
  outline : OutlineView
  bubbles : BubbleView

namespace AstPanel

/-- Drawings in a panel take the width of their pane. -/
def new (config : Config) : AstPanel where
  theme := config.theme
  render := { config.render with fluidWidth := true }
  outline := .new config.tree config.layout
  bubbles := .new config.layout

def switchLine (mode next : ViewMode) : LogLine :=
  ⟨.debug, .panel, "view mode " ++ mode.token ++ " -> " ++ next.token⟩

def setViewMode (p : AstPanel) (mode : ViewMode) : Logged AstPanel :=
  ⟨{ p with viewMode := mode }, if p.viewMode = mode then [] else [switchLine p.viewMode mode]⟩

def toggle (p : AstPanel) : Logged AstPanel :=
  p.setViewMode p.viewMode.other

def switchButton (theme : Theme) (on mode : ViewMode) : Markup :=
  let (border, background, color) :=
    if mode = on then (theme.accentColor, theme.accentBackground, theme.accentTextColor)
    else (theme.buttonBorder, theme.buttonBackground, theme.buttonTextColor)
  .element "button"
    [("type", "button"), ("data-view", mode.token),
      ("aria-pressed", if mode = on then "true" else "false"),
      ("style", "padding:6px 10px;border-radius:999px;border:1px solid " ++ border
        ++ ";background:" ++ background ++ ";color:" ++ color ++ ";font-size:12px;cursor:pointer")]
    [.text mode.title]

def title : Markup :=
  .element "h2" [("style", "margin:0 0 12px;font-size:16px")] [.data "AST"]

def header (content : List Markup) : Markup :=
  .element "div"
    [("style", "display:flex;align-items:center;justify-content:space-between")]
    (title :: content)

def card (theme : Theme) (content : List Markup) : Markup :=
  .element "section"
    [("class", "ast-card"),
      ("style", "background:" ++ theme.surface ++ ";border:1px solid " ++ theme.surfaceBorder
        ++ ";border-radius:14px;padding:16px;color:" ++ theme.textColor)]
    content

/-- What is shown as long as there is no tree. -/
def placeholder (theme : Theme) : Markup :=
  .element "div"
    [("class", "placeholder"), ("style", "color:" ++ theme.mutedTextColor ++ ";padding:24px 0")]
    [.data "Click ", .element "b" [] [.data "Parse"], .data " to generate an AST."]

def viewPane (theme : Theme) (mode : ViewMode) (view : Markup) : Markup :=
  .element "div"
    [("class", "tree-pane"), ("data-view", mode.token),
      ("style", "overflow:auto;border:1px solid " ++ theme.surfaceBorder ++ ";border-radius:10px")]
    [view]

/-- The card around a drawing. -/
def cardWith (theme : Theme) (mode : ViewMode) (view : Markup) (selected : Option AstNode)
    (tokens : List Token) : Markup :=
  card theme
    [header
        [.element "div" [("style", "display:flex;gap:8px")]
          (ViewMode.all.map (switchButton theme mode))],
      .element "div"
        [("class", "output-grid"),
          ("style", "display:grid;grid-template-columns:minmax(0,2fr) minmax(0,1fr);gap:12px")]
        [viewPane theme mode view,
          .element "div" [("class", "inspector-pane")]
            [Inspector.render theme selected, TokenList.render theme tokens]]]

/-- Brings the view that is on up to date with a document and draws it. -/
def draw (p : AstPanel) (lib : FontLibrary) (document : Document) (selected : Option NodeId) :
    Logged (AstPanel × Except LayoutError Markup) :=
  match p.viewMode with
  | .tree =>
    let updated := p.outline.update lib (some document) p.theme.fontFamily
    ⟨({ p with outline := updated.value.1 },
      updated.value.2.map fun _ => updated.value.1.render selected p.theme p.render),
      updated.lines⟩
  | .bubble =>
    let updated := p.bubbles.update (some document)
    ⟨({ p with bubbles := updated.value.1 },
      updated.value.2.map fun _ => updated.value.1.render selected p.theme p.render),
      updated.lines⟩

/-- The document, if it has anything to draw. -/
def shown? (document : Option Document) : Option Document :=
  document.filter fun d => !d.ast.isEmpty

/-- Renders the card. -/
def renderCard (p : AstPanel) (lib : FontLibrary) (document : Option Document)
    (selected : Option AstNode) (tokens : List Token) :
    Logged (AstPanel × Except LayoutError Markup) :=
  match shown? document with
  | none => ⟨(p, .ok (card p.theme [header [], placeholder p.theme])), []⟩
  | some document =>
    let drawn := p.draw lib document (selected.bind AstNode.id)
    ⟨(drawn.value.1,
      drawn.value.2.map fun view => cardWith p.theme p.viewMode view selected tokens),
      drawn.lines⟩

/-- The node under a point of the view that is on. -/
def click? (p : AstPanel) (x y : Float32) : Option (NodeRef × AstNode) :=
  match p.viewMode with
  | .tree => p.outline.click? x y
  | .bubble => p.bubbles.click? x y

end AstPanel

/-- A page around the text of a card. -/
def renderPage (theme : Theme) (title content : String) : String :=
  "<!DOCTYPE html><html><head><meta charset=\"utf-8\"><title>" ++ Markup.escape title
    ++ "</title></head><body style=\"margin:0;padding:24px;background:" ++ theme.background
    ++ ";font-family:" ++ Markup.escape theme.fontFamily ++ "\">" ++ content ++ "</body></html>"

end TreeAtlas
