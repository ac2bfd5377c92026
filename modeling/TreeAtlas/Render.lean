import TreeAtlas.Ast.Document
import TreeAtlas.Panel.Basic

/-!
# Rendering documents

From a document to a drawing or to a page with the panel, in one call.
-/

namespace TreeAtlas

structure RenderOptions where
  config : Config := {}
  view : ViewMode := .tree
  selected : Option NodeId := none

/-- The default options with the light palette. -/
def RenderOptions.light : RenderOptions where
  config := { theme := .light }

inductive RenderError where
  | document (e : DocumentError)
  | tokens (e : TokenError)
  | layout (e : LayoutError)

def RenderError.message : RenderError → String
  | .document e => e.message
  | .tokens e => e.message
  | .layout e => e.message

/-- The layout of one of the views. -/
inductive ViewLayout where
  | bubbles (layout : BubbleLayout)
  | outline (layout : Outline)

namespace ViewLayout

def width : ViewLayout → Float32
  | .bubbles layout => layout.width
  | .outline layout => layout.width

def height : ViewLayout → Float32
  | .bubbles layout => layout.height
  | .outline layout => layout.height

def draw (layout : ViewLayout) (options : RenderOptions) : Markup :=
  let config := options.config
  match layout with
  | .bubbles layout => Drawing.bubbles layout options.selected config.theme config.render
  | .outline layout =>
    Drawing.outline layout options.selected config.tree.fontSize config.theme config.render

end ViewLayout

/-- Lays out a tree for the view asked for. -/
def layoutView (lib : FontLibrary) (ast : Ast) (options : RenderOptions) :
    Attempt LayoutError ViewLayout :=
  let config := options.config
  match options.view with
  | .bubble => do
    return .bubbles (← layoutBubbles ast config.layout)
  | .tree => do
    return .outline (← layoutOutline lib ast config.tree config.layout config.theme.fontFamily)

/-- The view of a tree on its own. -/
def drawTree (lib : FontLibrary) (ast : Ast) (options : RenderOptions) :
    Attempt LayoutError Markup := do
  let layout ← layoutView lib ast options
  return layout.draw options

/-- The first node with the selected identifier. -/
def selectedNode? (ast : Ast) (selected : Option NodeId) : Option AstNode :=
  (selected.bind ast.findById?).bind ast.get?

def noSelectionLine : LogLine :=
  ⟨.warn, .render, "no node matches the selected id"⟩

def pageTitle : String := "AST Explorer"

/-- The card of a tree, its tokens and the selected node. -/
def renderTreeCard (lib : FontLibrary) (ast : Ast) (tokens : List Token)
    (options : RenderOptions) : Attempt LayoutError Markup := do
  let panel ← ExceptT.lift ((AstPanel.new options.config).setViewMode options.view)
  let selected := selectedNode? ast options.selected
  if options.selected.isSome && selected.isNone then Attempt.log [noSelectionLine]
  let rendered ← ExceptT.lift (panel.renderCard lib (some ⟨0, ast⟩) selected tokens)
  Attempt.ofExcept rendered.2

/-- The page of a tree. -/
def renderTreePage (lib : FontLibrary) (ast : Ast) (tokens : List Token)
    (options : RenderOptions) : Attempt LayoutError String := do
  let card ← renderTreeCard lib ast tokens options
  return renderPage options.config.theme pageTitle card.write

/-- The drawing of a document text. -/
def renderDocument (lib : FontLibrary) (text : String) (options : RenderOptions) :
    Attempt RenderError String := do
  let ast ← (Ast.ofText defaultNesting text).mapError .document
  let drawing ← (drawTree lib ast options).mapError .layout
  return drawing.write

/-- The page of a document text and a token list text. -/
def renderDocumentPage (lib : FontLibrary) (text : String) (tokenText : Option String)
    (options : RenderOptions) : Attempt RenderError String := do
  let ast ← (Ast.ofText defaultNesting text).mapError .document
  let tokens ← Attempt.ofExcept <| match tokenText with
    | none => .ok []
    | some text => (Token.parseList text).mapError .tokens
  (renderTreePage lib ast tokens options).mapError .layout

end TreeAtlas
