import TreeAtlas.Drawing.Svg

/-!
# Views that keep their layout

A view lays out the document it is given and keeps the layout until it is given another one. A
document is the same if it carries the same stamp; whoever makes documents never gives one stamp to
two trees. A layout that fails leaves a view without document and with an empty layout.
-/

namespace TreeAtlas

structure Document where
  stamp : Nat
  ast : Ast

namespace Document

/-- Whether a view that holds `held` may keep its layout for `next`. -/
def unchanged (held next : Option Document) : Bool :=
  match held, next with
  | some a, some b => a.stamp == b.stamp
  | none, none => true
  | _, _ => false

end Document

structure BubbleView where
  config : LayoutConfig
  document : Option Document := none
  layout : BubbleLayout
  /-- Layouts computed so far. -/
  passes : Nat := 0

namespace BubbleView

def new (config : LayoutConfig) : BubbleView :=
  { config, layout := .empty config }

/-- The view without document. -/
def cleared (v : BubbleView) : BubbleView :=
  { v with document := none, layout := .empty v.config }

/-- Shows a document, or none. -/
def update (v : BubbleView) (next : Option Document) :
    Logged (BubbleView × Except LayoutError BubbleLayout) :=
  if Document.unchanged v.document next then ⟨(v, .ok v.layout), []⟩
  else match next with
    | none => ⟨(v.cleared, .ok v.cleared.layout), []⟩
    | some document =>
      let outcome := (layoutBubbles document.ast v.config).outcome
      match outcome.value with
      | .error e => ⟨(v.cleared, .error e), outcome.lines⟩
      | .ok layout =>
        ⟨({ v with document := some document, layout, passes := v.passes + 1 }, .ok layout),
          outcome.lines⟩

def render (v : BubbleView) (selected : Option NodeId) (theme : Theme) (render : RenderConfig) :
    Markup :=
  Drawing.bubbles v.layout selected theme render

/-- The node under a point, as it stands in the document. -/
def click? (v : BubbleView) (x y : Float32) : Option (NodeRef × AstNode) := do
  let document ← v.document
  let hit ← v.layout.bubbleAt? x y
  let node ← document.ast.get? hit.node
  return (hit.node, node)

end BubbleView

structure OutlineView where
  config : TreeConfig
  limits : LayoutConfig
  document : Option Document := none
  layout : Outline

namespace OutlineView

def new (config : TreeConfig) (limits : LayoutConfig) : OutlineView :=
  { config, limits, layout := .empty config }

def cleared (v : OutlineView) : OutlineView :=
  { v with document := none, layout := .empty v.config }

/-- Shows a document, or none, with texts measured in the font of the families. -/
def update (v : OutlineView) (lib : FontLibrary) (next : Option Document) (family : String) :
    Logged (OutlineView × Except LayoutError Outline) :=
  if Document.unchanged v.document next then ⟨(v, .ok v.layout), []⟩
  else match next with
    | none => ⟨(v.cleared, .ok v.cleared.layout), []⟩
    | some document =>
      let outcome := (layoutOutline lib document.ast v.config v.limits family).outcome
      match outcome.value with
      | .error e => ⟨(v.cleared, .error e), outcome.lines⟩
      | .ok layout => ⟨({ v with document := some document, layout }, .ok layout), outcome.lines⟩

def render (v : OutlineView) (selected : Option NodeId) (theme : Theme) (render : RenderConfig) :
    Markup :=
  Drawing.outline v.layout selected v.config.fontSize theme render

/-- The node under a point, as it stands in the document. -/
def click? (v : OutlineView) (x y : Float32) : Option (NodeRef × AstNode) := do
  let document ← v.document
  let hit ← v.layout.rowAt? x y
  let node ← document.ast.get? hit.node
  return (hit.node, node)

end OutlineView

end TreeAtlas
