import TreeAtlas.Record.OfText
import TreeAtlas.Render

/-!
# Embedding in a page

Rendering for a page that hands over texts: a document, perhaps tokens, and perhaps options. The
options choose a palette, a view and a selection, and override the font. A drawing takes the full
width unless the options say otherwise.
-/

namespace TreeAtlas

structure EmbedOptions where
  theme : Option String := none
  view : Option ViewMode := none
  selectedId : Option Json := none
  fontFamily : Option String := none
  fontSize : Option Float32 := none
  fluidWidth : Option Bool := none

inductive EmbedError where
  | options (e : Record.TextError)
  | render (e : RenderError)

def EmbedError.message : EmbedError → String
  | .options e => e.message
  | .render e => e.message

namespace EmbedOptions

open Record in
def read : TextReader EmbedOptions :=
  let f := Record.ofText
  f.record "ExplorerRenderOptions"
    (.cons "theme" [] (.nameable none) (f.optional f.text)
      <| .cons "view" [] (.nameable none) (f.optional viewModeOfText)
      <| .cons "selectedId" [] (.nameable none) (f.optional f.any)
      <| .cons "fontFamily" [] (.nameable none) (f.optional f.text)
      <| .cons "fontSize" [] (.nameable none) (f.optional f.single)
      <| .cons "fluidWidth" [] (.nameable none) (f.optional f.flag) .nil)
    fun (theme, view, selectedId, fontFamily, fontSize, fluidWidth, ()) =>
      { theme, view, selectedId, fontFamily, fontSize, fluidWidth }

/-- Only numbers and strings select. -/
def selection : Json → Option NodeId
  | .num n => some (.number n)
  | .str s => some (.text s)
  | _ => none

def toRenderOptions (o : EmbedOptions) : RenderOptions :=
  let standard : Config := {}
  let theme := (o.theme.bind Theme.ofName?).getD standard.theme
  { config :=
      { standard with
        theme :=
          { theme with
            fontFamily := o.fontFamily.getD theme.fontFamily
            fontSize := o.fontSize.getD theme.fontSize }
        render := { standard.render with fluidWidth := o.fluidWidth.getD true } }
    view := o.view.getD .tree
    selected := o.selectedId.bind selection }

def parse (text : Option String) : Except EmbedError EmbedOptions :=
  match text with
  | none => .ok {}
  | some text => (Record.readText read text).mapError .options

end EmbedOptions

def embedDrawing (lib : FontLibrary) (document : String) (options : Option String) :
    Attempt EmbedError String := do
  let options ← Attempt.ofExcept (EmbedOptions.parse options)
  (renderDocument lib document options.toRenderOptions).mapError .render

def embedPanel (lib : FontLibrary) (document : String) (tokens options : Option String) :
    Attempt EmbedError String := do
  let options ← Attempt.ofExcept (EmbedOptions.parse options)
  (renderDocumentPage lib document tokens options.toRenderOptions).mapError .render

end TreeAtlas
