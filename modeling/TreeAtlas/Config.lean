import TreeAtlas.Json5.Reading
import TreeAtlas.Log
import TreeAtlas.Theme

/-!
# Configuration

A configuration is a theme and three sections of settings. A configuration file names a theme,
overrides some of its colours and its type, and gives any of the sections; a section that is given
replaces the default one, its missing fields standing for the defaults. Only the spacing and the
radii of the bubble graph are checked: they have to be finite and not negative.
-/

namespace TreeAtlas

/-- Grid, radii and budgets of the bubble graph. The budgets hold for the outline too. -/
structure LayoutConfig where
  columnWidth : Float32 := 200
  rowHeight : Float32 := 90
  paddingX : Float32 := 30
  paddingY : Float32 := 30
  minWidth : Float32 := 600
  minHeight : Float32 := 320
  /-- Room for labels and radii past the last column and row. -/
  overflowSlack : Float32 := 120
  baseRadius : Float32 := 18
  radiusStep : Float32 := 2
  maxRadiusGrowth : Float32 := 22
  maxDepth : Nat := 512
  maxNodes : Nat := 100000

/-- Measures of the outline. -/
structure TreeConfig where
  indent : Float32 := 18
  rowHeight : Float32 := 24
  padding : Float32 := 12
  rowPaddingX : Float32 := 8
  fontSize : Float32 := 12
  minWidth : Float32 := 320
  minHeight : Float32 := 120
  showIds : Bool := true

structure RenderConfig where
  width : Float32 := 1200
  height : Float32 := 800
  /-- Drawings take the full width of what they are put into. -/
  fluidWidth : Bool := false

structure Config where
  theme : Theme := .explorer
  layout : LayoutConfig := {}
  tree : TreeConfig := {}
  render : RenderConfig := {}

/-- What a configuration file says about the theme, beside its name. -/
structure ThemeVariables where
  fontFamily : Option String
  fontSize : Option Float32
  background : Option String
  textColor : Option String
  lineColor : Option String
  nodeFill : Option String
  nodeStroke : Option String
  nodeTextColor : Option String
  selectedFill : Option String
  selectedStroke : Option String
  accentColor : Option String

structure ConfigFile where
  theme : Option String
  themeVariables : Option ThemeVariables
  layout : Option LayoutConfig
  tree : Option TreeConfig
  render : Option RenderConfig

inductive ConfigError where
  | malformed
  | unreadable (e : Json5.ReadError)
  | badSetting (name : String) (value : Float32)

def ConfigError.message : ConfigError → String
  | .malformed => "ConfigSyntax"
  | .unreadable e => e.message
  | .badSetting name value =>
    "layout." ++ name ++ " must be a finite, non-negative number (got " ++ singleText value ++ ")"

open Record

namespace LayoutConfig

/-- The settings that are checked, in order, under the names that files use. -/
def lengths (c : LayoutConfig) : List (String × Float32) :=
  [("columnWidth", c.columnWidth), ("rowHeight", c.rowHeight), ("paddingX", c.paddingX),
    ("paddingY", c.paddingY), ("minWidth", c.minWidth), ("minHeight", c.minHeight),
    ("overflowSlack", c.overflowSlack), ("baseRadius", c.baseRadius),
    ("radiusStep", c.radiusStep), ("maxRadiusGrowth", c.maxRadiusGrowth)]

def isLength (x : Float32) : Bool :=
  x.isFinite && !(x < 0)

/-- Refuses the first setting that is no length. -/
def validate (c : LayoutConfig) : Except ConfigError Unit :=
  match c.lengths.find? fun setting => !isLength setting.2 with
  | some (name, value) => .error (.badSetting name value)
  | none => .ok ()

def read {R : Type → Type} (f : Format R) : R LayoutConfig :=
  let length {ρ σ : Type} (name : String) (value : Float32) (rest : Fields R ρ σ) :=
    Fields.cons name [] (.default value) f.single rest
  let standard : LayoutConfig := {}
  f.record "LayoutConfig"
    (length "columnWidth" standard.columnWidth <| length "rowHeight" standard.rowHeight
      <| length "paddingX" standard.paddingX <| length "paddingY" standard.paddingY
      <| length "minWidth" standard.minWidth <| length "minHeight" standard.minHeight
      <| length "overflowSlack" standard.overflowSlack <| length "baseRadius" standard.baseRadius
      <| length "radiusStep" standard.radiusStep
      <| length "maxRadiusGrowth" standard.maxRadiusGrowth
      <| .cons "maxDepth" [] (.default standard.maxDepth) f.size
      <| .cons "maxNodes" [] (.default standard.maxNodes) f.size .nil)
    fun (columnWidth, rowHeight, paddingX, paddingY, minWidth, minHeight, overflowSlack,
        baseRadius, radiusStep, maxRadiusGrowth, maxDepth, maxNodes, ()) =>
      { columnWidth, rowHeight, paddingX, paddingY, minWidth, minHeight, overflowSlack,
        baseRadius, radiusStep, maxRadiusGrowth, maxDepth, maxNodes }

def written (c : LayoutConfig) : Written :=
  .record <| c.lengths.map (fun (name, value) => (name, .single value))
    ++ [("maxDepth", .whole c.maxDepth), ("maxNodes", .whole c.maxNodes)]

end LayoutConfig

namespace TreeConfig

def read {R : Type → Type} (f : Format R) : R TreeConfig :=
  let length {ρ σ : Type} (name : String) (value : Float32) (rest : Fields R ρ σ) :=
    Fields.cons name [] (.default value) f.single rest
  let standard : TreeConfig := {}
  f.record "TreeConfig"
    (length "indent" standard.indent <| length "rowHeight" standard.rowHeight
      <| length "padding" standard.padding <| length "rowPaddingX" standard.rowPaddingX
      <| length "fontSize" standard.fontSize <| length "minWidth" standard.minWidth
      <| length "minHeight" standard.minHeight
      <| .cons "showIds" [] (.default standard.showIds) f.flag .nil)
    fun (indent, rowHeight, padding, rowPaddingX, fontSize, minWidth, minHeight, showIds, ()) =>
      { indent, rowHeight, padding, rowPaddingX, fontSize, minWidth, minHeight, showIds }

def written (c : TreeConfig) : Written :=
  .record
    [("indent", .single c.indent), ("rowHeight", .single c.rowHeight),
      ("padding", .single c.padding), ("rowPaddingX", .single c.rowPaddingX),
      ("fontSize", .single c.fontSize), ("minWidth", .single c.minWidth),
      ("minHeight", .single c.minHeight), ("showIds", .flag c.showIds)]

end TreeConfig

namespace RenderConfig

def read {R : Type → Type} (f : Format R) : R RenderConfig :=
  let standard : RenderConfig := {}
  f.record "RenderConfig"
    (.cons "width" [] (.default standard.width) f.single
      <| .cons "height" [] (.default standard.height) f.single
      <| .cons "fluidWidth" [] (.default standard.fluidWidth) f.flag .nil)
    fun (width, height, fluidWidth, ()) => { width, height, fluidWidth }

def written (c : RenderConfig) : Written :=
  .record
    [("width", .single c.width), ("height", .single c.height), ("fluidWidth", .flag c.fluidWidth)]

end RenderConfig

namespace ThemeVariables

def read {R : Type → Type} (f : Format R) : R ThemeVariables :=
  let string {ρ σ : Type} (name : String) (rest : Fields R ρ σ) :=
    Fields.cons name [] (.nameable none) (f.optional f.text) rest
  f.record "ThemeVariables"
    (string "fontFamily" <| .cons "fontSize" [] (.nameable none) (f.optional f.single)
      <| string "background" <| string "textColor" <| string "lineColor" <| string "nodeFill"
      <| string "nodeStroke" <| string "nodeTextColor" <| string "selectedFill"
      <| string "selectedStroke" <| string "accentColor" .nil)
    fun (fontFamily, fontSize, background, textColor, lineColor, nodeFill, nodeStroke,
        nodeTextColor, selectedFill, selectedStroke, accentColor, ()) =>
      { fontFamily, fontSize, background, textColor, lineColor, nodeFill, nodeStroke,
        nodeTextColor, selectedFill, selectedStroke, accentColor }

/-- The theme with the variables that are given. -/
def apply (vars : ThemeVariables) (theme : Theme) : Theme :=
  { theme with
    fontFamily := vars.fontFamily.getD theme.fontFamily
    fontSize := vars.fontSize.getD theme.fontSize
    background := vars.background.getD theme.background
    textColor := vars.textColor.getD theme.textColor
    lineColor := vars.lineColor.getD theme.lineColor
    nodeFill := vars.nodeFill.getD theme.nodeFill
    nodeStroke := vars.nodeStroke.getD theme.nodeStroke
    nodeTextColor := vars.nodeTextColor.getD theme.nodeTextColor
    selectedFill := vars.selectedFill.getD theme.selectedFill
    selectedStroke := vars.selectedStroke.getD theme.selectedStroke
    accentColor := vars.accentColor.getD theme.accentColor }

end ThemeVariables

namespace ConfigFile

def read {R : Type → Type} (f : Format R) : R ConfigFile :=
  f.record "ConfigFile"
    (.cons "theme" [] (.nameable none) (f.optional f.text)
      <| .cons "themeVariables" [] (.nameable none) (f.optional (ThemeVariables.read f))
      <| .cons "layout" [] (.nameable none) (f.optional (LayoutConfig.read f))
      <| .cons "tree" [] (.nameable none) (f.optional (TreeConfig.read f))
      <| .cons "render" [] (.nameable none) (f.optional (RenderConfig.read f)) .nil)
    fun (theme, themeVariables, layout, tree, render, ()) =>
      { theme, themeVariables, layout, tree, render }

def unknownThemeLine (name : String) : LogLine :=
  ⟨.warn, .config, "unknown theme " ++ Text.quoted name ++ ", keeping the default"⟩

/-- The theme a file names; an unknown name is worth a warning. -/
def namedTheme (file : ConfigFile) : Logged Theme :=
  match file.theme with
  | none => ⟨.explorer, []⟩
  | some name =>
    match Theme.ofName? name with
    | some theme => ⟨theme, []⟩
    | none => ⟨.explorer, [unknownThemeLine name]⟩

/-- The configuration that a file describes on top of the defaults. -/
def toConfig (file : ConfigFile) : Attempt ConfigError Config := do
  let named ← ExceptT.lift file.namedTheme
  let theme := match file.themeVariables with
    | some vars => vars.apply named
    | none => named
  let standard : Config := {}
  match file.layout with
  | some layout => Attempt.ofExcept layout.validate
  | none => Pure.pure ()
  return {
    theme
    layout := file.layout.getD standard.layout
    tree := file.tree.getD standard.tree
    render := file.render.getD standard.render }

end ConfigFile

namespace Config

def readFile (source : String) : Except ConfigError ConfigFile :=
  match Json5.parse? source with
  | none => .error .malformed
  | some node => (ConfigFile.read Json5.format node).mapError .unreadable

def parse (source : String) : Attempt ConfigError Config := do
  let file ← Attempt.ofExcept (readFile source)
  file.toConfig

end Config

end TreeAtlas
