import TreeAtlas.Record.Schema
import TreeAtlas.Record.Written

/-!
# Themes

The colours and the type of the drawings and of the page around them, with the two palettes that
have names. Colours are written into attributes as they are.
-/

namespace TreeAtlas

structure Theme where
  fontFamily : String
  fontSize : Float32
  background : String
  surface : String
  surfaceBorder : String
  textColor : String
  mutedTextColor : String
  lineColor : String
  nodeFill : String
  nodeStroke : String
  nodeTextColor : String
  selectedFill : String
  selectedStroke : String
  accentColor : String
  accentBackground : String
  accentTextColor : String
  buttonBorder : String
  buttonBackground : String
  buttonTextColor : String

namespace Theme

/-- The dark palette. -/
def explorer : Theme where
  fontFamily := "Inter, Segoe UI, system-ui, -apple-system, sans-serif"
  fontSize := 11
  background := "#0b1020"
  surface := "#0f172a"
  surfaceBorder := "#1e293b"
  textColor := "#e2e8f0"
  mutedTextColor := "#94a3b8"
  lineColor := "#1f2a44"
  nodeFill := "rgba(15,23,42,0.95)"
  nodeStroke := "#223055"
  nodeTextColor := "#e2e8f0"
  selectedFill := "rgba(59,130,246,0.45)"
  selectedStroke := "#60a5fa"
  accentColor := "#3b82f6"
  accentBackground := "rgba(59,130,246,0.2)"
  accentTextColor := "#bfdbfe"
  buttonBorder := "#223055"
  buttonBackground := "#0b1020"
  buttonTextColor := "#cbd5e1"

def light : Theme where
  fontFamily := "Inter, Segoe UI, system-ui, -apple-system, sans-serif"
  fontSize := 11
  background := "#FFFFFF"
  surface := "#F8FAFF"
  surfaceBorder := "#D7E0F0"
  textColor := "#1C2430"
  mutedTextColor := "#5B677A"
  lineColor := "#7A8AA6"
  nodeFill := "#F8FAFF"
  nodeStroke := "#C7D2E5"
  nodeTextColor := "#1C2430"
  selectedFill := "rgba(59,130,246,0.25)"
  selectedStroke := "#2563EB"
  accentColor := "#2563EB"
  accentBackground := "rgba(37,99,235,0.12)"
  accentTextColor := "#1E3A8A"
  buttonBorder := "#C7D2E5"
  buttonBackground := "#FFFFFF"
  buttonTextColor := "#334155"

def ofName? : String → Option Theme
  | "explorer" | "dark" | "default" => some explorer
  | "light" | "modern" => some light
  | _ => none

open Record in
/-- A theme is given whole: no field has a default. -/
def read {R : Type → Type} (f : Format R) : R Theme :=
  let string {ρ σ : Type} (name : String) (rest : Fields R ρ σ) :=
    Fields.cons name [] .required f.text rest
  f.record "Theme"
    (string "font_family" <| .cons "font_size" [] .required f.single <| string "background"
      <| string "surface" <| string "surface_border" <| string "text_color"
      <| string "muted_text_color" <| string "line_color" <| string "node_fill"
      <| string "node_stroke" <| string "node_text_color" <| string "selected_fill"
      <| string "selected_stroke" <| string "accent_color" <| string "accent_background"
      <| string "accent_text_color" <| string "button_border" <| string "button_background"
      <| string "button_text_color" .nil)
    fun (fontFamily, fontSize, background, surface, surfaceBorder, textColor, mutedTextColor,
        lineColor, nodeFill, nodeStroke, nodeTextColor, selectedFill, selectedStroke, accentColor,
        accentBackground, accentTextColor, buttonBorder, buttonBackground, buttonTextColor, ()) =>
      { fontFamily, fontSize, background, surface, surfaceBorder, textColor, mutedTextColor,
        lineColor, nodeFill, nodeStroke, nodeTextColor, selectedFill, selectedStroke, accentColor,
        accentBackground, accentTextColor, buttonBorder, buttonBackground, buttonTextColor }

def written (t : Theme) : Written :=
  .record
    [("font_family", .text t.fontFamily), ("font_size", .single t.fontSize),
      ("background", .text t.background), ("surface", .text t.surface),
      ("surface_border", .text t.surfaceBorder), ("text_color", .text t.textColor),
      ("muted_text_color", .text t.mutedTextColor), ("line_color", .text t.lineColor),
      ("node_fill", .text t.nodeFill), ("node_stroke", .text t.nodeStroke),
      ("node_text_color", .text t.nodeTextColor), ("selected_fill", .text t.selectedFill),
      ("selected_stroke", .text t.selectedStroke), ("accent_color", .text t.accentColor),
      ("accent_background", .text t.accentBackground),
      ("accent_text_color", .text t.accentTextColor), ("button_border", .text t.buttonBorder),
      ("button_background", .text t.buttonBackground),
      ("button_text_color", .text t.buttonTextColor)]

end Theme

end TreeAtlas
