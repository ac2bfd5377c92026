import TreeAtlas.Proofs.Except
import TreeAtlas.Proofs.Markup.Values
import TreeAtlas.Proofs.Panel.Page
import TreeAtlas.Proofs.Panel.Written

/-!
# Themes of configuration files

A configuration file puts texts of its own in place of those of a palette.  The drawing with these
texts is the drawing with the palette but for values of attributes: the walk does not ask for the
theme, and neither do the tags and the data (`bare_draw`).  The font family is escaped, colours are
not.  So the text of a drawing reads like that with the palette exactly if the colours in it have no
quote and start no tag (`drawing_of_file`), whatever the font family is.
-/

namespace TreeAtlas

open Markup

/-! ### What a file says -/

/-- The colours that are given, in order. -/
def ThemeVariables.colors (vars : ThemeVariables) : List String :=
  [vars.background, vars.textColor, vars.lineColor, vars.nodeFill, vars.nodeStroke,
    vars.nodeTextColor, vars.selectedFill, vars.selectedStroke, vars.accentColor].reduceOption

/-- The colours of a file, which go into drawings as they are. -/
def ConfigFile.colors (file : ConfigFile) : List String :=
  file.themeVariables.elim [] ThemeVariables.colors

/-- The palette of a file with what the file says beside its name. -/
def ConfigFile.themed (file : ConfigFile) : Theme :=
  match file.themeVariables with
  | some vars => vars.apply file.namedTheme.value
  | none => file.namedTheme.value

section Files

variable {source : String} {config : Config} {file : ConfigFile}

theorem ConfigFile.theme_toConfig (h : file.toConfig.outcome.value = .ok config) :
    config.theme = file.themed := by
  rw [toConfig, Attempt.value_bind, Attempt.value_lift] at h
  simp only [Except.bind] at h
  split at h
  · rename_i layout _
    rw [Attempt.value_bind, Attempt.value_ofExcept] at h
    cases hvalid : layout.validate with
    | error e =>
      rw [hvalid] at h
      cases h
    | ok u =>
      rw [hvalid] at h
      cases h
      rfl
  · cases h
    rfl

theorem Config.exists_file (h : (Config.parse source).outcome.value = .ok config) :
    ∃ file, Config.readFile source = .ok file ∧ config.theme = file.themed := by
  rw [Config.parse, Attempt.value_bind, Attempt.value_ofExcept] at h
  cases hfile : Config.readFile source with
  | error e =>
    rw [hfile] at h
    cases h
  | ok file =>
    rw [hfile] at h
    exact ⟨file, rfl, ConfigFile.theme_toConfig h⟩

/-- A file names one of the palettes, or gets the default one. -/
theorem ConfigFile.plainColors_namedTheme (file : ConfigFile) :
    file.namedTheme.value.PlainColors := by
  unfold namedTheme
  split
  · exact Theme.plainColors_explorer
  · split
    · exact plainColors_ofName? ‹_›
    · exact Theme.plainColors_explorer

/-- Plain colours in a file make a theme with plain colours. -/
theorem ConfigFile.plain_themed (h : ∀ color ∈ file.colors, Plain color) :
    ∀ color ∈ file.themed.colors, Plain color := by
  unfold themed
  unfold ConfigFile.colors at h
  cases hvars : file.themeVariables with
  | none => exact file.plainColors_namedTheme.plain
  | some vars =>
    rw [hvars] at h
    have hgiven : ∀ given ∈ [vars.background, vars.textColor, vars.lineColor, vars.nodeFill,
        vars.nodeStroke, vars.nodeTextColor, vars.selectedFill, vars.selectedStroke,
        vars.accentColor], ∀ named, Plain named → Plain (given.getD named) := by
      rintro (_ | color) hmem named hnamed
      · exact hnamed
      · exact h color (List.reduceOption_mem_iff.2 hmem)
    simp only [List.forall_mem_cons] at hgiven
    simp [Theme.colors, ThemeVariables.apply, file.plainColors_namedTheme.each, hgiven]

end Files

/-! ### Colours in drawings -/

/-- The colours that stand in the drawing of a layout. -/
def ViewLayout.colors (layout : ViewLayout) (options : RenderOptions) : List String :=
  let theme := options.config.theme
  theme.canvasColors options.config.render ++ match layout with
    | .bubbles layout => layout.links.map (fun _ => theme.lineColor)
      ++ layout.bubbles.toList.flatMap fun b =>
        theme.circleColors (Drawing.isSelected b.id options.selected)
    | .outline layout => layout.rows.toList.flatMap fun r =>
      theme.rowColors (Drawing.isSelected r.id options.selected)

section Colors

variable {lib : FontLibrary} {ast : Ast} {layout : ViewLayout} {options : RenderOptions}

theorem ViewLayout.colors_subset : layout.colors options ⊆ options.config.theme.colors := by
  have hcanvas : options.config.theme.canvasColors options.config.render
      ⊆ options.config.theme.colors := by
    unfold Theme.canvasColors
    split <;> simp [Theme.colors]
  have hcircle : ∀ marked, options.config.theme.circleColors marked
      ⊆ options.config.theme.colors := by
    rintro (_ | _) <;> simp [Theme.circleColors, Theme.colors]
  have hrow : ∀ marked, options.config.theme.rowColors marked ⊆ options.config.theme.colors := by
    rintro (_ | _) <;> simp [Theme.rowColors, Theme.colors]
  cases layout with
  | bubbles layout =>
    refine List.append_subset.2 ⟨hcanvas, List.append_subset.2 ⟨fun color hcolor => ?_, ?_⟩⟩
    · obtain ⟨l, -, rfl⟩ := List.mem_map.1 hcolor
      simp [Theme.colors]
    · intro color hcolor
      obtain ⟨b, -, hb⟩ := List.mem_flatMap.1 hcolor
      exact hcircle _ hb
  | outline layout =>
    refine List.append_subset.2 ⟨hcanvas, fun color hcolor => ?_⟩
    obtain ⟨r, -, hr⟩ := List.mem_flatMap.1 hcolor
    exact hrow _ hr

theorem layoutView_cases (h : (layoutView lib ast options).outcome.value = .ok layout) :
    (∃ bubbles, layout = .bubbles bubbles ∧ options.view = .bubble
        ∧ options.config.bubblesOf ast = .ok bubbles)
      ∨ ∃ outline, layout = .outline outline ∧ options.view = .tree
        ∧ options.config.outlineOf lib ast = .ok outline := by
  rw [value_layoutView] at h
  cases hview : options.view with
  | bubble =>
    rw [hview] at h
    cases hlayout : options.config.bubblesOf ast <;> rw [hlayout] at h <;> cases h
    exact .inl ⟨_, rfl, rfl, rfl⟩
  | tree =>
    rw [hview] at h
    cases hlayout : options.config.outlineOf lib ast <;> rw [hlayout] at h <;> cases h
    exact .inr ⟨_, rfl, rfl, rfl⟩

/-- A drawing is clean exactly if the colours in it are plain. -/
theorem clean_draw_iff (h : (layoutView lib ast options).outcome.value = .ok layout) :
    (layout.draw options).Clean ↔ ∀ color ∈ layout.colors options, Plain color := by
  obtain ⟨bubbles, rfl, -, hbubbles⟩ | ⟨outline, rfl, -, -⟩ := layoutView_cases h
  · rw [ViewLayout.draw, Drawing.clean_bubbles_iff (plain_links hbubbles), ViewLayout.colors]
    simp only [List.forall_mem_append, List.forall_mem_map, List.forall_mem_flatMap]
  · rw [ViewLayout.draw, Drawing.clean_outline_iff, ViewLayout.colors]
    simp only [List.forall_mem_append, List.forall_mem_flatMap]

end Colors

/-! ### Drawings without their values -/

namespace Drawing

variable {theme theme' : Theme} {render : RenderConfig} {selected : Option NodeId}

theorem bare_canvas {width width' height height' : Float32} {content content' : List Markup}
    (h : content.map bare = content'.map bare) :
    (canvas theme render width height content).bare
      = (canvas theme' render width' height' content').bare := by
  unfold canvas
  simp only []
  split <;> simp [bare, bareAll_eq, bareAttributes, h]

theorem bare_bubble (b : Bubble) :
    (bubble theme selected b).bare = (bubble theme' selected b).bare := by
  unfold bubble
  cases isSelected b.id selected <;> simp [bare, bareAll, bareAttributes, text]

theorem bare_bubbles (layout : BubbleLayout) : (bubbles layout selected theme render).bare
    = (bubbles layout selected theme' render).bare := by
  refine bare_canvas ?_
  have hlinks : layout.links.map (bare ∘ link theme) = layout.links.map (bare ∘ link theme') := rfl
  have hcircles : layout.bubbles.toList.map (bare ∘ bubble theme selected)
      = layout.bubbles.toList.map (bare ∘ bubble theme' selected) :=
    List.map_congr_left fun b _ => bare_bubble b
  simp [bare, bareAll_eq, hlinks, hcircles]

/-- Rows of the same text are drawn with the same tags and data. -/
theorem bare_row {fontSize : Float32} {r r' : OutlineRow} (hid : r.id = r'.id)
    (htext : r.text = r'.text) (hcount : r.childCount = r'.childCount) :
    (row theme fontSize selected r).bare = (row theme' fontSize selected r').bare := by
  unfold row marker
  rw [hid, htext, hcount]
  cases isSelected r'.id selected <;> simp [bare, bareAll, bareAttributes, text]

theorem bare_outline {ast : Ast} {showIds : Bool} {layout layout' : Outline} {vs : List Visit}
    {fontSize : Float32} (h : List.Forall₂ (OutlineRow.Shows ast showIds) layout.rows.toList vs)
    (h' : List.Forall₂ (OutlineRow.Shows ast showIds) layout'.rows.toList vs) :
    (outline layout selected fontSize theme render).bare
      = (outline layout' selected fontSize theme' render).bare := by
  refine bare_canvas ?_
  rw [List.map_map, List.map_map]
  refine map_eq_map_of_forall₂_forall₂ h h' ?_
  rintro r r' v ⟨-, -, node, hn, hid, htext, hcount⟩ ⟨-, -, node', hn', hid', htext', hcount'⟩
  rw [hn, Option.some.injEq] at hn'
  subst hn'
  exact bare_row (hid.trans hid'.symm) (htext.trans htext'.symm) (hcount.trans hcount'.symm)

end Drawing

section Presets

variable {lib : FontLibrary} {ast : Ast} {options : RenderOptions}

/-- Options with another theme. -/
def RenderOptions.withTheme (options : RenderOptions) (theme : Theme) : RenderOptions :=
  { options with config := { options.config with theme } }

theorem shows_of_outline {config : Config} {outline : Outline} {visits : Array Visit}
    (hv : preorder ast config.layout.maxDepth config.layout.maxNodes = .ok visits)
    (h : config.outlineOf lib ast = .ok outline) :
    List.Forall₂ (OutlineRow.Shows ast config.tree.showIds) outline.rows.toList visits.toList := by
  obtain ⟨_, hok, hshows⟩ := layoutOutline_ok lib config.tree config.theme.fontFamily hv
  cases h.symm.trans hok
  exact hshows

/-- The theme shows in nothing but values. -/
theorem bare_draw {theme : Theme} {layout layout' : ViewLayout}
    (h : (layoutView lib ast options).outcome.value = .ok layout)
    (h' : (layoutView lib ast (options.withTheme theme)).outcome.value = .ok layout') :
    (layout.draw options).bare = (layout'.draw (options.withTheme theme)).bare := by
  obtain ⟨visits, hv, -⟩ := exists_visits_of_layoutView h
  obtain ⟨bubbles, rfl, hview, hbubbles⟩ | ⟨outline, rfl, hview, houtline⟩ := layoutView_cases h
  · obtain ⟨bubbles', rfl, -, hbubbles'⟩ | ⟨_, -, hview', -⟩ := layoutView_cases h'
    · obtain rfl : bubbles = bubbles' := Except.ok.inj (hbubbles.symm.trans hbubbles')
      exact Drawing.bare_bubbles bubbles
    · cases hview.symm.trans hview'
  · obtain ⟨_, -, hview', -⟩ | ⟨outline', rfl, -, houtline'⟩ := layoutView_cases h'
    · cases hview.symm.trans hview'
    · have hshows := @shows_of_outline lib ast options.config outline visits hv houtline
      have hshows' :=
        @shows_of_outline lib ast (options.withTheme theme).config outline' visits hv houtline'
      exact Drawing.bare_outline hshows hshows'

/-- A tree that cannot be drawn cannot be drawn with another theme either, for the same reason. -/
theorem error_withTheme {theme : Theme} {e : LayoutError} :
    (drawTree lib ast options).outcome.value = .error e
      ↔ (drawTree lib ast (options.withTheme theme)).outcome.value = .error e := by
  rw [value_drawTree, value_drawTree]
  cases hv : preorder ast options.config.layout.maxDepth options.config.layout.maxNodes with
  | error e' =>
    have herror := layoutView_error lib ast options hv
    have herror' : (layoutView lib ast (options.withTheme theme)).outcome.value = .error e' :=
      layoutView_error lib ast _ hv
    rw [herror, herror']
    exact Iff.rfl
  | ok visits =>
    obtain ⟨layout, hlayout, -⟩ := layoutView_ok lib ast options hv
    obtain ⟨layout', hlayout', -⟩ : ∃ layout',
        (layoutView lib ast (options.withTheme theme)).outcome.value = .ok layout' ∧ _ :=
      layoutView_ok lib ast _ hv
    rw [hlayout, hlayout']
    exact ⟨nofun, nofun⟩

/-- With plain colours in its place, a theme leads to a drawing that reads like the other one. -/
theorem readsLike_withTheme {theme : Theme} {layout layout' : ViewLayout}
    (htheme : theme.PlainColors) (h : (layoutView lib ast options).outcome.value = .ok layout)
    (h' : (layoutView lib ast (options.withTheme theme)).outcome.value = .ok layout') :
    (layout.draw options).ReadsLike (layout'.draw (options.withTheme theme))
      ↔ ∀ color ∈ layout.colors options, Plain color := by
  have hmodel : (layout'.draw (options.withTheme theme)).Clean :=
    (clean_draw_iff h').2 fun color hcolor =>
      htheme.plain color (ViewLayout.colors_subset hcolor)
  rw [readsLike_iff hmodel (bare_draw h h'), clean_draw_iff h]

end Presets

/-- A configuration file leaves markup unbroken exactly if the colours that it puts into a drawing
have no quote and start no tag.  The drawing succeeds and fails as with the palette that the file
names, and its text has the same tags and attributes, with the values that were meant for them.  No
other text of a file matters. -/
theorem drawing_of_file {source : String} {config : Config}
    (h : (Config.parse source).outcome.value = .ok config) (lib : FontLibrary) (ast : Ast)
    (view : ViewMode) (selected : Option NodeId) :
    let options : RenderOptions := { config, view, selected }
    ∃ file, Config.readFile source = .ok file ∧ config.theme = file.themed
      ∧ (∀ e, (drawTree lib ast options).outcome.value = .error e
        ↔ (drawTree lib ast (options.withTheme file.namedTheme.value)).outcome.value = .error e)
      ∧ ∀ layout model, (layoutView lib ast options).outcome.value = .ok layout →
        (drawTree lib ast (options.withTheme file.namedTheme.value)).outcome.value = .ok model →
          (drawTree lib ast options).outcome.value = .ok (layout.draw options)
          ∧ ((layout.draw options).ReadsLike model ↔ ∀ color ∈ layout.colors options, Plain color)
          ∧ ((∀ color ∈ file.colors, Plain color) → (layout.draw options).ReadsLike model) := by
  intro options
  obtain ⟨file, hfile, htheme⟩ := Config.exists_file h
  refine ⟨file, hfile, htheme, fun e => error_withTheme, fun layout model hlayout hmodel => ?_⟩
  rw [value_drawTree] at hmodel
  cases hpreset : (layoutView lib ast
      (options.withTheme file.namedTheme.value)).outcome.value with
  | error e =>
    rw [hpreset] at hmodel
    cases hmodel
  | ok layout' =>
    rw [hpreset] at hmodel
    cases hmodel
    have hreads := readsLike_withTheme file.plainColors_namedTheme hlayout hpreset
    refine ⟨by rw [value_drawTree, hlayout]; rfl, hreads, fun hplain => hreads.2 ?_⟩
    intro color hcolor
    have hmem := ViewLayout.colors_subset hcolor
    rw [show options.config.theme = file.themed from htheme] at hmem
    exact file.plain_themed hplain color hmem

/-- A font family that would add a tag if it were written as it is. -/
def quotedFont : String :=
  "\x7b'themeVariables': \x7b'fontFamily': '\"><x y=\"', 'background': 'red'\x7d\x7d"

/-- A colour that adds a tag. -/
def quotedColor : String :=
  "\x7b'themeVariables': \x7b'background': '\"><x y=\"'\x7d\x7d"

/-- A root that is selected, with a leaf. -/
def selectedRoot : Ast where
  nodes := #[{ id := some (.text "a"), shape := .children [⟨1⟩] }, { kind := some "<leaf>" }]
  root := some ⟨0⟩

theorem preorder_selectedRoot :
    preorder selectedRoot 512 100000 = .ok #[⟨⟨0⟩, 0, none⟩, ⟨⟨1⟩, 1, some 0⟩] := by
  decide +kernel

theorem parse_quotedFont : ∃ config, (Config.parse quotedFont).outcome.value = .ok config
    ∧ config.theme.fontFamily = "\"><x y=\"" ∧ config.theme.background = "red"
    ∧ config.layout.maxDepth = 512 ∧ config.layout.maxNodes = 100000 := by
  have hconfig : (Config.parse quotedFont).outcome.value.toOption.map
      (fun config => (config.theme.fontFamily, config.theme.background, config.layout.maxDepth,
        config.layout.maxNodes)) = some ("\"><x y=\"", "red", 512, 100000) := by
    decide +kernel
  obtain ⟨config, h, hfields⟩ := Option.map_eq_some_iff.1 hconfig
  simp only [Prod.mk.injEq] at hfields
  exact ⟨config, eq_ok_of_toOption h, hfields⟩

theorem colors_quotedFont :
    (Config.readFile quotedFont).toOption.map ConfigFile.colors = some ["red"] := by
  decide +kernel

theorem drawing_of_file_quotedFont :
    ∃ config file d model, (Config.parse quotedFont).outcome.value = .ok config
      ∧ Config.readFile quotedFont = .ok file
      ∧ config.theme.fontFamily = "\"><x y=\"" ∧ config.theme.background = "red"
      ∧ (drawTree .builtIn selectedRoot
        { config, view := .bubble, selected := some (.text "a") }).outcome.value = .ok d
      ∧ (drawTree .builtIn selectedRoot (RenderOptions.withTheme
        { config, view := .bubble, selected := some (.text "a") }
        file.namedTheme.value)).outcome.value = .ok model
      ∧ d.ReadsLike model := by
  obtain ⟨config, hconfig, hfont, hbackground, hdepth, hnodes⟩ := parse_quotedFont
  let options : RenderOptions := { config, view := .bubble, selected := some (.text "a") }
  obtain ⟨file, hfile, -, -, hdrawn⟩ :=
    drawing_of_file hconfig .builtIn selectedRoot .bubble (some (.text "a"))
  have hcolors := colors_quotedFont
  rw [hfile] at hcolors
  have hplain : ∀ color ∈ file.colors, Plain color := by
    rw [show file.colors = ["red"] from Option.some.inj hcolors]
    decide
  have hv := preorder_selectedRoot
  rw [← hdepth, ← hnodes] at hv
  obtain ⟨layout, hlayout, -⟩ := layoutView_ok .builtIn selectedRoot options hv
  obtain ⟨layout', hlayout', -⟩ : ∃ layout', (layoutView .builtIn selectedRoot
      (options.withTheme file.namedTheme.value)).outcome.value = .ok layout' ∧ _ :=
    layoutView_ok .builtIn selectedRoot _ hv
  have hmodel : (drawTree .builtIn selectedRoot
      (options.withTheme file.namedTheme.value)).outcome.value
        = .ok (layout'.draw (options.withTheme file.namedTheme.value)) := by
    rw [value_drawTree, hlayout']
    rfl
  obtain ⟨hdraw, -, hreads⟩ := hdrawn layout _ hlayout hmodel
  exact ⟨config, file, _, _, hconfig, hfile, hfont, hbackground, hdraw, hmodel, hreads hplain⟩

/-- What is read of the drawing of a tree with a configuration text, and of that with a palette. -/
def readings (source : String) (palette : Theme) (ast : Ast) :
    Option (List Piece × List Piece) := do
  let config ← (Config.parse source).outcome.value.toOption
  let d ← (drawTree .builtIn ast { config }).outcome.value.toOption
  let model ← (drawTree .builtIn ast
    (RenderOptions.withTheme { config } palette)).outcome.value.toOption
  let ps ← Piece.ofText d.write
  let qs ← Piece.ofText model.write
  return (ps, qs)

/-- The colour ends its value and adds a tag, and the element around it is not closed. -/
theorem quotedColor_unbalanced :
    ∃ config d model ps qs, (Config.parse quotedColor).outcome.value = .ok config
      ∧ (drawTree .builtIn {} { config }).outcome.value = .ok d
      ∧ (drawTree .builtIn {} (RenderOptions.withTheme { config } .explorer)).outcome.value
        = .ok model
      ∧ Piece.ofText d.write = some ps ∧ Piece.ofText model.write = some qs
      ∧ Piece.nested [] ps = false ∧ ps.countP (Piece.starts "x") = 1
      ∧ qs.countP (Piece.starts "x") = 0 := by
  have hread : (readings quotedColor .explorer {}).map (fun r => (Piece.nested [] r.1,
      r.1.countP (Piece.starts "x"), r.2.countP (Piece.starts "x"))) = some (false, 1, 0) := by
    decide +kernel
  obtain ⟨⟨ps, qs⟩, hpieces, hcounts⟩ := Option.map_eq_some_iff.1 hread
  simp only [readings, Option.bind_eq_bind, Option.bind_eq_some_iff, Option.pure_def,
    Option.some.injEq, Prod.mk.injEq] at hpieces
  obtain ⟨config, hconfig, d, hd, model, hmodel, ps, hps, qs, hqs, rfl, rfl⟩ := hpieces
  simp only [Prod.mk.injEq] at hcounts
  exact ⟨config, d, model, ps, qs, eq_ok_of_toOption hconfig, eq_ok_of_toOption hd,
    eq_ok_of_toOption hmodel, hps, hqs, hcounts⟩

end TreeAtlas
