import TreeAtlas.Embedding
import TreeAtlas.Proofs.Drawing.Written
import TreeAtlas.Proofs.Except
import TreeAtlas.Proofs.Panel.Runs

/-!
# What a panel writes

Every part of a card is clean if the colours of the theme are plain, whatever nodes and tokens it
shows.  A card may show a layout that the panel kept, and a panel tells documents by their stamps
only; but all that is asked of a layout is that its links have plain names, and that is so for every
layout that was ever computed, so it stays so along every run (`Tidy`).
-/

namespace TreeAtlas

open Markup

variable {theme : Theme}

/-! ### The side pane -/

namespace Inspector

theorem clean_row (h : theme.PlainColors) (key value : String) : (row theme key value).Clean := by
  simp +decide [row, Clean, CleanAll, clean_text, h.each]

theorem clean_heading {text : String} (h : Plain text) : (heading text).Clean := by
  have hdata : '<' ∉ text.toList := clean_data_of_plain h
  simp +decide [heading, Clean, CleanAll, hdata]

theorem clean_muted (h : theme.PlainColors) {text : String} (htext : Plain text) :
    (muted theme text).Clean := by
  have hdata : '<' ∉ text.toList := clean_data_of_plain htext
  simp +decide [muted, Clean, CleanAll, hdata, h.each]

theorem clean_render (h : theme.PlainColors) (node : Option AstNode) :
    (render theme node).Clean := by
  have hheading : (heading "Node").Clean := clean_heading (by decide)
  cases node with
  | none =>
    have hmuted : (muted theme "Select a node to inspect it.").Clean := clean_muted h (by decide)
    simp +decide [render, Clean, CleanAll, hheading, hmuted, h.each]
  | some node =>
    refine ⟨by decide, by simp +decide [h.each], hheading, ⟨by decide, by simp +decide, ?_⟩,
      trivial⟩
    exact cleanAll_map_iff.2 fun p _ => clean_row h p.1 p.2

end Inspector

namespace TokenList

theorem clean_item (h : theme.PlainColors) (token : Token) : (item theme token).Clean := by
  unfold item
  split <;> simp +decide [position, Clean, CleanAll, clean_text, h.each]

theorem clean_render (h : theme.PlainColors) (tokens : List Token) :
    (render theme tokens).Clean := by
  have hheading : (Inspector.heading ("Tokens (" ++ toString tokens.length ++ ")")).Clean :=
    Inspector.clean_heading (by simp +decide)
  have hmuted : (Inspector.muted theme "No tokens.").Clean := Inspector.clean_muted h (by decide)
  have hitems : CleanAll (tokens.map (item theme)) :=
    cleanAll_map_iff.2 fun token _ => clean_item h token
  refine ⟨by decide, by simp +decide [h.each], hheading, ?_, trivial⟩
  split
  · exact hmuted
  · exact ⟨by decide, by simp +decide, hitems⟩

end TokenList

/-! ### The card -/

namespace AstPanel

theorem clean_switchButton (h : theme.PlainColors) (on mode : ViewMode) :
    (switchButton theme on mode).Clean := by
  have htoken : Plain mode.token := by cases mode <;> decide
  have hpressed : Plain (if mode = on then "true" else "false") := by split <;> decide
  unfold switchButton
  split
  next border background color hcolors =>
  have hplain : Plain border ∧ Plain background ∧ Plain color := by
    split at hcolors <;> cases hcolors <;> simp [h.each]
  simp +decide [Clean, CleanAll, clean_text, htoken, hpressed, hplain]

theorem clean_card (h : theme.PlainColors) {content : List Markup} (hcontent : CleanAll content) :
    (card theme content).Clean := by
  simp +decide [card, Clean, hcontent, h.each]

theorem clean_header {content : List Markup} (hcontent : CleanAll content) :
    (header content).Clean := by
  simp +decide [header, title, Clean, CleanAll, hcontent]

theorem clean_placeholder (h : theme.PlainColors) : (placeholder theme).Clean := by
  simp +decide [placeholder, Clean, CleanAll, h.each]

theorem clean_viewPane (h : theme.PlainColors) (mode : ViewMode) {view : Markup}
    (hview : view.Clean) : (viewPane theme mode view).Clean := by
  have htoken : Plain mode.token := by cases mode <;> decide
  simp +decide [viewPane, Clean, CleanAll, htoken, hview, h.each]

theorem clean_cardWith (h : theme.PlainColors) (mode : ViewMode) {view : Markup}
    (hview : view.Clean) (selected : Option AstNode) (tokens : List Token) :
    (cardWith theme mode view selected tokens).Clean := by
  have hbuttons : CleanAll (ViewMode.all.map (switchButton theme mode)) :=
    cleanAll_map_iff.2 fun other _ => clean_switchButton h mode other
  have hswitch : Clean (.element "div" [("style", "display:flex;gap:8px")]
      (ViewMode.all.map (switchButton theme mode))) := by
    simp +decide [Clean, hbuttons]
  have hheader : (header [.element "div" [("style", "display:flex;gap:8px")]
      (ViewMode.all.map (switchButton theme mode))]).Clean :=
    clean_header ⟨hswitch, trivial⟩
  refine clean_card h ?_
  simp +decide [Clean, CleanAll, hheader, clean_viewPane h mode hview,
    Inspector.clean_render h selected, TokenList.clean_render h tokens]

end AstPanel

/-! ### Runs -/

/-- What holds of the empty layout and of every layout of a tree holds of what is kept. -/
theorem Kept.layout_update {L : Type} {layoutOf : Ast → Except LayoutError L} {empty : L}
    {P : L → Prop} (hempty : P empty) (hof : ∀ ast layout, layoutOf ast = .ok layout → P layout)
    {k : Kept L} (hk : P k.layout) (next : Option Document) :
    P (k.update layoutOf empty next).1.layout := by
  rw [update]
  split
  · exact hk
  · cases next with
    | none => exact hempty
    | some d =>
      rw [fresh_some]
      cases hd : layoutOf d.ast with
      | ok layout => exact hof d.ast layout hd
      | error e => exact hempty

theorem BubbleView.plain_links_update (v : BubbleView) (next : Option Document)
    (h : ∀ l ∈ v.layout.links, Plain l.id) :
    ∀ l ∈ (v.update next).value.1.layout.links, Plain l.id := by
  have hkept : (v.update next).value.1.kept = _ := congrArg Prod.fst (v.update_kept next).1
  change ∀ l ∈ (v.update next).value.1.kept.layout.links, Plain l.id
  rw [hkept]
  have hempty : ∀ l ∈ (BubbleLayout.empty v.config).links, Plain l.id := by
    simp [BubbleLayout.empty]
  exact Kept.layout_update (P := fun layout : BubbleLayout => ∀ l ∈ layout.links, Plain l.id)
    hempty (fun _ _ => plain_links) h next

namespace AstPanel

/-- A panel with plain colours and plain names of links. -/
structure Tidy (p : AstPanel) : Prop where
  colors : p.theme.PlainColors
  links : ∀ l ∈ p.bubbles.layout.links, Plain l.id

section Tidy

variable (lib : FontLibrary) {p : AstPanel}

theorem tidy_new {config : Config} (h : config.theme.PlainColors) : (new config).Tidy :=
  ⟨h, by simp [new, BubbleView.new, BubbleLayout.empty]⟩

theorem Tidy.draw (h : p.Tidy) (document : Document) (selected : Option NodeId) :
    (p.draw lib document selected).value.1.Tidy
      ∧ ∀ view, (p.draw lib document selected).value.2 = .ok view → view.Clean := by
  cases hm : p.viewMode with
  | tree =>
    simp only [AstPanel.draw, hm]
    refine ⟨⟨h.colors, h.links⟩, fun view hview => ?_⟩
    obtain ⟨_, -, rfl⟩ := exists_of_map_eq_ok hview
    exact Drawing.clean_outline h.colors _ _ _
  | bubble =>
    have hlinks := p.bubbles.plain_links_update (some document) h.links
    simp only [AstPanel.draw, hm]
    refine ⟨⟨h.colors, hlinks⟩, fun view hview => ?_⟩
    obtain ⟨_, -, rfl⟩ := exists_of_map_eq_ok hview
    exact Drawing.clean_bubbles h.colors hlinks _

theorem Tidy.renderCard (h : p.Tidy) (document : Option Document) (selected : Option AstNode)
    (tokens : List Token) :
    (p.renderCard lib document selected tokens).value.1.Tidy
      ∧ ∀ card, (p.renderCard lib document selected tokens).value.2 = .ok card → card.Clean := by
  unfold AstPanel.renderCard
  cases shown? document with
  | none =>
    refine ⟨h, ?_⟩
    rintro _ ⟨⟩
    exact clean_card h.colors ⟨clean_header trivial, clean_placeholder h.colors, trivial⟩
  | some d =>
    obtain ⟨hpanel, hview⟩ := h.draw lib d (selected.bind AstNode.id)
    refine ⟨hpanel, fun card hcard => ?_⟩
    obtain ⟨view, hdrawn, rfl⟩ := exists_of_map_eq_ok hcard
    exact clean_cardWith h.colors p.viewMode (hview view hdrawn) selected tokens

theorem Tidy.step (h : p.Tidy) (s : PanelStep) : (p.step lib s).Tidy := by
  cases s with
  | setViewMode mode => exact ⟨h.colors, h.links⟩
  | toggle => exact ⟨h.colors, h.links⟩
  | render document selected tokens => exact (h.renderCard lib document selected tokens).1
  | click x y => exact h

theorem Tidy.after (h : p.Tidy) (steps : List PanelStep) : (p.after lib steps).Tidy := by
  induction steps generalizing p with
  | nil => exact h
  | cons s steps ih => exact ih (h.step lib s)

end Tidy

end AstPanel

/-! ### Palettes -/

/-- A palette keeps plain colours with any font. -/
theorem Theme.PlainColors.withFont (h : theme.PlainColors) (family : String) (size : Float32) :
    Theme.PlainColors { theme with fontFamily := family, fontSize := size } :=
  h

theorem plainColors_ofName? {name : String} (h : Theme.ofName? name = some theme) :
    theme.PlainColors := by
  unfold Theme.ofName? at h
  split at h <;> cases h
  · exact Theme.plainColors_explorer
  · exact Theme.plainColors_explorer
  · exact Theme.plainColors_explorer
  · exact Theme.plainColors_light
  · exact Theme.plainColors_light

theorem EmbedOptions.plainColors (options : EmbedOptions) :
    options.toRenderOptions.config.theme.PlainColors := by
  refine Theme.PlainColors.withFont ?_ _ _
  cases h : options.theme.bind Theme.ofName? with
  | none => exact Theme.plainColors_explorer
  | some theme =>
    obtain ⟨name, -, hname⟩ := Option.bind_eq_some_iff.1 h
    exact plainColors_ofName? hname

/-! ### What is read of the texts -/

/-- A text reads as a bubble graph: balanced, with a circle for each node and a line for each link,
and with the labels and the keys of the nodes in order. -/
def BubbleLayout.ReadFrom (layout : BubbleLayout) (s : String) : Prop :=
  ∃ ps, Piece.ofText s = some ps ∧ Piece.nested [] ps = true
    ∧ ps.countP (Piece.starts "circle") = layout.bubbles.size
    ∧ ps.countP (Piece.starts "line") = layout.links.length
    ∧ (Piece.contents "text" ps).map Piece.text? = layout.bubbles.toList.map (some ·.label)
    ∧ (Piece.values "data-key" ps).map unescaped = layout.bubbles.toList.map (·.key)

/-- A text reads as an outline: balanced, with a text for each row, a mark before some of them. -/
def Outline.ReadFrom (outline : Outline) (s : String) : Prop :=
  ∃ ps, Piece.ofText s = some ps ∧ Piece.nested [] ps = true
    ∧ ps.countP (Piece.starts "text") = outline.rows.size
    ∧ (Piece.contents "text" ps).map Piece.text?
      = outline.rows.toList.map fun r => some (Drawing.marker r ++ r.text)

theorem readFrom_bubbles (h : theme.PlainColors) {layout : BubbleLayout}
    (hlinks : ∀ l ∈ layout.links, Plain l.id) (selected : Option NodeId) (render : RenderConfig) :
    layout.ReadFrom (Drawing.bubbles layout selected theme render).write := by
  refine ⟨_, ofText_write (Drawing.clean_bubbles h hlinks selected), nested_nil_pieces _,
    Drawing.count_circles, Drawing.count_lines, ?_, ?_⟩
  · rw [contents_pieces_self, Drawing.texts_bubbles, List.map_map, List.map_map]
    refine List.map_congr_left fun b _ => ?_
    rw [Function.comp_apply, Function.comp_apply, text?_text]
  · rw [Drawing.keys_bubbles, List.map_map]
    refine List.map_congr_left fun b _ => ?_
    rw [Function.comp_apply, unescaped_escape]

theorem readFrom_outline (h : theme.PlainColors) (outline : Outline) (selected : Option NodeId)
    (fontSize : Float32) (render : RenderConfig) :
    outline.ReadFrom (Drawing.outline outline selected fontSize theme render).write := by
  refine ⟨_, ofText_write (Drawing.clean_outline h outline selected fontSize),
    nested_nil_pieces _, Drawing.count_texts, ?_⟩
  rw [contents_pieces_self, Drawing.texts_outline, List.map_map, List.map_map]
  refine List.map_congr_left fun r _ => ?_
  have hmarker : '&' ∉ (Drawing.marker r).toList := by
    unfold Drawing.marker
    split <;> decide
  rw [Function.comp_apply, Function.comp_apply, text?_data_text hmarker]

/-- With plain colours every drawing of a layout reads as that layout, whatever the labels and
identifiers of the tree are, and every card that a panel shows is balanced, whatever was done to the
panel before.  Both palettes have plain colours in any font, and nothing else can be embedded. -/
theorem markup_unbroken (lib : FontLibrary) :
    (∀ theme : Theme, theme.PlainColors →
      (∀ ast limits layout, (layoutBubbles ast limits).outcome.value = .ok layout →
        ∀ selected render, layout.ReadFrom (Drawing.bubbles layout selected theme render).write)
      ∧ (∀ ast tree limits family outline,
        (layoutOutline lib ast tree limits family).outcome.value = .ok outline →
        ∀ selected fontSize render,
          outline.ReadFrom (Drawing.outline outline selected fontSize theme render).write)
      ∧ ∀ config : Config, config.theme = theme → ∀ steps document selected tokens card,
        (((AstPanel.new config).after lib steps).renderCard lib document selected
          tokens).value.2 = .ok card → Balanced card.write)
    ∧ (∀ palette ∈ [Theme.explorer, Theme.light], ∀ family size,
        Theme.PlainColors { palette with fontFamily := family, fontSize := size })
    ∧ ∀ options : EmbedOptions, options.toRenderOptions.config.theme.PlainColors := by
  refine ⟨fun theme h => ⟨?_, ?_, ?_⟩, ?_, EmbedOptions.plainColors⟩
  · intro ast limits layout hlayout selected render
    exact readFrom_bubbles h (plain_links hlayout) selected render
  · intro _ _ _ _ outline _ selected fontSize render
    exact readFrom_outline h outline selected fontSize render
  · rintro config rfl steps document selected tokens card hcard
    have hpanel := (AstPanel.tidy_new h).after lib steps
    exact balanced_write ((hpanel.renderCard lib document selected tokens).2 card hcard)
  · simp only [List.forall_mem_cons]
    exact ⟨Theme.plainColors_explorer.withFont, Theme.plainColors_light.withFont, by simp⟩

/-- A tree whose label and identifier look like markup. -/
def taggedDocument : Document where
  stamp := 0
  ast := { nodes := #[{ id := some (.text "\"><line/>"), kind := some "</text>&lt;" }],
           root := some ⟨0⟩ }

theorem markup_unbroken_tagged :
    let ast := taggedDocument.ast
    let steps : List PanelStep := [.toggle, .render (some taggedDocument) none [], .toggle]
    let p := (AstPanel.new { theme := .light }).after .builtIn steps
    Theme.light.PlainColors
      ∧ (∃ layout, (layoutBubbles ast {}).outcome.value = .ok layout
        ∧ layout.bubbles.toList.map (·.label) = ["</text>&lt;"]
        ∧ layout.ReadFrom (Drawing.bubbles layout none .light {}).write)
      ∧ (∃ outline, (layoutOutline .builtIn ast {} {} "").outcome.value = .ok outline
        ∧ outline.rows.toList.map (·.text) = ["</text>&lt; #\"><line/>"]
        ∧ outline.ReadFrom (Drawing.outline outline none 12 .light {}).write)
      ∧ ∃ card, (p.renderCard .builtIn (some taggedDocument) ast.rootNode?
          [.ofText "<" "&"]).value.2 = .ok card ∧ Balanced card.write := by
  intro ast steps p
  have hvisits : preorder ast 512 100000 = .ok #[⟨⟨0⟩, 0, none⟩] := by
    decide +kernel
  have hshown : (p.renderCard .builtIn (some taggedDocument) ast.rootNode?
      [.ofText "<" "&"]).value.2.isOk = true := by
    decide +kernel
  obtain ⟨hbubbles, houtline, hcard⟩ := (markup_unbroken .builtIn).1 .light Theme.plainColors_light
  refine ⟨Theme.plainColors_light, ?_, ?_, ?_⟩
  · obtain ⟨layout, hlayout, hshows, -⟩ := @layoutBubbles_ok ast {} _ hvisits
    have hlabels := map_eq_map_of_forall₂ (f := Bubble.label)
      (g := fun v => (ast.get? v.node).elim "" AstNode.label) hshows (by
        rintro b v ⟨-, -, node, hnode, -, hlabel⟩
        rw [hlabel, hnode, Option.elim_some])
    exact ⟨layout, hlayout, hlabels, hbubbles ast {} layout hlayout none {}⟩
  · obtain ⟨outline, hrows, hshows⟩ := @layoutOutline_ok ast {} _ .builtIn {} "" hvisits
    have htexts := map_eq_map_of_forall₂ (f := OutlineRow.text)
      (g := fun v => (ast.get? v.node).elim "" fun node => rowText node.label node.id true)
      hshows (by
        rintro r v ⟨-, -, node, hnode, -, htext, -⟩
        rw [htext, hnode, Option.elim_some])
    exact ⟨outline, hrows, htexts.trans (by decide +kernel),
      houtline ast {} {} "" outline hrows none 12 {}⟩
  · obtain ⟨card, hok⟩ := exists_of_isOk hshown
    exact ⟨card, hok, hcard _ rfl steps _ _ _ card hok⟩

end TreeAtlas
