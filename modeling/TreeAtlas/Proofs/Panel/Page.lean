import TreeAtlas.Proofs.Ast.Identity
import TreeAtlas.Proofs.Drawing.Written
import TreeAtlas.Proofs.Except
import TreeAtlas.Proofs.Layout.Agreement
import TreeAtlas.Proofs.Panel.Runs
import TreeAtlas.Proofs.Panel.Warnings

/-!
# A page shows the drawing of its tree

A page is made by a new panel, and a drawing on its own without one.  Both lay out the tree in the
same way, so they fail together, and a panel that is new draws what is drawn from scratch.  The
page highlights the identifier of the node that was found for the selection, and the drawing the
selection itself.  A drawing asks its selection only about identifiers of nodes of the tree
(`ViewLayout.ids_of_layoutView`), and about those the two answer alike, so the drawings are one
(`drawTree_congr`).
-/

namespace TreeAtlas

/-- The options of a drawing that takes the width of what is around it. -/
def RenderOptions.fluid (options : RenderOptions) : RenderOptions :=
  let render := { options.config.render with fluidWidth := true }
  { options with config := { options.config with render } }

/-! ### Selections in drawings -/

section Selections

variable {s t : Option NodeId} {theme : Theme} {render : RenderConfig}

theorem Drawing.bubbles_congr {layout : BubbleLayout}
    (h : ∀ b ∈ layout.bubbles.toList, isSelected b.id s = isSelected b.id t) :
    bubbles layout s theme render = bubbles layout t theme render := by
  have hmap : layout.bubbles.toList.map (bubble theme s)
      = layout.bubbles.toList.map (bubble theme t) := by
    refine List.map_congr_left fun b hb => ?_
    rw [bubble, bubble, h b hb]
  rw [bubbles, bubbles, hmap]

theorem Drawing.outline_congr {layout : Outline} {fontSize : Float32}
    (h : ∀ r ∈ layout.rows.toList, isSelected r.id s = isSelected r.id t) :
    outline layout s fontSize theme render = outline layout t fontSize theme render := by
  have hmap : layout.rows.toList.map (row theme fontSize s)
      = layout.rows.toList.map (row theme fontSize t) := by
    refine List.map_congr_left fun r hr => ?_
    rw [row, row, h r hr]
  rw [outline, outline, hmap]

/-- The identifiers of what is drawn. -/
def ViewLayout.ids : ViewLayout → List (Option NodeId)
  | .bubbles layout => layout.bubbles.toList.map (·.id)
  | .outline layout => layout.rows.toList.map (·.id)

/-- The nodes of what is drawn, slot by slot. -/
def ViewLayout.nodes : ViewLayout → List NodeRef
  | .bubbles layout => layout.bubbles.toList.map (·.node)
  | .outline layout => layout.rows.toList.map (·.node)

def ViewLayout.view : ViewLayout → ViewMode
  | .bubbles _ => .bubble
  | .outline _ => .tree

theorem ViewLayout.draw_congr {layout : ViewLayout} {options : RenderOptions}
    (h : ∀ id ∈ layout.ids,
      Drawing.isSelected id s = Drawing.isSelected id options.selected) :
    layout.draw { options with selected := s } = layout.draw options := by
  cases layout with
  | bubbles layout => exact Drawing.bubbles_congr (List.forall_mem_map.1 h)
  | outline layout => exact Drawing.outline_congr (List.forall_mem_map.1 h)

end Selections

/-! ### Drawings of a tree -/

section Drawings

variable (lib : FontLibrary) (ast : Ast) (options : RenderOptions)

theorem value_layoutView :
    (layoutView lib ast options).outcome.value = match options.view with
      | .bubble => (options.config.bubblesOf ast).map .bubbles
      | .tree => (options.config.outlineOf lib ast).map .outline := by
  unfold layoutView
  cases options.view with
  | bubble =>
    simp only []
    rw [Attempt.value_bind]
    rfl
  | tree =>
    simp only []
    rw [Attempt.value_bind]
    rfl

theorem value_drawTree :
    (drawTree lib ast options).outcome.value
      = (layoutView lib ast options).outcome.value.map (·.draw options) := by
  rw [drawTree, Attempt.value_bind]
  rfl

/-- A tree that can be walked is laid out in either view, with a slot for each visit. -/
theorem layoutView_ok {visits : Array Visit}
    (h : preorder ast options.config.layout.maxDepth options.config.layout.maxNodes
      = .ok visits) :
    ∃ layout, (layoutView lib ast options).outcome.value = .ok layout
      ∧ layout.view = options.view ∧ layout.nodes = visits.toList.map Visit.node
      ∧ layout.ids = visits.toList.map fun v => (ast.get? v.node).bind AstNode.id := by
  rw [value_layoutView]
  cases options.view with
  | bubble =>
    obtain ⟨layout, hlayout, hshows, -⟩ := layoutBubbles_ok h
    exact ⟨.bubbles layout, congrArg (Except.map ViewLayout.bubbles) hlayout, rfl,
      map_eq_map_of_forall₂ hshows fun _ _ hb => hb.1,
      map_eq_map_of_forall₂ hshows fun _ _ hb => congrArg (·.2.1) hb.id_eq⟩
  | tree =>
    obtain ⟨outline, houtline, hshows⟩ := layoutOutline_ok lib options.config.tree
      options.config.theme.fontFamily h
    exact ⟨.outline outline, congrArg (Except.map ViewLayout.outline) houtline, rfl,
      map_eq_map_of_forall₂ hshows fun _ _ hr => hr.1,
      map_eq_map_of_forall₂ hshows fun _ _ hr => congrArg (·.2.1) hr.id_eq⟩

/-- Only a tree that can be walked is laid out. -/
theorem layoutView_error {e : LayoutError}
    (h : preorder ast options.config.layout.maxDepth options.config.layout.maxNodes
      = .error e) : (layoutView lib ast options).outcome.value = .error e := by
  have hbubbles : options.config.bubblesOf ast = .error e := layoutBubbles_error h
  have houtline : options.config.outlineOf lib ast = .error e := layoutOutline_error _ _ _ h
  rw [value_layoutView, hbubbles, houtline]
  cases options.view <;> rfl

section Visits

variable {lib ast options} {layout : ViewLayout}

/-- What is laid out has a slot for each visit of the walk. -/
theorem exists_visits_of_layoutView
    (h : (layoutView lib ast options).outcome.value = .ok layout) :
    ∃ visits, preorder ast options.config.layout.maxDepth options.config.layout.maxNodes
        = .ok visits
      ∧ layout.nodes = visits.toList.map Visit.node
      ∧ layout.ids = visits.toList.map fun v => (ast.get? v.node).bind AstNode.id := by
  cases hv : preorder ast options.config.layout.maxDepth options.config.layout.maxNodes with
  | error e =>
    rw [layoutView_error lib ast options hv] at h
    cases h
  | ok visits =>
    obtain ⟨_, hlayout, -, hnodes, hids⟩ := layoutView_ok lib ast options hv
    cases h.symm.trans hlayout
    exact ⟨visits, rfl, hnodes, hids⟩

/-- What is drawn are nodes of the tree. -/
theorem ViewLayout.ids_of_layoutView
    (h : (layoutView lib ast options).outcome.value = .ok layout) :
    ∀ id ∈ layout.ids, ∃ node ∈ ast.nodes, node.id = id := by
  obtain ⟨visits, hv, -, hids⟩ := exists_visits_of_layoutView h
  rw [hids]
  refine List.forall_mem_map.2 fun v hmem => ?_
  obtain ⟨node, hnode⟩ := Ast.contains_iff.1 (sound_of_preorder hv hmem).contains
  exact ⟨node, Array.mem_of_getElem? hnode, by rw [hnode]; rfl⟩

end Visits

/-- Selections that select the same nodes of a tree lead to one drawing. -/
theorem drawTree_congr {selected : Option NodeId}
    (h : ∀ node ∈ ast.nodes,
      Drawing.isSelected node.id selected = Drawing.isSelected node.id options.selected) :
    (drawTree lib ast { options with selected }).outcome.value
      = (drawTree lib ast options).outcome.value := by
  have hlayout : layoutView lib ast { options with selected } = layoutView lib ast options := rfl
  rw [value_drawTree, value_drawTree, hlayout]
  cases hl : (layoutView lib ast options).outcome.value with
  | error e => rfl
  | ok layout =>
    refine congrArg Except.ok (ViewLayout.draw_congr fun id hid => ?_)
    obtain ⟨node, hnode, rfl⟩ := ViewLayout.ids_of_layoutView hl id hid
    exact h node hnode

/-- A panel draws from scratch what is drawn on its own. -/
theorem freshDrawing_eq (selected : Option NodeId) :
    AstPanel.freshDrawing lib options.config options.view ⟨0, ast⟩ selected
      = (drawTree lib ast { options.fluid with selected }).outcome.value := by
  have hlayout : layoutView lib ast { options.fluid with selected } = layoutView lib ast options :=
    rfl
  rw [value_drawTree, hlayout, value_layoutView]
  cases hview : options.view with
  | bubble =>
    simp only [AstPanel.freshDrawing]
    cases options.config.bubblesOf ast <;> rfl
  | tree =>
    simp only [AstPanel.freshDrawing]
    cases options.config.outlineOf lib ast <;> rfl

end Drawings

/-! ### Pages -/

section Pages

variable (lib : FontLibrary) (ast : Ast) (tokens : List Token) (options : RenderOptions)

/-- The card of a page is rendered by a new panel, which is told the node that was found. -/
theorem value_renderTreeCard :
    (renderTreeCard lib ast tokens options).outcome.value
      = (((AstPanel.new options.config).setViewMode options.view).value.renderCard lib
          (some ⟨0, ast⟩) (selectedNode? ast options.selected) tokens).value.2 := by
  rw [renderTreeCard, Attempt.value_bind, Attempt.value_lift]
  simp only [Except.bind]
  split
  · rw [Attempt.value_bind, Attempt.value_log]
    simp only [Except.bind]
    rw [Attempt.value_bind, Attempt.value_lift]
    rfl
  · rw [Attempt.value_bind, Attempt.value_lift]
    rfl

/-- The card of a tree with a root is put around the drawing of the tree. -/
theorem value_renderTreeCard_of_root (hroot : ast.isEmpty = false) :
    (renderTreeCard lib ast tokens options).outcome.value
      = (drawTree lib ast options.fluid).outcome.value.map fun drawing =>
          AstPanel.cardWith options.config.theme options.view drawing
            (selectedNode? ast options.selected) tokens := by
  let p := ((AstPanel.new options.config).setViewMode options.view).value
  have hsettled : p.Settled lib options.config := AstPanel.settled_new.setViewMode options.view
  have hagrees : p.Agrees (some ⟨0, ast⟩) := by rintro (_ | _) d ⟨⟩
  have hshown : AstPanel.shown? (some ⟨0, ast⟩) = some ⟨0, ast⟩ :=
    AstPanel.shown?_eq_some_iff.2 ⟨rfl, hroot⟩
  have hcard := (hsettled.renderCard hagrees (selectedNode? ast options.selected) tokens).1
  have hfound : ∀ node ∈ ast.nodes,
      Drawing.isSelected node.id ((selectedNode? ast options.selected).bind AstNode.id)
        = Drawing.isSelected node.id options.fluid.selected :=
    fun _ => isSelected_found ast options.selected
  rw [value_renderTreeCard, hcard, AstPanel.freshCard, hshown]
  simp only []
  rw [show p.viewMode = options.view from rfl, freshDrawing_eq, drawTree_congr lib ast _ hfound]

/-- The element that a panel puts around its drawing. -/
def treePane (name : String) (attributes : List Attribute) : Bool :=
  name == "div" && attributes.contains ("class", "tree-pane")

/-- The element that a panel puts around the side pane. -/
def inspectorPane (name : String) (attributes : List Attribute) : Bool :=
  name == "div" && attributes.contains ("class", "inspector-pane")

section Panes

variable {wanted : String → List Attribute → Bool}

/-- Only elements of a card that are around its parts are wanted. -/
def OnlyPanes (wanted : String → List Attribute → Bool) : Prop :=
  ∀ name attributes, ("class", "tree-pane") ∉ attributes →
    ("class", "inspector-pane") ∉ attributes → wanted name attributes = false

theorem onlyPanes_treePane : OnlyPanes treePane := by
  intro name attributes h _
  simp [treePane, h]

theorem onlyPanes_inspectorPane : OnlyPanes inspectorPane := by
  intro name attributes _ h
  simp [inspectorPane, h]

theorem contents_inspector (h : OnlyPanes wanted) (theme : Theme) (node : Option AstNode) :
    (Inspector.render theme node).contents wanted = [] := by
  have hrow : ∀ p : String × String, (Inspector.row theme p.1 p.2).contents wanted = [] := by
    simp [Inspector.row, Markup.text, Markup.contents, Markup.contentsOfAll, h _ _]
  cases node with
  | none =>
    simp [Inspector.render, Inspector.heading, Inspector.muted, Markup.contents,
      Markup.contentsOfAll, h _ _]
  | some node =>
    simp [Inspector.render, Inspector.heading, Markup.contents, Markup.contentsOfAll,
      Markup.contentsOfAll_map hrow, h _ _]

theorem contents_tokens (h : OnlyPanes wanted) (theme : Theme) :
    (TokenList.render theme tokens).contents wanted = [] := by
  have hitem : ∀ t, (TokenList.item theme t).contents wanted = [] := by
    intro t
    unfold TokenList.item
    split <;> simp [TokenList.position, Markup.text, Markup.contents, Markup.contentsOfAll,
      h _ _]
  unfold TokenList.render
  split <;> simp [Inspector.heading, Inspector.muted, Markup.contents, Markup.contentsOfAll,
    Markup.contentsOfAll_map hitem, h _ _]

theorem contents_switchButton (h : OnlyPanes wanted) (theme : Theme) (on mode : ViewMode) :
    (AstPanel.switchButton theme on mode).contents wanted = [] := by
  simp [AstPanel.switchButton, Markup.text, Markup.contents, Markup.contentsOfAll, h _ _]

end Panes

/-- A card around a drawing has one tree pane, with the drawing in it. -/
theorem treePane_cardWith (theme : Theme) (mode : ViewMode) {view : Markup}
    (hview : view.contents treePane = []) (node : Option AstNode) :
    (AstPanel.cardWith theme mode view node tokens).contents treePane = [[view]] := by
  have h := onlyPanes_treePane
  simp [AstPanel.cardWith, AstPanel.card, AstPanel.header, AstPanel.title, AstPanel.viewPane,
    Markup.contents, Markup.contentsOfAll,
    Markup.contentsOfAll_map (contents_switchButton h theme mode), hview,
    contents_inspector h, contents_tokens tokens h, treePane]

/-- The side pane of a card shows the node that it was given, and then the tokens. -/
theorem inspectorPane_cardWith (theme : Theme) (mode : ViewMode) {view : Markup}
    (hview : view.contents inspectorPane = []) (node : Option AstNode) :
    (AstPanel.cardWith theme mode view node tokens).contents inspectorPane
      = [[Inspector.render theme node, TokenList.render theme tokens]] := by
  have h := onlyPanes_inspectorPane
  simp [AstPanel.cardWith, AstPanel.card, AstPanel.header, AstPanel.title, AstPanel.viewPane,
    Markup.contents, Markup.contentsOfAll,
    Markup.contentsOfAll_map (contents_switchButton h theme mode), hview,
    contents_inspector h, contents_tokens tokens h, inspectorPane]

theorem contents_draw {wanted : String → List Attribute → Bool}
    (h : ∀ name ∈ ["svg", "g", "text"], ∀ attributes, wanted name attributes = false)
    (layout : ViewLayout) : (layout.draw options).contents wanted = [] := by
  cases layout with
  | bubbles layout => exact Drawing.contents_bubbles h
  | outline layout => exact Drawing.contents_outline h

theorem value_renderTreePage_of_root (hroot : ast.isEmpty = false) :
    (renderTreePage lib ast tokens options).outcome.value
      = (drawTree lib ast options.fluid).outcome.value.map fun drawing =>
          renderPage options.config.theme pageTitle
            (AstPanel.cardWith options.config.theme options.view drawing
              (selectedNode? ast options.selected) tokens).write := by
  rw [renderTreePage, Attempt.value_bind, value_renderTreeCard_of_root lib ast tokens options hroot]
  cases (drawTree lib ast options.fluid).outcome.value <;> rfl

/-- Options that only draw the layout in another way fail in the same way. -/
theorem map_unit_drawTree :
    (drawTree lib ast options).outcome.value.map (fun _ => ())
      = (layoutView lib ast options).outcome.value.map fun _ => () := by
  rw [value_drawTree]
  cases (layoutView lib ast options).outcome.value <;> rfl

/-- The tree pane of a card is written in the text of a page. -/
theorem exists_treePane_of_page {card drawing : Markup}
    (h : card.contents treePane = [[drawing]]) (theme : Theme) (title : String) :
    ∃ attributes before after, ("class", "tree-pane") ∈ attributes
      ∧ renderPage theme title card.write
        = before ++ Markup.writeAttributes "<div" attributes ++ ">" ++ drawing.write ++ "</div>"
          ++ after := by
  have hmem : [drawing] ∈ card.contents treePane := by simp [h]
  obtain ⟨name, attributes, before, after, hpane, hwrite⟩ :=
    Markup.exists_write_of_mem_contents hmem
  simp only [treePane, Bool.and_eq_true, beq_iff_eq, List.contains_iff_mem] at hpane
  obtain ⟨rfl, hclass⟩ := hpane
  obtain ⟨head, tail, hpage⟩ : ∃ head tail, ∀ content,
      renderPage theme title content = head ++ content ++ tail := ⟨_, _, fun _ => rfl⟩
  refine ⟨attributes, head ++ before, after ++ tail, hclass, ?_⟩
  rw [hpage, hwrite, Markup.write_element_singleton]
  simp only [String.append_assoc]
  rfl

theorem map_unit_renderTreePage (hroot : ast.isEmpty = false) :
    (renderTreePage lib ast tokens options).outcome.value.map (fun _ => ())
      = (drawTree lib ast options).outcome.value.map fun _ => () := by
  have hlayout : layoutView lib ast options.fluid = layoutView lib ast options := rfl
  rw [map_unit_drawTree, ← hlayout, ← map_unit_drawTree,
    value_renderTreePage_of_root lib ast tokens options hroot]
  cases (drawTree lib ast options.fluid).outcome.value <;> rfl

/-- What stands in the tree pane of a page is the drawing on its own. -/
theorem exists_drawing_of_page (hroot : ast.isEmpty = false) {text : String}
    (h : (renderTreePage lib ast tokens options).outcome.value = .ok text) :
    ∃ card drawing : Markup, text = renderPage options.config.theme pageTitle card.write
      ∧ (drawTree lib ast options.fluid).outcome.value = .ok drawing
      ∧ card.contents treePane = [[drawing]] := by
  rw [value_renderTreePage_of_root lib ast tokens options hroot] at h
  obtain ⟨drawing, hdrawing, rfl⟩ := exists_of_map_eq_ok h
  have hpane : drawing.contents treePane = [] := by
    rw [value_drawTree] at hdrawing
    obtain ⟨layout, -, rfl⟩ := exists_of_map_eq_ok hdrawing
    exact contents_draw options.fluid (by simp [treePane]) layout
  exact ⟨_, drawing, rfl, hdrawing, treePane_cardWith tokens _ _ hpane _⟩

/-! ### Selections with and without node -/

section Selected

variable {ast options} {id : NodeId}

theorem selectedNode?_of_lost (h : ∀ node ∈ ast.nodes, node.id.any (· == id) = false) :
    selectedNode? ast (some id) = none := by
  rw [selectedNode?, Option.bind_some, Ast.findById?_eq_none_iff.2 h, Option.bind_none]

theorem selectedNode?_of_node {node : AstNode} (hnode : node ∈ ast.nodes)
    (h : node.id.any (· == id) = true) : (selectedNode? ast (some id)).isSome = true := by
  rw [selectedNode?, Option.bind_some]
  cases hr : ast.findById? id with
  | none =>
    rw [Ast.findById?_eq_none_iff.1 hr node hnode] at h
    cases h
  | some r =>
    obtain ⟨found, hfound, -⟩ := Ast.get?_of_findById? hr
    rw [Option.bind_some, hfound]
    rfl

theorem warnings_page_of_node
    (h : ∀ id ∈ options.selected, ∃ node ∈ ast.nodes, node.id.any (· == id) = true) :
    warnings (renderTreePage lib ast tokens options).outcome.lines = [] := by
  rw [warnings_page]
  refine if_neg ?_
  cases hs : options.selected with
  | none => exact Bool.false_ne_true
  | some id =>
    obtain ⟨node, hmem, hany⟩ := h id hs
    simp [Option.isNone_eq_false_iff.2 (selectedNode?_of_node hmem hany)]

theorem warnings_page_of_lost (hid : options.selected = some id)
    (h : ∀ node ∈ ast.nodes, node.id.any (· == id) = false) :
    warnings (renderTreePage lib ast tokens options).outcome.lines = [noSelectionLine] := by
  rw [warnings_page, hid, selectedNode?_of_lost h]
  rfl

/-- A selection that no node has is none for a drawing. -/
theorem drawTree_of_lost (hid : options.selected = some id)
    (h : ∀ node ∈ ast.nodes, node.id.any (· == id) = false) :
    (drawTree lib ast options).outcome.value
      = (drawTree lib ast { options with selected := none }).outcome.value := by
  refine (drawTree_congr lib ast options fun node hnode => ?_).symm
  rw [hid, isSelected_none, isSelected_some, h node hnode]

end Selected

/-- A page fails as the drawing of its tree does, and else shows that drawing.  What is highlighted
is the same whether the selection is looked for in the tree or not, and a selection that no node has
highlights nothing and is warned of once. -/
theorem page_shows_drawing (hroot : ast.isEmpty = false) :
    let page := (renderTreePage lib ast tokens options).outcome
    let found := (selectedNode? ast options.selected).bind AstNode.id
    (page.value.map (fun _ => ())
        = (drawTree lib ast options).outcome.value.map fun _ => ())
      ∧ (∀ text, page.value = .ok text → ∃ card drawing : Markup,
        text = renderPage options.config.theme pageTitle card.write
          ∧ (drawTree lib ast options.fluid).outcome.value = .ok drawing
          ∧ card.contents treePane = [[drawing]]
          ∧ ∃ attributes before after, ("class", "tree-pane") ∈ attributes
            ∧ text = before ++ Markup.writeAttributes "<div" attributes ++ ">" ++ drawing.write
              ++ "</div>" ++ after)
      ∧ (∀ node ∈ ast.nodes,
        Drawing.isSelected node.id found = Drawing.isSelected node.id options.selected)
      ∧ ((∀ id ∈ options.selected, ∃ node ∈ ast.nodes, node.id.any (· == id) = true) →
        warnings page.lines = [])
      ∧ ∀ id ∈ options.selected, (∀ node ∈ ast.nodes, node.id.any (· == id) = false) →
        found = none
          ∧ (∀ o ∈ [options, options.fluid], (drawTree lib ast o).outcome.value
            = (drawTree lib ast { o with selected := none }).outcome.value)
          ∧ warnings page.lines = [noSelectionLine] := by
  intro page found
  refine ⟨map_unit_renderTreePage lib ast tokens options hroot, fun text htext => ?_,
    fun _ => isSelected_found ast options.selected, warnings_page_of_node lib tokens,
    fun id hid hlost => ⟨?_, fun o ho => ?_, warnings_page_of_lost lib tokens hid hlost⟩⟩
  · obtain ⟨card, drawing, rfl, hdrawing, hcard⟩ :=
      exists_drawing_of_page lib ast tokens options hroot htext
    exact ⟨card, drawing, rfl, hdrawing, hcard, exists_treePane_of_page hcard _ _⟩
  · have hfound : selectedNode? ast options.selected = none := by
      rw [show options.selected = some id from hid, selectedNode?_of_lost hlost]
    rw [show found = (selectedNode? ast options.selected).bind AstNode.id from rfl, hfound,
      Option.bind_none]
  · rcases List.mem_pair.1 ho with rfl | rfl
    · exact drawTree_of_lost lib hid hlost
    · exact drawTree_of_lost lib hid hlost

end Pages

/-- Two nodes have one identifier, and another one was selected. -/
theorem page_shows_drawing_lost :
    let node : AstNode := { id := some (.text "a"), shape := .children [⟨1⟩] }
    let ast : Ast := { nodes := #[node, { node with shape := .leaf }], root := some ⟨0⟩ }
    let options : RenderOptions := { selected := some (.text "b") }
    let page := (renderTreePage .builtIn ast [] options).outcome
    ast.isEmpty = false
      ∧ (∃ text, page.value = .ok text ∧ ∃ card drawing : Markup,
        text = renderPage .explorer pageTitle card.write
          ∧ (drawTree .builtIn ast options.fluid).outcome.value = .ok drawing
          ∧ card.contents treePane = [[drawing]])
      ∧ (drawTree .builtIn ast options).outcome.value = (drawTree .builtIn ast {}).outcome.value
      ∧ warnings page.lines = [noSelectionLine] := by
  intro node ast options page
  obtain ⟨-, hshown, -, -, hlost⟩ := page_shows_drawing .builtIn ast [] options rfl
  obtain ⟨-, hdrawn, hwarned⟩ := hlost (.text "b") rfl (by decide)
  have hok : page.value.isOk = true := by
    decide +kernel
  obtain ⟨text, htext⟩ := exists_of_isOk hok
  obtain ⟨card, drawing, hpage, hdrawing, hcard, -⟩ := hshown text htext
  exact ⟨rfl, ⟨text, htext, card, drawing, hpage, hdrawing, hcard⟩, hdrawn options (by simp),
    hwarned⟩

end TreeAtlas
