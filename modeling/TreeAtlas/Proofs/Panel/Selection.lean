import TreeAtlas.Proofs.Drawing.Slots
import TreeAtlas.Proofs.Panel.Clicks
import TreeAtlas.Proofs.Panel.Page

/-!
# Selections carry over between the views

Both views have a slot for each visit of the walk (`layoutView_ok`), and a drawing marks a slot
exactly if the node of the visit has the selected identifier (`slots_draw`), so both mark the same
slots of a tree.  A click that hits reports a node that the walk visits
(`Settled.exists_visit_of_click`), and an identifier is always equal to itself.  So the slot that
was hit is marked when its node is selected, unless the node has no identifier, and then nothing is.
-/

namespace TreeAtlas

/-- Whether the node at a reference shares its identifier with another one.  A node without an
identifier shares none. -/
def Ast.sharesId (ast : Ast) (node : AstNode) (r : NodeRef) : Bool :=
  (ast.get? r).any fun other => other.id.any fun i => node.id.any fun j => i == j

/-! ### Identifiers -/

theorem isSelected_id (ast : Ast) (node : AstNode) (r : NodeRef) :
    Drawing.isSelected ((ast.get? r).bind AstNode.id) node.id = ast.sharesId node r := by
  unfold Ast.sharesId
  cases ast.get? r with
  | none => cases node.id <;> rfl
  | some other =>
    simp only [Option.bind_some, Option.any_some]
    cases other.id <;> cases node.id <;> rfl

theorem Ast.sharesId_self {ast : Ast} {node : AstNode} {r : NodeRef}
    (h : ast.get? r = some node) (hid : node.id.isSome = true) : ast.sharesId node r = true := by
  obtain ⟨i, hi⟩ := Option.isSome_iff_exists.1 hid
  simp [sharesId, h, hi]

theorem Ast.sharesId_none (ast : Ast) {node : AstNode} (h : node.id = none) (r : NodeRef) :
    ast.sharesId node r = false := by
  simp [sharesId, h]

/-! ### Slots of layouts -/

/-- A drawing has a slot for each node of the layout, marked if its identifier is selected. -/
theorem slots_draw (layout : ViewLayout) (options : RenderOptions) :
    Drawing.slots layout.view (layout.draw options)
      = List.zipWith (fun r id => (some (toString r.index), Drawing.isSelected id options.selected))
        layout.nodes layout.ids := by
  cases layout with
  | bubbles layout =>
    rw [ViewLayout.view, ViewLayout.draw, Drawing.slots_bubbles, ViewLayout.nodes, ViewLayout.ids,
      List.zipWith_map, List.zipWith_self]
  | outline layout =>
    rw [ViewLayout.view, ViewLayout.draw, Drawing.slots_outline, ViewLayout.nodes, ViewLayout.ids,
      List.zipWith_map, List.zipWith_self]

theorem isEmpty_of_visited {ast : Ast} {visits : Array Visit} {maxDepth maxNodes : Nat}
    (h : preorder ast maxDepth maxNodes = .ok visits) {r : NodeRef}
    (hr : r ∈ visits.toList.map Visit.node) : ast.isEmpty = false := by
  obtain ⟨f, hf, -, -, hvisits⟩ := preorder_ok h
  cases hroot : ast.root with
  | some root => simp [Ast.isEmpty, hroot]
  | none =>
    rw [hroot] at hf
    cases hf
    rw [hvisits] at hr
    cases hr

/-! ### What was hit -/

theorem mem_of_pick? {β : Type} {ast : Ast} {entries : List β} {node : β → NodeRef}
    {here : β → Bool} {r : NodeRef} {n : AstNode}
    (h : pick? ast entries node here = some (r, n)) : r ∈ entries.map node := by
  simp only [pick?, Option.bind_eq_bind, Option.bind_eq_some_iff, Option.pure_def,
    Option.some.injEq, Prod.mk.injEq] at h
  obtain ⟨e, he, n', -, rfl, -⟩ := h
  exact List.mem_map_of_mem (List.mem_of_find?_eq_some he)

namespace AstPanel

variable {lib : FontLibrary} {config : Config} {p : AstPanel}

/-- A click that hits reports a node that the walk of the held tree visits. -/
theorem Settled.exists_visit_of_click (h : p.Settled lib config) {x y : Float32} {r : NodeRef}
    {node : AstNode} (hit : p.click? x y = some (r, node)) :
    ∃ d visits, p.documentIn p.viewMode = some d ∧ d.ast.get? r = some node
      ∧ preorder d.ast config.layout.maxDepth config.layout.maxNodes = .ok visits
      ∧ r ∈ visits.toList.map Visit.node := by
  unfold click? at hit
  cases hm : p.viewMode with
  | tree =>
    rw [hm, p.outline.click?_eq, Option.bind_eq_some_iff] at hit
    obtain ⟨d, hd, hpick⟩ := hit
    have hcurrent := h.outline
    rw [Kept.Current, OutlineView.kept, hd] at hcurrent
    have hlayout : (layoutView lib d.ast { config, view := .tree }).outcome.value
        = .ok (.outline p.outline.layout) := by
      rw [value_layoutView]
      exact congrArg (Except.map _) hcurrent
    obtain ⟨visits, hv, hnodes, -⟩ := exists_visits_of_layoutView hlayout
    exact ⟨d, visits, hd, get?_of_pick? hpick, hv, hnodes ▸ mem_of_pick? hpick⟩
  | bubble =>
    rw [hm, p.bubbles.click?_eq, Option.bind_eq_some_iff] at hit
    obtain ⟨d, hd, hpick⟩ := hit
    have hcurrent := h.bubbles
    rw [Kept.Current, BubbleView.kept, hd] at hcurrent
    have hlayout : (layoutView lib d.ast { config, view := .bubble }).outcome.value
        = .ok (.bubbles p.bubbles.layout) := by
      rw [value_layoutView]
      exact congrArg (Except.map _) hcurrent
    obtain ⟨visits, hv, hnodes, -⟩ := exists_visits_of_layoutView hlayout
    have hmem := mem_of_pick? hpick
    rw [List.map_reverse, List.mem_reverse] at hmem
    exact ⟨d, visits, hd, get?_of_pick? hpick, hv, hnodes ▸ hmem⟩

/-- A rendering with a selected node marks the slots of the nodes that share its identifier, and
shows the node in the side pane. -/
theorem Settled.exists_card (h : p.Settled lib config) {d : Document} {visits : Array Visit}
    (hv : preorder d.ast config.layout.maxDepth config.layout.maxNodes = .ok visits)
    (hroot : d.ast.isEmpty = false) (ha : p.Agrees (some d)) (node : AstNode)
    (tokens : List Token) :
    ∃ card drawing, (p.renderCard lib (some d) (some node) tokens).value.2 = .ok card
      ∧ card.contents treePane = [[drawing]]
      ∧ Drawing.slots p.viewMode drawing = (visits.toList.map Visit.node).map
        (fun s => (some (toString s.index), d.ast.sharesId node s))
      ∧ card.contents inspectorPane = [[Inspector.render config.theme (some node),
        TokenList.render config.theme tokens]] := by
  let options : RenderOptions := { config, view := p.viewMode, selected := node.id }
  obtain ⟨layout, hlayout, hview, hnodes, hids⟩ := layoutView_ok lib d.ast options.fluid hv
  have hdrawing : freshDrawing lib config p.viewMode d node.id
      = .ok (layout.draw options.fluid) := by
    have hfresh : freshDrawing lib config p.viewMode d node.id
        = freshDrawing lib config p.viewMode ⟨0, d.ast⟩ node.id := by
      cases p.viewMode <;> rfl
    have hdrawn := freshDrawing_eq lib d.ast options node.id
    rw [value_drawTree] at hdrawn
    rw [hfresh, hdrawn]
    exact congrArg (Except.map _) hlayout
  have hcard := (h.renderCard ha (some node) tokens).1
  rw [freshCard, shown?_eq_some_iff.2 ⟨rfl, hroot⟩] at hcard
  simp only [Option.bind_some, hdrawing] at hcard
  refine ⟨_, _, hcard, treePane_cardWith tokens _ _ ?_ _, ?_,
    inspectorPane_cardWith tokens _ _ ?_ _⟩
  · exact contents_draw options.fluid (by simp [treePane]) layout
  · rw [show p.viewMode = options.fluid.view from rfl, ← hview, slots_draw, hnodes, hids,
      List.zipWith_map, List.zipWith_self, List.map_map]
    refine List.map_congr_left fun v _ => ?_
    rw [Function.comp_apply, ← isSelected_id]
    rfl
  · exact contents_draw options.fluid (by simp [inspectorPane]) layout

end AstPanel

/-- What a click reports can be selected in both views: they mark the same slots, those of the nodes
that share the identifier of the node, and show the node in the side pane.  The slot that was hit is
marked if the node has an identifier, and no slot is marked if it has none. -/
theorem selection_carries_over (lib : FontLibrary) (config : Config) (steps : List PanelStep)
    (x y : Float32) (r : NodeRef) (node : AstNode)
    (h : (AstPanel.new config).KeepsStamps lib steps)
    (hit : ((AstPanel.new config).after lib steps).click? x y = some (r, node)) :
    let p := (AstPanel.new config).after lib steps
    ∃ d slots, p.documentIn p.viewMode = some d ∧ d.ast.get? r = some node
      ∧ (∀ view, (layoutView lib d.ast { config, view }).outcome.value.map ViewLayout.nodes
        = .ok slots)
      ∧ r ∈ slots ∧ (node.id.isSome = true → d.ast.sharesId node r = true)
      ∧ (node.id = none → ∀ s, d.ast.sharesId node s = false)
      ∧ ∀ more tokens, p.KeepsStamps lib (more ++ [.render (some d) (some node) tokens]) →
        let q := p.after lib more
        ∃ card drawing, (q.renderCard lib (some d) (some node) tokens).value.2 = .ok card
          ∧ card.contents treePane = [[drawing]]
          ∧ Drawing.slots q.viewMode drawing
            = slots.map (fun s => (some (toString s.index), d.ast.sharesId node s))
          ∧ card.contents inspectorPane = [[Inspector.render config.theme (some node),
            TokenList.render config.theme tokens]] := by
  intro p
  have hp : p.Settled lib config := AstPanel.settled_new.after h
  obtain ⟨d, visits, hheld, hnode, hv, hr⟩ := hp.exists_visit_of_click hit
  refine ⟨d, visits.toList.map Visit.node, hheld, hnode, fun view => ?_, hr,
    Ast.sharesId_self hnode, d.ast.sharesId_none, fun more tokens hmore => ?_⟩
  · obtain ⟨layout, hlayout, -, hnodes, -⟩ := layoutView_ok lib d.ast { config, view } hv
    rw [hlayout, ← hnodes]
    rfl
  · obtain ⟨hsteps, hnext⟩ := AstPanel.keepsStamps_append.1 hmore
    exact (hp.after hsteps).exists_card hv (isEmpty_of_visited hv hr) hnext node tokens

/-- Two nodes whose identifiers are empty texts, one of them at two places. -/
def twins : Document where
  stamp := 0
  ast :=
    { nodes := #[{ shape := .children [⟨1⟩, ⟨2⟩, ⟨1⟩] }, { id := some (.text "") },
        { id := some (.text "") }]
      root := some ⟨0⟩ }

/-- One twin is hit in the outline, and the bubble graph marks all places of both. -/
theorem selection_carries_over_twins :
    let steps : List PanelStep := [.render (some twins) none []]
    let p := (AstPanel.new {}).after .builtIn steps
    (AstPanel.new {}).KeepsStamps .builtIn steps
      ∧ ∃ node, p.click? 40 70 = some (⟨2⟩, node)
        ∧ p.KeepsStamps .builtIn [.toggle, .render (some twins) (some node) []]
        ∧ ∃ card drawing, ((p.after .builtIn [.toggle]).renderCard .builtIn (some twins)
            (some node) []).value.2 = .ok card
          ∧ card.contents treePane = [[drawing]]
          ∧ Drawing.slots .bubble drawing
            = [(some "0", false), (some "1", true), (some "2", true), (some "1", true)]
          ∧ card.contents inspectorPane = [[Inspector.render .explorer (some node),
            TokenList.render .explorer []]] := by
  intro steps p
  have hshelf : ∀ d ∈ [twins], ∀ e ∈ [twins], d.stamp = e.stamp → d = e := by
    simp
  have h : (AstPanel.new {}).KeepsStamps .builtIn steps :=
    AstPanel.keepsStamps_of_shelf hshelf (by rintro (_ | _) d ⟨⟩) (by simp [steps, PanelStep.given])
  have hheld : ∀ mode, ∀ d ∈ p.documentIn mode, d ∈ [twins] := by
    intro mode d hd
    rcases AstPanel.documentIn_step (.render (some twins) none []) mode d hd with hd | hd
    · cases mode <;> cases hd
    · cases hd
      exact List.mem_singleton_self twins
  have hclick : (p.click? 40 70).map Prod.fst = some ⟨2⟩ := by
    decide +kernel
  obtain ⟨⟨_, node⟩, hit, rfl⟩ := Option.map_eq_some_iff.1 hclick
  have hmore : p.KeepsStamps .builtIn [.toggle, .render (some twins) (some node) []] :=
    AstPanel.keepsStamps_of_shelf hshelf hheld (by simp [PanelStep.given])
  obtain ⟨d, slots, hd, hnode, hslots, -, -, -, hshown⟩ :=
    selection_carries_over .builtIn {} steps 40 70 ⟨2⟩ node h hit
  obtain rfl : d = twins := List.mem_singleton.1 (hheld _ d hd)
  have hfour : ((layoutView .builtIn twins.ast {}).outcome.value.map
      ViewLayout.nodes).toOption = some [⟨0⟩, ⟨1⟩, ⟨2⟩, ⟨1⟩] := by
    decide +kernel
  rw [hslots .tree] at hfour
  obtain rfl : slots = _ := Option.some.inj hfour
  obtain ⟨card, drawing, hcard, hdrawing, hmarks, hpane⟩ := hshown [.toggle] [] hmore
  refine ⟨h, node, hit, hmore, card, drawing, hcard, hdrawing, hmarks.trans ?_, hpane⟩
  obtain rfl : _ = node := Option.some.inj hnode
  decide +kernel

end TreeAtlas
