import TreeAtlas.Proofs.Layout.Links
import TreeAtlas.Proofs.Panel.Runs

/-!
# What a click reports

A click asks the view of the mode that is on: it takes the first entry of the kept layout that
contains the point, the outline from the top and the bubble graph from the circle drawn last, and
reports the node of that entry as it stands in the document that the layout belongs to.  The two
belong together in every run, so an entry always has a node (`Resolves`).

What a view holds is what the last rendering in its mode was given, if that could be shown
(`Recalls`).  Renderings in the other mode do not reach it, and neither do those of the placeholder.
-/

namespace TreeAtlas

/-! ### Entries and their nodes -/

section Entries

variable {lib : FontLibrary} {ast : Ast} {config : Config}

theorem layoutOutline_shows {tree : TreeConfig} {limits : LayoutConfig} {family : String}
    {outline : Outline}
    (h : (layoutOutline lib ast tree limits family).outcome.value = .ok outline) :
    ∃ visits, List.Forall₂ (OutlineRow.Shows ast tree.showIds) outline.rows.toList visits := by
  cases hp : preorder ast limits.maxDepth limits.maxNodes with
  | error e =>
    rw [layoutOutline_error lib tree family hp] at h
    cases h
  | ok visits =>
    obtain ⟨outline', houtline, hrows⟩ := layoutOutline_ok lib tree family hp
    rw [h] at houtline
    cases houtline
    exact ⟨_, hrows⟩

theorem exists_node_of_row {outline : Outline} (h : config.outlineOf lib ast = .ok outline) :
    ∀ row ∈ outline.rows.toList, ∃ n, ast.get? row.node = some n := by
  intro row hrow
  obtain ⟨visits, hshows⟩ := layoutOutline_shows h
  obtain ⟨i, hi⟩ := List.getElem?_of_mem hrow
  obtain ⟨v, -, hnode, -, n, hn, -⟩ := exists_of_forall₂ hshows hi
  exact ⟨n, by rw [hnode, hn]⟩

theorem exists_node_of_bubble {layout : BubbleLayout} (h : config.bubblesOf ast = .ok layout) :
    ∀ b ∈ layout.bubbles.toList, ∃ n, ast.get? b.node = some n := by
  intro b hb
  obtain ⟨f, -, hshows, -⟩ := layoutBubbles_shows h
  obtain ⟨i, hi⟩ := List.getElem?_of_mem hb
  obtain ⟨v, -, hnode, -, n, hn, -⟩ := exists_of_forall₂ hshows hi
  exact ⟨n, by rw [hnode, hn]⟩

variable {β : Type} {entries : List β} {node : β → NodeRef} {here : β → Bool}

/-- The node of the first entry that is here. -/
def pick? (ast : Ast) (entries : List β) (node : β → NodeRef) (here : β → Bool) :
    Option (NodeRef × AstNode) := do
  let e ← entries.find? here
  let n ← ast.get? (node e)
  return (node e, n)

/-- An answer that is the node of the first of the entries that is here, if any is. -/
structure Picks (ast : Ast) (entries : List β) (node : β → NodeRef) (here : β → Bool)
    (answer : Option (NodeRef × AstNode)) : Prop where
  isSome_iff : answer.isSome = true ↔ ∃ e ∈ entries, here e = true
  first : ∀ r n, answer = some (r, n) → ∃ before e after, entries = before ++ e :: after
    ∧ here e = true ∧ (∀ a ∈ before, here a = false) ∧ r = node e ∧ ast.get? r = some n

theorem picks_pick? (h : ∀ e ∈ entries, ∃ n, ast.get? (node e) = some n) :
    Picks ast entries node here (pick? ast entries node here) := by
  unfold pick?
  cases hf : entries.find? here with
  | none =>
    rw [List.find?_eq_none] at hf
    exact ⟨by simpa using hf, by rintro r n ⟨⟩⟩
  | some e =>
    obtain ⟨he, before, after, hsplit, hbefore⟩ := List.find?_eq_some_iff_append.1 hf
    have hmem := List.mem_of_find?_eq_some hf
    obtain ⟨n, hn⟩ := h e hmem
    simp only [Option.bind_eq_bind, Option.bind_some, hn]
    refine ⟨by simpa using ⟨e, hmem, he⟩, ?_⟩
    rintro r n' ⟨⟩
    exact ⟨before, e, after, hsplit, he, by simpa using hbefore, rfl, hn⟩

theorem get?_of_pick? {r : NodeRef} {n : AstNode}
    (h : pick? ast entries node here = some (r, n)) : ast.get? r = some n := by
  simp only [pick?, Option.bind_eq_bind, Option.bind_eq_some_iff, Option.pure_def,
    Option.some.injEq, Prod.mk.injEq] at h
  obtain ⟨e, -, n', hn, rfl, rfl⟩ := h
  exact hn

theorem OutlineView.click?_eq (v : OutlineView) (x y : Float32) :
    v.click? x y = v.document.bind fun d =>
      pick? d.ast v.layout.rows.toList OutlineRow.node (·.contains x y) := by
  simp only [OutlineView.click?, Outline.rowAt?, pick?, Array.find?_toList, Option.bind_eq_bind]

theorem BubbleView.click?_eq (v : BubbleView) (x y : Float32) :
    v.click? x y = v.document.bind fun d =>
      pick? d.ast v.layout.bubbles.toList.reverse Bubble.node (·.contains x y) := rfl

end Entries

namespace AstPanel

/-! ### Clicks after a rendering -/

section AfterRendering

variable (lib : FontLibrary) (config : Config)

/-- What a click at a point reports where a document was laid out from scratch. -/
def PicksFresh (mode : ViewMode) (document : Document) (x y : Float32)
    (answer : Option (NodeRef × AstNode)) : Prop :=
  match mode with
  | .tree => ∃ outline, config.outlineOf lib document.ast = .ok outline
      ∧ Picks document.ast outline.rows.toList OutlineRow.node (·.contains x y) answer
  | .bubble => ∃ layout, config.bubblesOf document.ast = .ok layout
      ∧ Picks document.ast layout.bubbles.toList.reverse Bubble.node (·.contains x y) answer

/-- Every entry of a kept layout has a node in the document kept with it. -/
structure Resolves (p : AstPanel) : Prop where
  outline : ∀ d, p.outline.document = some d →
    ∀ row ∈ p.outline.layout.rows.toList, ∃ n, d.ast.get? row.node = some n
  bubbles : ∀ d, p.bubbles.document = some d →
    ∀ b ∈ p.bubbles.layout.bubbles.toList, ∃ n, d.ast.get? b.node = some n

variable {lib config} {p : AstPanel}

theorem Settled.resolves (h : p.Settled lib config) : p.Resolves := by
  constructor
  · intro d hd
    have hcurrent := h.outline
    rw [Kept.Current, OutlineView.kept, hd] at hcurrent
    exact exists_node_of_row hcurrent
  · intro d hd
    have hcurrent := h.bubbles
    rw [Kept.Current, BubbleView.kept, hd] at hcurrent
    exact exists_node_of_bubble hcurrent

/-- A click on what was shown finds the entry in a layout from scratch, or nothing. -/
theorem Settled.click_renderCard (h : p.Settled lib config) {d : Document}
    (hroot : d.ast.isEmpty = false) (ha : p.Agrees (some d)) (selected : Option AstNode)
    (tokens : List Token) (x y : Float32) :
    (∀ card, (p.renderCard lib (some d) selected tokens).value.2 = .ok card →
        PicksFresh lib config p.viewMode d x y
          ((p.renderCard lib (some d) selected tokens).value.1.click? x y))
      ∧ ∀ e, (p.renderCard lib (some d) selected tokens).value.2 = .error e →
        (p.renderCard lib (some d) selected tokens).value.1.click? x y = none := by
  unfold AstPanel.renderCard
  rw [shown?_eq_some_iff.2 ⟨rfl, hroot⟩]
  cases hm : p.viewMode with
  | tree =>
    obtain ⟨v, hdraw, hkept, -⟩ := h.draw_tree hm ha (selected.bind AstNode.id)
    simp only [hdraw, freshDrawing, click?, hm, v.click?_eq]
    cases ho : config.outlineOf lib d.ast with
    | error e =>
      rw [ho] at hkept
      have hdocument : v.document = none := congrArg Kept.document hkept
      rw [hdocument]
      exact ⟨by rintro card ⟨⟩, fun _ _ => rfl⟩
    | ok outline =>
      rw [ho] at hkept
      have hdocument : v.document = some d := congrArg Kept.document hkept
      have hlayout : v.layout = outline := congrArg Kept.layout hkept
      rw [hdocument, hlayout]
      exact ⟨fun _ _ => ⟨_, ho, picks_pick? (exists_node_of_row ho)⟩, by rintro e ⟨⟩⟩
  | bubble =>
    obtain ⟨v, hdraw, hkept, -⟩ := h.draw_bubble hm ha (selected.bind AstNode.id)
    simp only [hdraw, freshDrawing, click?, hm, v.click?_eq]
    cases hb : config.bubblesOf d.ast with
    | error e =>
      rw [hb] at hkept
      have hdocument : v.document = none := congrArg Kept.document hkept
      rw [hdocument]
      exact ⟨by rintro card ⟨⟩, fun _ _ => rfl⟩
    | ok layout =>
      rw [hb] at hkept
      have hdocument : v.document = some d := congrArg Kept.document hkept
      have hlayout : v.layout = layout := congrArg Kept.layout hkept
      rw [hdocument, hlayout]
      refine ⟨fun _ _ => ⟨_, hb, picks_pick? fun b hmem => ?_⟩, by rintro e ⟨⟩⟩
      exact exists_node_of_bubble hb b (List.mem_reverse.1 hmem)

end AfterRendering

end AstPanel

/-- After any run, a click on what was just shown reports the entry that a layout from scratch has
there, a click on what could not be shown reports nothing, and no entry is without a node. -/
theorem click_after_render (lib : FontLibrary) (config : Config) (steps : List PanelStep)
    (document : Document) (selected : Option AstNode) (tokens : List Token) (x y : Float32)
    (hroot : document.ast.isEmpty = false)
    (h : (AstPanel.new config).KeepsStamps lib
      (steps ++ [.render (some document) selected tokens])) :
    let p := (AstPanel.new config).after lib steps
    let shown := (p.renderCard lib (some document) selected tokens).value
    (∀ card, shown.2 = .ok card →
        AstPanel.PicksFresh lib config p.viewMode document x y (shown.1.click? x y))
      ∧ (∀ e, shown.2 = .error e → shown.1.click? x y = none)
      ∧ p.Resolves ∧ shown.1.Resolves := by
  intro p shown
  obtain ⟨hsteps, hnext⟩ := AstPanel.keepsStamps_append.1 h
  have hrun : p.Settled lib config := AstPanel.settled_new.after hsteps
  have hshown : shown.1.Settled lib config := (hrun.renderCard hnext selected tokens).2
  obtain ⟨hok, herror⟩ := hrun.click_renderCard hroot hnext selected tokens x y
  exact ⟨hok, herror, hrun.resolves, hshown.resolves⟩

/-- Another document was shown as a graph before, and then none. -/
theorem click_after_render_other :
    let steps : List PanelStep :=
      [.setViewMode .bubble, .render (some (leafDocument 0 "a")) none [], .render none none [],
        .toggle]
    let next := leafDocument 1 "b"
    let p := (AstPanel.new {}).after .builtIn steps
    let shown := (p.renderCard .builtIn (some next) none []).value
    next.ast.isEmpty = false
      ∧ (AstPanel.new {}).KeepsStamps .builtIn (steps ++ [.render (some next) none []])
      ∧ (∀ card, shown.2 = .ok card →
        AstPanel.PicksFresh .builtIn {} p.viewMode next 20 20 (shown.1.click? 20 20))
      ∧ (∀ e, shown.2 = .error e → shown.1.click? 20 20 = none)
      ∧ p.Resolves ∧ shown.1.Resolves := by
  intro steps next p shown
  have h : (AstPanel.new {}).KeepsStamps .builtIn (steps ++ [.render (some next) none []]) :=
    keepsStamps_samples (by simp [steps, next, samples, PanelStep.given])
  exact ⟨rfl, h, click_after_render .builtIn {} steps next none [] 20 20 rfl h⟩

namespace AstPanel

/-! ### Clicks at any time -/

/-- The mode after a step. -/
def modeAfter (mode : ViewMode) : PanelStep → ViewMode
  | .setViewMode next => next
  | .toggle => mode.other
  | .render _ _ _ | .click _ _ => mode

/-- The renderings of a run, each with its mode. -/
def renderings : ViewMode → List PanelStep → List (ViewMode × Option Document)
  | _, [] => []
  | mode, s :: steps => renderedIn mode s ++ renderings (modeAfter mode s) steps
where
  renderedIn (mode : ViewMode) : PanelStep → List (ViewMode × Option Document)
    | .render document _ _ => [(mode, document)]
    | .setViewMode _ | .toggle | .click _ _ => []

/-- What the last rendering in a mode was given. -/
def lastGiven (mode : ViewMode) (rs : List (ViewMode × Option Document)) :
    Option (Option Document) :=
  rs.reverse.lookup mode

/-- A view that holds a document holds what the last rendering in its mode was given, if that had
anything to draw. -/
def Recalls (rs : List (ViewMode × Option Document)) (p : AstPanel) : Prop :=
  ∀ mode, ∀ d ∈ p.documentIn mode, ∃ given, lastGiven mode rs = some given
    ∧ ∀ e ∈ shown? given, e = d

section AnyTime

variable {lib : FontLibrary} {config : Config} {p : AstPanel}

@[simp] theorem lastGiven_append_singleton (mode m : ViewMode) (document : Option Document)
    (rs : List (ViewMode × Option Document)) :
    lastGiven mode (rs ++ [(m, document)])
      = if mode = m then some document else lastGiven mode rs := by
  rw [lastGiven, List.reverse_append, List.reverse_singleton, List.singleton_append,
    List.lookup_cons]
  split <;> simp_all [lastGiven]

theorem viewMode_step (s : PanelStep) : (p.step lib s).viewMode = modeAfter p.viewMode s := by
  cases s with
  | setViewMode _ => rfl
  | toggle => rfl
  | click _ _ => rfl
  | render document selected tokens =>
    simp only [step, renderCard, modeAfter]
    cases shown? document with
    | none => rfl
    | some d =>
      cases hm : p.viewMode <;> simp only [draw, hm]

/-- After a rendering the view of its mode holds what was given, and all else stays. -/
theorem Settled.documentIn_renderCard (h : p.Settled lib config) {document : Option Document}
    (ha : p.Agrees document) (selected : Option AstNode) (tokens : List Token)
    (mode : ViewMode) :
    ∀ d ∈ (p.renderCard lib document selected tokens).value.1.documentIn mode,
      (mode = p.viewMode ∧ shown? document = some d)
        ∨ (d ∈ p.documentIn mode ∧ (mode = p.viewMode → shown? document = none)) := by
  intro d hd
  unfold AstPanel.renderCard at hd
  cases hs : shown? document with
  | none =>
    rw [hs] at hd
    exact .inr ⟨hd, fun _ => rfl⟩
  | some e =>
    obtain ⟨rfl, -⟩ := shown?_eq_some_iff.1 hs
    rw [hs] at hd
    cases hm : p.viewMode with
    | tree =>
      obtain ⟨v, hdraw, hkept, -⟩ := h.draw_tree hm ha (selected.bind AstNode.id)
      simp only [hdraw] at hd
      cases mode with
      | bubble => exact .inr ⟨hd, by rintro ⟨⟩⟩
      | tree =>
        have hd : v.kept.document = some d := hd
        rw [hkept] at hd
        exact .inl ⟨rfl, congrArg some (Kept.document_settle hd)⟩
    | bubble =>
      obtain ⟨v, hdraw, hkept, -⟩ := h.draw_bubble hm ha (selected.bind AstNode.id)
      simp only [hdraw] at hd
      cases mode with
      | tree => exact .inr ⟨hd, by rintro ⟨⟩⟩
      | bubble =>
        have hd : v.kept.document = some d := hd
        rw [hkept] at hd
        exact .inl ⟨rfl, congrArg some (Kept.document_settle hd)⟩

theorem Recalls.step {rs : List (ViewMode × Option Document)} (hr : Recalls rs p)
    (h : p.Settled lib config) {s : PanelStep} (ha : p.Agrees s.given) :
    Recalls (rs ++ renderings.renderedIn p.viewMode s) (p.step lib s) := by
  cases s with
  | setViewMode next => rw [renderings.renderedIn, List.append_nil]; exact hr
  | toggle => rw [renderings.renderedIn, List.append_nil]; exact hr
  | click x y => rw [renderings.renderedIn, List.append_nil]; exact hr
  | render document selected tokens =>
    intro mode d hd
    rw [renderings.renderedIn, lastGiven_append_singleton]
    have ha : p.Agrees document := ha
    rcases h.documentIn_renderCard ha selected tokens mode d hd with ⟨rfl, hs⟩ | ⟨hheld, hs⟩
    · refine ⟨document, if_pos rfl, fun e he => ?_⟩
      exact Option.some.inj ((Option.mem_def.1 he).symm.trans hs)
    · by_cases hm : mode = p.viewMode
      · exact ⟨document, if_pos hm, by simp [hs hm]⟩
      · rw [if_neg hm]
        exact hr mode d hheld

theorem Recalls.after {rs : List (ViewMode × Option Document)} (hr : Recalls rs p)
    (h : p.Settled lib config) {steps : List PanelStep} (hk : p.KeepsStamps lib steps) :
    Recalls (rs ++ renderings p.viewMode steps) (p.after lib steps) := by
  induction steps generalizing rs p with
  | nil => simpa [renderings] using hr
  | cons s steps ih =>
    have := ih (hr.step h hk.1) (h.step hk.1) hk.2
    rwa [List.append_assoc, viewMode_step] at this

theorem recalls_new : Recalls [] (new config) := by
  rintro (_ | _) d ⟨⟩

/-- What a click reports is a node of the document that the view of the mode holds. -/
theorem exists_document_of_click {x y : Float32} {r : NodeRef} {node : AstNode}
    (hit : p.click? x y = some (r, node)) :
    ∃ d, p.documentIn p.viewMode = some d ∧ d.ast.get? r = some node := by
  unfold click? at hit
  cases hm : p.viewMode with
  | tree =>
    rw [hm, p.outline.click?_eq, Option.bind_eq_some_iff] at hit
    obtain ⟨d, hd, hpick⟩ := hit
    exact ⟨d, hd, get?_of_pick? hpick⟩
  | bubble =>
    rw [hm, p.bubbles.click?_eq, Option.bind_eq_some_iff] at hit
    obtain ⟨d, hd, hpick⟩ := hit
    exact ⟨d, hd, get?_of_pick? hpick⟩

end AnyTime

end AstPanel

/-- In any run, a click that hits comes after a rendering in the mode that is on, and the node is
one of the document that the last of these was given, if that had anything to draw. -/
theorem click_reports_last (lib : FontLibrary) (config : Config) (steps : List PanelStep)
    (x y : Float32) (r : NodeRef) (node : AstNode)
    (h : (AstPanel.new config).KeepsStamps lib steps)
    (hit : ((AstPanel.new config).after lib steps).click? x y = some (r, node)) :
    let p := (AstPanel.new config).after lib steps
    ∃ given, AstPanel.lastGiven p.viewMode
          (AstPanel.renderings (AstPanel.new config).viewMode steps) = some given
      ∧ ∀ d, given = some d → d.ast.isEmpty = false →
        p.documentIn p.viewMode = some d ∧ d.ast.get? r = some node := by
  intro p
  obtain ⟨held, hheld, hnode⟩ := AstPanel.exists_document_of_click hit
  obtain ⟨given, hlast, hgiven⟩ :=
    AstPanel.recalls_new.after AstPanel.settled_new h p.viewMode held hheld
  refine ⟨given, hlast, fun d hd hroot => ?_⟩
  obtain rfl : d = held := hgiven d (AstPanel.shown?_eq_some_iff.2 ⟨hd, hroot⟩)
  exact ⟨hheld, hnode⟩

/-- One document is shown as an outline and another one as a graph, and the outline comes back. -/
def twoViews : List PanelStep :=
  [.render (some (leafDocument 0 "a")) none [], .toggle,
    .render (some (leafDocument 1 "b")) none [], .toggle]

/-- A document is shown, and then the placeholder. -/
def thenNone : List PanelStep :=
  [.render (some (leafDocument 0 "a")) none [], .render none none []]

theorem click_twoViews : ∃ node : AstNode, node.kind = some "a"
    ∧ ((AstPanel.new {}).after .builtIn twoViews).click? 20 20 = some (⟨0⟩, node) := by
  have h : (((AstPanel.new {}).after .builtIn twoViews).click? 20 20).map
      (fun hit => (hit.1, hit.2.kind)) = some (⟨0⟩, some "a") := by
    decide +kernel
  obtain ⟨⟨r, node⟩, hclick, hr⟩ := Option.map_eq_some_iff.1 h
  obtain ⟨rfl, hkind⟩ := Prod.mk.inj hr
  exact ⟨node, hkind, hclick⟩

/-- The outline that comes back is that of the first document. -/
theorem click_reports_last_outline :
    let p := (AstPanel.new {}).after .builtIn twoViews
    (AstPanel.new {}).KeepsStamps .builtIn twoViews
      ∧ ∃ r node, p.click? 20 20 = some (r, node)
        ∧ ∃ given, AstPanel.lastGiven p.viewMode
            (AstPanel.renderings (AstPanel.new {}).viewMode twoViews) = some given
          ∧ ∀ d, given = some d → d.ast.isEmpty = false →
            p.documentIn p.viewMode = some d ∧ d.ast.get? r = some node := by
  intro p
  have h : (AstPanel.new {}).KeepsStamps .builtIn twoViews :=
    keepsStamps_samples (by simp [twoViews, samples, PanelStep.given])
  obtain ⟨node, -, hit⟩ := click_twoViews
  exact ⟨h, ⟨0⟩, node, hit, click_reports_last .builtIn {} twoViews 20 20 ⟨0⟩ node h hit⟩

/-- The last rendering of all need not be the one that a click reports a node of, and a placeholder
does not take the clicks away. -/
theorem click_reports_earlier :
    let p := (AstPanel.new {}).after .builtIn twoViews
    let q := (AstPanel.new {}).after .builtIn thenNone
    ((AstPanel.new {}).KeepsStamps .builtIn twoViews
        ∧ (AstPanel.renderings (AstPanel.new {}).viewMode twoViews).getLast?
          = some (.bubble, some (leafDocument 1 "b"))
        ∧ ∃ node, p.click? 20 20 = some (⟨0⟩, node)
          ∧ (leafDocument 1 "b").ast.get? ⟨0⟩ ≠ some node
          ∧ p.documentIn p.viewMode ≠ some (leafDocument 1 "b"))
      ∧ (AstPanel.new {}).KeepsStamps .builtIn thenNone
      ∧ (AstPanel.renderings (AstPanel.new {}).viewMode thenNone).getLast? = some (.tree, none)
      ∧ (q.click? 20 20).isSome = true := by
  constructor
  · obtain ⟨node, hkind, hit⟩ := click_twoViews
    have hnode : (leafDocument 1 "b").ast.get? ⟨0⟩ ≠ some node := by
      intro hb
      have hb : some (some "b") = some node.kind := congrArg (Option.map AstNode.kind) hb
      simp [hkind] at hb
    obtain ⟨d, hheld, hget⟩ := AstPanel.exists_document_of_click hit
    refine ⟨keepsStamps_samples (by simp [twoViews, samples, PanelStep.given]), rfl, node, hit,
      hnode, ?_⟩
    intro hb
    obtain rfl : d = leafDocument 1 "b" := Option.some.inj (hheld.symm.trans hb)
    exact hnode hget
  · refine ⟨keepsStamps_samples (by simp [thenNone, samples, PanelStep.given]), rfl, ?_⟩
    decide +kernel

end TreeAtlas
