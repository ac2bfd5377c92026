import TreeAtlas.Panel.Basic
import TreeAtlas.Proofs.Panel.Views

/-!
# Runs of a panel

A panel goes through mode changes, renderings and clicks in any order (`PanelStep`).  Only a
rendering in a mode reaches the view of that mode, and it leaves the view current or empties it, so
each view stays current for the settings the panel was made with (`Settled`).  What a rendering
shows is then told by the mode and the document alone (`Settled.renderCard`).

Documents are told apart by their stamps.  A run keeps the stamps if no rendering is given a
document with the stamp of another one that a view still holds.  That is so where no stamp is given
to two documents (`keepsStamps_of_shelf`), and where one is given again after it was let go.
-/

namespace TreeAtlas

/-- What is done to a panel. -/
inductive PanelStep where
  | setViewMode (mode : ViewMode)
  | toggle
  | render (document : Option Document) (selected : Option AstNode) (tokens : List Token)
  | click (x y : Float32)

/-- The document that a step brings to the panel. -/
def PanelStep.given : PanelStep → Option Document
  | .render document _ _ => document
  | _ => none

/-- The outline of a tree with the settings of a configuration. -/
def Config.outlineOf (lib : FontLibrary) (config : Config) (ast : Ast) :
    Except LayoutError Outline :=
  (layoutOutline lib ast config.tree config.layout config.theme.fontFamily).outcome.value

/-- The bubble graph of a tree with the settings of a configuration. -/
def Config.bubblesOf (config : Config) (ast : Ast) : Except LayoutError BubbleLayout :=
  (layoutBubbles ast config.layout).outcome.value

namespace AstPanel

/-! ### Runs -/

section Runs

variable (lib : FontLibrary)

/-- The panel after a step.  A click reads the panel and leaves it as it is. -/
def step (p : AstPanel) : PanelStep → AstPanel
  | .setViewMode mode => (p.setViewMode mode).value
  | .toggle => p.toggle.value
  | .render document selected tokens => (p.renderCard lib document selected tokens).value.1
  | .click _ _ => p

def after (p : AstPanel) (steps : List PanelStep) : AstPanel :=
  steps.foldl (step lib) p

@[simp] theorem after_nil (p : AstPanel) : p.after lib [] = p := rfl

@[simp] theorem after_cons (p : AstPanel) (s : PanelStep) (steps : List PanelStep) :
    p.after lib (s :: steps) = (p.step lib s).after lib steps := rfl

/-- The document that the view of a mode holds. -/
def documentIn (p : AstPanel) : ViewMode → Option Document
  | .tree => p.outline.document
  | .bubble => p.bubbles.document

/-- A document agrees with those that are held. -/
def Agrees (p : AstPanel) (next : Option Document) : Prop :=
  ∀ mode, Document.Agree (p.documentIn mode) next

/-- Every document agrees with those that are held when it comes. -/
def KeepsStamps : AstPanel → List PanelStep → Prop
  | _, [] => True
  | p, s :: steps => p.Agrees s.given ∧ KeepsStamps (p.step lib s) steps

end Runs

/-! ### Current panels -/

section Settled

variable (lib : FontLibrary) (config : Config)

/-- A panel with the settings of a configuration whose views are current. -/
structure Settled (p : AstPanel) : Prop where
  theme : p.theme = config.theme
  render : p.render = (new config).render
  tree : p.outline.config = config.tree
  limits : p.outline.limits = config.layout
  layout : p.bubbles.config = config.layout
  outline : p.outline.kept.Current (config.outlineOf lib) (.empty config.tree)
  bubbles : p.bubbles.kept.Current config.bubblesOf (.empty config.layout)

/-- A document drawn from scratch. -/
def freshDrawing (mode : ViewMode) (document : Document) (selected : Option NodeId) :
    Except LayoutError Markup :=
  match mode with
  | .tree => (config.outlineOf lib document.ast).map fun outline =>
      Drawing.outline outline selected config.tree.fontSize config.theme (new config).render
  | .bubble => (config.bubblesOf document.ast).map fun layout =>
      Drawing.bubbles layout selected config.theme (new config).render

/-- A card rendered from scratch. -/
def freshCard (mode : ViewMode) (document : Option Document) (selected : Option AstNode)
    (tokens : List Token) : Except LayoutError Markup :=
  match shown? document with
  | none => .ok (card config.theme [header [], placeholder config.theme])
  | some d => (freshDrawing lib config mode d (selected.bind AstNode.id)).map fun view =>
      cardWith config.theme mode view selected tokens

variable {lib config} {p : AstPanel} {d : Document}

theorem settled_new : (new config).Settled lib config :=
  ⟨rfl, rfl, rfl, rfl, rfl, rfl, rfl⟩

theorem Settled.setViewMode (h : p.Settled lib config) (mode : ViewMode) :
    (p.setViewMode mode).value.Settled lib config :=
  ⟨h.theme, h.render, h.tree, h.limits, h.layout, h.outline, h.bubbles⟩

/-- In the tree mode a document settles in the outline and is drawn from there. -/
theorem Settled.draw_tree (h : p.Settled lib config) (hm : p.viewMode = .tree)
    (ha : p.Agrees (some d)) (selected : Option NodeId) :
    ∃ v, (p.draw lib d selected).value
        = ({ p with outline := v }, freshDrawing lib config .tree d selected)
      ∧ v.kept = .settle (.empty config.tree) (some d) (config.outlineOf lib d.ast)
      ∧ v.config = config.tree ∧ v.limits = config.layout := by
  have hupdate := p.outline.update_kept lib (some d) config.theme.fontFamily
  have houtline : (fun ast => (layoutOutline lib ast config.tree config.layout
      config.theme.fontFamily).outcome.value) = config.outlineOf lib := rfl
  rw [h.tree, h.limits, houtline, Kept.update_eq h.outline (ha .tree), Kept.fresh_some,
    Prod.mk.injEq] at hupdate
  simp only [draw, hm, h.theme, h.render, freshDrawing]
  generalize (p.outline.update lib (some d) config.theme.fontFamily).value = u at hupdate ⊢
  obtain ⟨⟨hkept, hresult⟩, hconfig, hlimits⟩ := hupdate
  refine ⟨u.1, ?_, hkept, hconfig, hlimits⟩
  rw [hresult]
  cases ho : config.outlineOf lib d.ast with
  | error e => simp only [Except.map]
  | ok outline =>
    rw [ho] at hkept
    have hlayout : u.1.layout = outline := congrArg Kept.layout hkept
    simp only [Except.map, OutlineView.render, hlayout, hconfig]

/-- In the bubble mode a document settles in the bubble graph and is drawn from there. -/
theorem Settled.draw_bubble (h : p.Settled lib config) (hm : p.viewMode = .bubble)
    (ha : p.Agrees (some d)) (selected : Option NodeId) :
    ∃ v, (p.draw lib d selected).value
        = ({ p with bubbles := v }, freshDrawing lib config .bubble d selected)
      ∧ v.kept = .settle (.empty config.layout) (some d) (config.bubblesOf d.ast)
      ∧ v.config = config.layout := by
  have hupdate := p.bubbles.update_kept (some d)
  have hbubbles : (fun ast => (layoutBubbles ast config.layout).outcome.value)
      = config.bubblesOf := rfl
  rw [h.layout, hbubbles, Kept.update_eq h.bubbles (ha .bubble), Kept.fresh_some,
    Prod.mk.injEq] at hupdate
  simp only [draw, hm, h.theme, h.render, freshDrawing]
  generalize (p.bubbles.update (some d)).value = u at hupdate ⊢
  obtain ⟨⟨hkept, hresult⟩, hconfig⟩ := hupdate
  refine ⟨u.1, ?_, hkept, hconfig⟩
  rw [hresult]
  cases hb : config.bubblesOf d.ast with
  | error e => simp only [Except.map]
  | ok layout =>
    rw [hb] at hkept
    have hlayout : u.1.layout = layout := congrArg Kept.layout hkept
    simp only [Except.map, BubbleView.render, hlayout]

theorem shown?_eq_some_iff {document : Option Document} :
    shown? document = some d ↔ document = some d ∧ d.ast.isEmpty = false := by
  simp [shown?, Option.filter_eq_some_iff]

/-- A rendering shows the card made from scratch and leaves the panel settled. -/
theorem Settled.renderCard (h : p.Settled lib config) {document : Option Document}
    (ha : p.Agrees document) (selected : Option AstNode) (tokens : List Token) :
    (p.renderCard lib document selected tokens).value.2
        = freshCard lib config p.viewMode document selected tokens
      ∧ (p.renderCard lib document selected tokens).value.1.Settled lib config := by
  unfold AstPanel.renderCard freshCard
  cases hs : shown? document with
  | none =>
    simp only [h.theme]
    exact ⟨trivial, h⟩
  | some d =>
    obtain ⟨rfl, -⟩ := shown?_eq_some_iff.1 hs
    cases hm : p.viewMode with
    | tree =>
      obtain ⟨v, hdraw, hkept, hconfig, hlimits⟩ := h.draw_tree hm ha (selected.bind AstNode.id)
      simp only [hdraw]
      refine ⟨by rw [h.theme],
        ⟨h.theme, h.render, hconfig, hlimits, h.layout, ?_, h.bubbles⟩⟩
      rw [hkept]
      exact Kept.current_settle (some d)
    | bubble =>
      obtain ⟨v, hdraw, hkept, hconfig⟩ := h.draw_bubble hm ha (selected.bind AstNode.id)
      simp only [hdraw]
      refine ⟨by rw [h.theme],
        ⟨h.theme, h.render, h.tree, h.limits, hconfig, h.outline, ?_⟩⟩
      rw [hkept]
      exact Kept.current_settle (some d)

theorem Settled.step (h : p.Settled lib config) {s : PanelStep} (ha : p.Agrees s.given) :
    (p.step lib s).Settled lib config := by
  cases s with
  | setViewMode mode => exact h.setViewMode mode
  | toggle => exact h.setViewMode p.viewMode.other
  | render document selected tokens => exact (h.renderCard ha selected tokens).2
  | click x y => exact h

theorem Settled.after (h : p.Settled lib config) {steps : List PanelStep}
    (hk : p.KeepsStamps lib steps) : (p.after lib steps).Settled lib config := by
  induction steps generalizing p with
  | nil => exact h
  | cons s steps ih => exact ih (h.step hk.1) hk.2

end Settled

/-! ### Stamps -/

section Stamps

variable {lib : FontLibrary} {p : AstPanel} {shelf : List Document}

/-- What is held after a step was held before or came with the step. -/
theorem documentIn_step (s : PanelStep) (mode : ViewMode) :
    ∀ d ∈ (p.step lib s).documentIn mode, d ∈ p.documentIn mode ∨ d ∈ s.given := by
  intro d hd
  cases s with
  | setViewMode _ => cases mode <;> exact .inl hd
  | toggle => cases mode <;> exact .inl hd
  | click _ _ => exact .inl hd
  | render document selected tokens =>
    simp only [step, renderCard] at hd
    cases hs : shown? document with
    | none =>
      rw [hs] at hd
      exact .inl hd
    | some e =>
      obtain ⟨rfl, -⟩ := shown?_eq_some_iff.1 hs
      rw [hs] at hd
      simp only [draw] at hd
      cases hm : p.viewMode <;> rw [hm] at hd <;> cases mode
      · exact p.outline.document_update lib _ _ d hd
      · exact .inl hd
      · exact .inl hd
      · exact p.bubbles.document_update _ d hd

theorem keepsStamps_append {steps : List PanelStep} {s : PanelStep} :
    p.KeepsStamps lib (steps ++ [s])
      ↔ p.KeepsStamps lib steps ∧ (p.after lib steps).Agrees s.given := by
  induction steps generalizing p with
  | nil => simp [KeepsStamps]
  | cons t steps ih => simp only [List.cons_append, KeepsStamps, ih, after_cons, and_assoc]

/-- Stamps are kept where all documents come from a shelf with no stamp on two of them. -/
theorem keepsStamps_of_shelf (hshelf : ∀ d ∈ shelf, ∀ e ∈ shelf, d.stamp = e.stamp → d = e)
    (hp : ∀ mode, ∀ d ∈ p.documentIn mode, d ∈ shelf) {steps : List PanelStep}
    (hsteps : ∀ s ∈ steps, ∀ d ∈ s.given, d ∈ shelf) : p.KeepsStamps lib steps := by
  induction steps generalizing p with
  | nil => trivial
  | cons s steps ih =>
    have hs := hsteps s List.mem_cons_self
    refine ⟨fun mode d hd e he => hshelf d (hp mode d hd) e (hs e he), ih (fun mode d hd => ?_)
      fun t ht => hsteps t (List.mem_cons_of_mem _ ht)⟩
    exact (documentIn_step s mode d hd).elim (hp mode d) (hs d)

end Stamps

end AstPanel

/-! ### Samples -/

/-- A document of one node. -/
def leafDocument (stamp : Nat) (kind : String) : Document where
  stamp
  ast := { nodes := #[{ kind := some kind }], root := some ⟨0⟩ }

/-- A document that cannot be laid out. -/
def loopDocument (stamp : Nat) : Document where
  stamp
  ast := { nodes := #[{ shape := .children [⟨0⟩] }], root := some ⟨0⟩ }

def samples : List Document :=
  [leafDocument 0 "a", leafDocument 1 "b", loopDocument 2]

theorem keepsStamps_samples {steps : List PanelStep}
    (h : ∀ s ∈ steps, ∀ d ∈ s.given, d ∈ samples) :
    (AstPanel.new {}).KeepsStamps .builtIn steps := by
  have hstamps : ∀ d ∈ samples, ∀ e ∈ samples, d.stamp = e.stamp → d = e := by
    simp [samples, leafDocument, loopDocument]
  exact AstPanel.keepsStamps_of_shelf hstamps (by rintro (_ | _) d ⟨⟩) h

/-! ### Renderings after a run -/

/-- After any run a rendering shows what it shows on a new panel in the same mode. -/
theorem renderCard_after (lib : FontLibrary) (config : Config) (steps : List PanelStep)
    (document : Option Document) (selected : Option AstNode) (tokens : List Token)
    (h : (AstPanel.new config).KeepsStamps lib
      (steps ++ [.render document selected tokens])) :
    (((AstPanel.new config).after lib steps).renderCard lib document selected tokens).value.2
      = (((AstPanel.new config).setViewMode
          ((AstPanel.new config).after lib steps).viewMode).value.renderCard lib document selected
            tokens).value.2 := by
  obtain ⟨hsteps, hnext⟩ := AstPanel.keepsStamps_append.1 h
  have hnew : (AstPanel.new config).Settled lib config := AstPanel.settled_new
  have hrun := hnew.after hsteps
  have hfresh := hnew.setViewMode ((AstPanel.new config).after lib steps).viewMode
  have hagrees : ((AstPanel.new config).setViewMode
      ((AstPanel.new config).after lib steps).viewMode).value.Agrees document := by
    rintro (_ | _) d ⟨⟩
  exact (hrun.renderCard hnext selected tokens).1.trans
    (hfresh.renderCard hagrees selected tokens).1.symm

/-- One document comes back after another one, one that fails and none at all. -/
theorem renderCard_after_return :
    let steps : List PanelStep :=
      [.render (some (leafDocument 0 "a")) none [], .toggle,
        .render (some (leafDocument 1 "b")) none [], .render (some (loopDocument 2)) none [],
        .render none none [], .click 30 30, .toggle]
    let next : Option Document := some (leafDocument 0 "a")
    let p := (AstPanel.new {}).after .builtIn steps
    (AstPanel.new {}).KeepsStamps .builtIn (steps ++ [.render next none []])
      ∧ (p.renderCard .builtIn next none []).value.2
        = (((AstPanel.new {}).setViewMode p.viewMode).value.renderCard .builtIn next none
            []).value.2 := by
  intro steps next p
  have h : (AstPanel.new {}).KeepsStamps .builtIn (steps ++ [.render next none []]) :=
    keepsStamps_samples (by simp [steps, next, samples, PanelStep.given])
  exact ⟨h, renderCard_after .builtIn {} steps next none [] h⟩

end TreeAtlas
