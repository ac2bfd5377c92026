import TreeAtlas.Render
import TreeAtlas.Proofs.Layout.Placing

/-!
# What renderings warn of

Layouts, fonts and panels log what they do for whoever looks into the program; none of that is a
warning.  So a page warns of nothing but a selection without node, and of that once
(`warnings_page`).
-/

namespace TreeAtlas

def warnings (lines : List LogLine) : List LogLine :=
  lines.filter fun l => l.severity == .warn

/-- Lines without a warning. -/
def Quiet (lines : List LogLine) : Prop :=
  ∀ l ∈ lines, l.severity ≠ .warn

theorem warnings_append (ls ms : List LogLine) :
    warnings (ls ++ ms) = warnings ls ++ warnings ms :=
  List.filter_append ..

theorem Quiet.warnings_eq {lines : List LogLine} (h : Quiet lines) : warnings lines = [] := by
  simpa [warnings, List.filter_eq_nil_iff, Quiet] using h

theorem Quiet.append {ls ms : List LogLine} (hl : Quiet ls) (hm : Quiet ms) : Quiet (ls ++ ms) :=
  List.forall_mem_append.2 ⟨hl, hm⟩

theorem quiet_nil : Quiet [] := by
  simp [Quiet]

theorem quiet_singleton {l : LogLine} (h : l.severity ≠ .warn) : Quiet [l] := by
  simpa [Quiet] using h

/-! ### Layouts -/

theorem TextMeasurer.quiet_load (m : TextMeasurer) (lib : FontLibrary) (family : String) :
    Quiet (m.load lib family).lines := by
  unfold load
  split
  · exact quiet_nil
  · simp only []
    split
    · exact quiet_singleton (by simp [missingFontLine])
    · exact quiet_nil

theorem TextMeasurer.quiet_textWidth (m : TextMeasurer) (lib : FontLibrary) (text : String)
    (size : Float32) (family : String) : Quiet (m.textWidth lib text size family).lines := by
  unfold textWidth
  split
  · exact quiet_nil
  · rw [Logged.lines_bind, Logged.lines_pure, List.append_nil, measure, Logged.lines_bind]
    refine (m.quiet_load lib family).append ?_
    split <;> exact quiet_nil

theorem RowPlacing.quiet_place {lib : FontLibrary} {ast : Ast} {config : TreeConfig}
    {family : String} (p : RowPlacing) (v : Visit) (p' : RowPlacing) (hp : Quiet p.lines)
    (h : p.place lib ast config family v = .ok p') : Quiet p'.lines := by
  unfold place at h
  split at h
  · cases h
  · cases h
    exact hp.append (p.measurer.quiet_textWidth lib _ _ _)

theorem quiet_layoutBubbles (ast : Ast) (config : LayoutConfig) :
    Quiet (layoutBubbles ast config).outcome.lines := by
  rw [layoutBubbles]
  cases h : bubbleLayout ast config with
  | error e => exact quiet_nil
  | ok layout => exact quiet_singleton (by simp)

theorem quiet_layoutOutline (lib : FontLibrary) (ast : Ast) (config : TreeConfig)
    (limits : LayoutConfig) (family : String) :
    Quiet (layoutOutline lib ast config limits family).outcome.lines := by
  rw [layoutOutline, Attempt.lines_bind, Attempt.lines_ofExcept, List.nil_append,
    Attempt.value_ofExcept]
  cases preorder ast limits.maxDepth limits.maxNodes with
  | error e => exact quiet_nil
  | ok visits =>
    simp only []
    split
    · exact quiet_nil
    rw [Attempt.lines_bind, Attempt.lines_ofExcept, List.nil_append, Attempt.value_ofExcept]
    cases hp : visits.toList.foldlM (RowPlacing.place lib ast config family) {} with
    | error e => exact quiet_nil
    | ok p =>
      have hlines : Quiet p.lines := foldlM_keeps RowPlacing.quiet_place quiet_nil hp
      have hreport : Quiet (p.outline config).report := quiet_singleton (by simp)
      simp only []
      rw [Attempt.lines_bind, Attempt.lines_log]
      exact (hlines.append hreport).append quiet_nil

/-! ### Views and panels -/

theorem BubbleView.quiet_update (v : BubbleView) (next : Option Document) :
    Quiet (v.update next).lines := by
  unfold update
  split
  · exact quiet_nil
  · cases next with
    | none => exact quiet_nil
    | some d =>
      have houtcome := quiet_layoutBubbles d.ast v.config
      simp only []
      split <;> exact houtcome

theorem OutlineView.quiet_update (v : OutlineView) (lib : FontLibrary) (next : Option Document)
    (family : String) : Quiet (v.update lib next family).lines := by
  unfold update
  split
  · exact quiet_nil
  · cases next with
    | none => exact quiet_nil
    | some d =>
      have houtcome := quiet_layoutOutline lib d.ast v.config v.limits family
      simp only []
      split <;> exact houtcome

theorem AstPanel.quiet_setViewMode (p : AstPanel) (mode : ViewMode) :
    Quiet (p.setViewMode mode).lines := by
  unfold setViewMode
  simp only []
  split
  · exact quiet_nil
  · exact quiet_singleton (by simp [switchLine])

theorem AstPanel.quiet_renderCard (p : AstPanel) (lib : FontLibrary) (document : Option Document)
    (selected : Option AstNode) (tokens : List Token) :
    Quiet (p.renderCard lib document selected tokens).lines := by
  unfold renderCard
  split
  · exact quiet_nil
  · simp only [draw]
    split
    · exact p.outline.quiet_update lib _ _
    · exact p.bubbles.quiet_update _

theorem warnings_card (lib : FontLibrary) (ast : Ast) (tokens : List Token)
    (options : RenderOptions) :
    warnings (renderTreeCard lib ast tokens options).outcome.lines
      = if options.selected.isSome && (selectedNode? ast options.selected).isNone
        then [noSelectionLine] else [] := by
  have hmode := (AstPanel.new options.config).quiet_setViewMode options.view
  have hcard := ((AstPanel.new options.config).setViewMode options.view).value.quiet_renderCard lib
    (some ⟨0, ast⟩) (selectedNode? ast options.selected) tokens
  rw [renderTreeCard, Attempt.lines_bind, Attempt.lines_lift, Attempt.value_lift, warnings_append,
    hmode.warnings_eq, List.nil_append]
  simp only []
  by_cases hlost : (options.selected.isSome && (selectedNode? ast options.selected).isNone) = true
  · rw [if_pos hlost, if_pos hlost]
    simp only [Attempt.lines_bind, Attempt.lines_log, Attempt.value_log, Attempt.lines_lift,
      Attempt.value_lift, Attempt.lines_ofExcept, warnings_append, hcard.warnings_eq]
    rfl
  · rw [if_neg hlost, if_neg hlost]
    simp only [Attempt.lines_bind, Attempt.lines_lift, Attempt.value_lift, Attempt.lines_ofExcept,
      List.append_nil, hcard.warnings_eq]

/-- A page warns of a selection that no node has, and of nothing else. -/
theorem warnings_page (lib : FontLibrary) (ast : Ast) (tokens : List Token)
    (options : RenderOptions) :
    warnings (renderTreePage lib ast tokens options).outcome.lines
      = if options.selected.isSome && (selectedNode? ast options.selected).isNone
        then [noSelectionLine] else [] := by
  rw [renderTreePage, Attempt.lines_bind, warnings_append, warnings_card]
  cases (renderTreeCard lib ast tokens options).outcome.value with
  | ok card => exact List.append_nil _
  | error e => exact List.append_nil _

end TreeAtlas
