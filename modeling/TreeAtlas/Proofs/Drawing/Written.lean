import TreeAtlas.Drawing.Svg
import TreeAtlas.Proofs.Decimal.Numeral
import TreeAtlas.Proofs.Layout.Placing
import TreeAtlas.Proofs.Markup.Elements

/-!
# What drawings write

A drawing puts three kinds of text between tags and quotes: numbers, which have no character that
markup would read (`plain_singleFixed`), colours, which are as plain as the theme makes them
(`Theme.PlainColors`), and escaped data.  So it is clean, whatever the data is, exactly if the
colours in it are plain (`clean_bubbles_iff`, `clean_outline_iff`), and its circles, lines, texts
and keys are those of the layout, one for each item.
-/

namespace TreeAtlas

open Markup

/-! ### Numbers -/

theorem Numeral.plain {cs : List Char} (h : Numeral cs) : Plain (String.ofList cs) := by
  intro c hc
  rw [String.toList_ofList] at hc
  have := h c hc
  constructor <;> rintro rfl <;> revert this <;> decide

@[simp] theorem plain_singleText (x : Float32) : Plain (singleText x) := by
  unfold singleText Decimal.Format.display
  split
  · decide
  · split <;> decide
  · refine Numeral.plain (.signed ?_ _)
    split
    · exact .cons (by decide) numeral_nil
    · exact numeral_positional _

@[simp] theorem plain_singleFixed (x : Float32) : Plain (singleFixed x) := by
  unfold singleFixed Decimal.Format.fixedTwo
  split
  · decide
  · split <;> decide
  · refine Numeral.plain (.signed (.append (numeral_toDigits _) (.cons (by decide) ?_)) _)
    exact .cons (.inl (numeral_digitChar _)) (.cons (.inl (numeral_digitChar _)) numeral_nil)

@[simp] theorem plain_repr (n : Nat) : Plain n.repr := by
  rw [Nat.repr_eq_ofList_toDigits]
  exact (numeral_toDigits n).plain

/-! ### Colours -/

namespace Theme

/-- The colours of a theme, which are written as they are. -/
def colors (t : Theme) : List String :=
  [t.background, t.surface, t.surfaceBorder, t.textColor, t.mutedTextColor, t.lineColor,
    t.nodeFill, t.nodeStroke, t.nodeTextColor, t.selectedFill, t.selectedStroke, t.accentColor,
    t.accentBackground, t.accentTextColor, t.buttonBorder, t.buttonBackground, t.buttonTextColor]

/-- A text without characters that markup would read. -/
def Unmarked (s : String) : Prop :=
  ∀ c ∈ s.toList, c ∉ ['<', '>', '&', '"']

instance (s : String) : Decidable (Unmarked s) :=
  List.decidableBAll _ s.toList

def PlainColors (t : Theme) : Prop :=
  ∀ color ∈ t.colors, Unmarked color

instance (t : Theme) : Decidable t.PlainColors :=
  List.decidableBAll _ t.colors

theorem PlainColors.plain {t : Theme} (h : t.PlainColors) : ∀ color ∈ t.colors, Plain color := by
  intro color hcolor c hc
  have := h color hcolor c hc
  simp only [List.mem_cons, not_or] at this
  exact ⟨this.1, this.2.2.2.1⟩

/-- The plain colours one by one, as they occur. -/
theorem PlainColors.each {t : Theme} (h : t.PlainColors) :
    Plain t.background ∧ Plain t.surface ∧ Plain t.surfaceBorder ∧ Plain t.textColor
      ∧ Plain t.mutedTextColor ∧ Plain t.lineColor ∧ Plain t.nodeFill ∧ Plain t.nodeStroke
      ∧ Plain t.nodeTextColor ∧ Plain t.selectedFill ∧ Plain t.selectedStroke
      ∧ Plain t.accentColor ∧ Plain t.accentBackground ∧ Plain t.accentTextColor
      ∧ Plain t.buttonBorder ∧ Plain t.buttonBackground ∧ Plain t.buttonTextColor := by
  simpa [colors] using h.plain

theorem plainColors_explorer : explorer.PlainColors := by
  decide

theorem plainColors_light : light.PlainColors := by
  decide

end Theme

/-! ### Links -/

/-- Links are named by their numbers. -/
theorem plain_links {ast : Ast} {config : LayoutConfig} {layout : BubbleLayout}
    (h : (layoutBubbles ast config).outcome.value = .ok layout) :
    ∀ l ∈ layout.links, Plain l.id := by
  cases hv : preorder ast config.maxDepth config.maxNodes with
  | error e =>
    rw [layoutBubbles_error hv] at h
    cases h
  | ok visits =>
    obtain ⟨_, hlayout, -, hlinks⟩ := layoutBubbles_ok hv
    rw [h, Except.ok.injEq] at hlayout
    subst hlayout
    intro l hl
    rw [hlinks, List.mem_filterMap] at hl
    obtain ⟨⟨ends, number⟩, -, hl⟩ := hl
    simp only [linkBetween, Option.bind_eq_bind, Option.bind_eq_some_iff] at hl
    obtain ⟨parent, -, child, -, ⟨⟩⟩ := hl
    simp +decide

/-! ### Drawings -/

/-- The colours that a canvas takes from a theme. -/
def Theme.canvasColors (theme : Theme) (render : RenderConfig) : List String :=
  if render.fluidWidth then [] else [theme.background]

/-- The colours of a circle and its label. -/
def Theme.circleColors (theme : Theme) (marked : Bool) : List String :=
  if marked then [theme.selectedFill, theme.selectedStroke, theme.nodeTextColor]
  else [theme.nodeFill, theme.nodeStroke, theme.nodeTextColor]

def Theme.rowColors (theme : Theme) (marked : Bool) : List String :=
  if marked then [theme.accentBackground, theme.selectedStroke, theme.accentTextColor]
  else [theme.textColor]

namespace Drawing

variable {theme : Theme} {render : RenderConfig} {selected : Option NodeId}

/-- A canvas adds nothing that is not clean but its colours. -/
theorem clean_canvas_iff {width height : Float32} {content : List Markup} :
    (canvas theme render width height content).Clean
      ↔ (∀ color ∈ theme.canvasColors render, Plain color) ∧ CleanAll content := by
  unfold canvas Theme.canvasColors
  simp only []
  split <;> simp +decide [Clean, CleanAll]

theorem clean_link_iff {l : BubbleLink} (hl : Plain l.id) :
    (link theme l).Clean ↔ Plain theme.lineColor := by
  simp +decide [link, Clean, hl]

theorem clean_bubble_iff {b : Bubble} : (bubble theme selected b).Clean
    ↔ ∀ color ∈ theme.circleColors (isSelected b.id selected), Plain color := by
  unfold bubble Theme.circleColors
  split
  next fill stroke strokeWidth hcolors =>
  split at hcolors <;> cases hcolors <;>
    simp +decide [Clean, CleanAll, plain_escape, clean_text, *, and_assoc]

theorem plain_marker (r : OutlineRow) : Plain (marker r) := by
  unfold marker
  split <;> decide

theorem clean_row_iff {fontSize : Float32} {r : OutlineRow} :
    (row theme fontSize selected r).Clean
      ↔ ∀ color ∈ theme.rowColors (isSelected r.id selected), Plain color := by
  have hmarker : '<' ∉ (marker r).toList := clean_data_of_plain (plain_marker r)
  unfold row Theme.rowColors
  simp only []
  split <;> simp +decide [Clean, CleanAll, plain_escape, clean_text, *, and_assoc]

theorem clean_bubbles_iff {layout : BubbleLayout} (hlinks : ∀ l ∈ layout.links, Plain l.id) :
    (bubbles layout selected theme render).Clean
      ↔ (∀ color ∈ theme.canvasColors render, Plain color)
        ∧ (∀ _ ∈ layout.links, Plain theme.lineColor)
        ∧ ∀ b ∈ layout.bubbles.toList,
          ∀ color ∈ theme.circleColors (isSelected b.id selected), Plain color := by
  have hlines : CleanAll (layout.links.map (link theme))
      ↔ ∀ _ ∈ layout.links, Plain theme.lineColor := by
    rw [cleanAll_map_iff]
    exact forall₂_congr fun l hl => clean_link_iff (hlinks l hl)
  have hcircles : CleanAll (layout.bubbles.toList.map (bubble theme selected))
      ↔ ∀ b ∈ layout.bubbles.toList,
        ∀ color ∈ theme.circleColors (isSelected b.id selected), Plain color := by
    rw [cleanAll_map_iff]
    exact forall₂_congr fun b _ => clean_bubble_iff
  rw [bubbles, clean_canvas_iff, ← hlines, ← hcircles]
  simp +decide [Clean, CleanAll]

theorem clean_outline_iff {layout : Outline} {fontSize : Float32} :
    (outline layout selected fontSize theme render).Clean
      ↔ (∀ color ∈ theme.canvasColors render, Plain color)
        ∧ ∀ r ∈ layout.rows.toList,
          ∀ color ∈ theme.rowColors (isSelected r.id selected), Plain color := by
  rw [outline, clean_canvas_iff, cleanAll_map_iff]
  exact and_congr_right fun _ => forall₂_congr fun r _ => clean_row_iff

section Plain

variable (h : theme.PlainColors)

include h

theorem plain_canvasColors : ∀ color ∈ theme.canvasColors render, Plain color := by
  unfold Theme.canvasColors
  split <;> simp [h.each]

theorem plain_circleColors (marked : Bool) :
    ∀ color ∈ theme.circleColors marked, Plain color := by
  cases marked <;> simp [Theme.circleColors, h.each]

theorem plain_rowColors (marked : Bool) : ∀ color ∈ theme.rowColors marked, Plain color := by
  cases marked <;> simp [Theme.rowColors, h.each]

theorem clean_bubbles {layout : BubbleLayout} (hlinks : ∀ l ∈ layout.links, Plain l.id)
    (selected : Option NodeId) : (bubbles layout selected theme render).Clean :=
  (clean_bubbles_iff hlinks).2 ⟨plain_canvasColors h, fun _ _ => h.each.2.2.2.2.2.1,
    fun _ _ => plain_circleColors h _⟩

theorem clean_outline (layout : Outline) (selected : Option NodeId) (fontSize : Float32) :
    (outline layout selected fontSize theme render).Clean :=
  clean_outline_iff.2 ⟨plain_canvasColors h, fun _ _ => plain_rowColors h _⟩

end Plain

/-! ### Items -/

section Items

variable {layout : BubbleLayout} {rows : Outline} {fontSize : Float32} {width height : Float32}
  {content : List Markup}

theorem countP_canvas {name : String} (hsvg : "svg" ≠ name) (hrect : "rect" ≠ name) :
    (canvas theme render width height content).pieces.countP (Piece.starts name)
      = (piecesOfAll content).countP (Piece.starts name) := by
  rw [Ne, ← String.toList_inj] at hsvg hrect
  unfold canvas
  simp only []
  split <;> simp only [pieces, piecesOfAll, List.countP_cons, List.countP_append, List.countP_nil,
    List.singleton_append, Piece.starts, beq_eq_false_iff_ne.2 hsvg, beq_eq_false_iff_ne.2 hrect,
    Bool.false_eq_true, if_false, Nat.add_zero]

theorem contents_canvas {wanted : String → List Attribute → Bool}
    (hsvg : ∀ attributes, wanted "svg" attributes = false) :
    (canvas theme render width height content).contents wanted
      = contentsOfAll wanted content := by
  unfold canvas
  simp only []
  split <;> simp [contents, contentsOfAll, hsvg]

theorem values_canvas :
    Piece.values "data-key" (canvas theme render width height content).pieces
      = Piece.values "data-key" (piecesOfAll content) := by
  unfold canvas
  simp only []
  split <;> simp [pieces, piecesOfAll, Piece.attributes, attributePieces]

theorem count_circles :
    (bubbles layout selected theme render).pieces.countP (Piece.starts "circle")
      = layout.bubbles.size := by
  have hlink : ∀ l, (link theme l).pieces.countP (Piece.starts "circle") = 0 := by
    simp [link, pieces, Piece.starts]
  have hbubble : ∀ b, (bubble theme selected b).pieces.countP (Piece.starts "circle") = 1 := by
    simp [bubble, text, pieces, piecesOfAll, Piece.starts]
  rw [bubbles, countP_canvas (by decide) (by decide)]
  simp [pieces, piecesOfAll, countP_piecesOfAll_map hlink, countP_piecesOfAll_map hbubble,
    Piece.starts]

theorem count_lines :
    (bubbles layout selected theme render).pieces.countP (Piece.starts "line")
      = layout.links.length := by
  have hlink : ∀ l, (link theme l).pieces.countP (Piece.starts "line") = 1 := by
    simp [link, pieces, Piece.starts]
  have hbubble : ∀ b, (bubble theme selected b).pieces.countP (Piece.starts "line") = 0 := by
    simp [bubble, text, pieces, piecesOfAll, Piece.starts]
  rw [bubbles, countP_canvas (by decide) (by decide)]
  simp [pieces, piecesOfAll, countP_piecesOfAll_map hlink, countP_piecesOfAll_map hbubble,
    Piece.starts]

/-- Nothing but graphics stands in a drawing of a bubble graph. -/
theorem contents_bubbles {wanted : String → List Attribute → Bool}
    (h : ∀ name ∈ ["svg", "g", "text"], ∀ attributes, wanted name attributes = false) :
    (bubbles layout selected theme render).contents wanted = [] := by
  have hsvg := h "svg" (by simp)
  have hg := h "g" (by simp)
  have htext := h "text" (by simp)
  have hlink : ∀ l, (link theme l).contents wanted = [] := fun _ => rfl
  have hbubble : ∀ b, (bubble theme selected b).contents wanted = [] := by
    simp [bubble, text, contents, contentsOfAll, hg, htext]
  rw [bubbles, contents_canvas hsvg]
  simp [contents, contentsOfAll, contentsOfAll_map hlink, contentsOfAll_map hbubble, hg]

theorem contents_outline {wanted : String → List Attribute → Bool}
    (h : ∀ name ∈ ["svg", "g", "text"], ∀ attributes, wanted name attributes = false) :
    (outline rows selected fontSize theme render).contents wanted = [] := by
  have hsvg := h "svg" (by simp)
  have hg := h "g" (by simp)
  have htext := h "text" (by simp)
  have hrow : ∀ r, (row theme fontSize selected r).contents wanted = [] := by
    intro r
    unfold row
    simp only []
    split <;> simp [text, contents, contentsOfAll, hg, htext]
  rw [outline, contents_canvas hsvg, contentsOfAll_map hrow]
  simp

theorem texts_bubbles :
    (bubbles layout selected theme render).contents (named "text")
      = layout.bubbles.toList.map fun b => [.text b.label] := by
  have hlink : ∀ l, (link theme l).contents (named "text") = [] := fun _ => rfl
  have hbubble : ∀ b, (bubble theme selected b).contents (named "text") = [[.text b.label]] := by
    simp [bubble, text, contents, contentsOfAll, named]
  rw [bubbles, contents_canvas fun _ => rfl]
  simp [contents, contentsOfAll, contentsOfAll_map hlink, contentsOfAll_map hbubble, named,
    ← List.map_eq_flatMap]

theorem keys_bubbles :
    Piece.values "data-key" (bubbles layout selected theme render).pieces
      = layout.bubbles.toList.map fun b => (escape b.key).toList := by
  have hlink : ∀ l, Piece.values "data-key" (link theme l).pieces = [] := by
    simp [link, pieces, Piece.attributes, attributePieces]
  have hbubble : ∀ b, Piece.values "data-key" (bubble theme selected b).pieces
      = [(escape b.key).toList] := by
    simp [bubble, text, pieces, piecesOfAll, Piece.attributes, attributePieces]
  rw [bubbles, values_canvas]
  simp [pieces, piecesOfAll, values_piecesOfAll_map hlink, values_piecesOfAll_map hbubble,
    Piece.attributes, attributePieces, ← List.map_eq_flatMap]

theorem count_texts :
    (outline rows selected fontSize theme render).pieces.countP (Piece.starts "text")
      = rows.rows.size := by
  have hrow : ∀ r, (row theme fontSize selected r).pieces.countP (Piece.starts "text") = 1 := by
    intro r
    unfold row
    simp only []
    split <;> simp [text, pieces, piecesOfAll, Piece.starts]
  rw [outline, countP_canvas (by decide) (by decide), countP_piecesOfAll_map hrow]
  simp

theorem texts_outline :
    (outline rows selected fontSize theme render).contents (named "text")
      = rows.rows.toList.map fun r => [.data (marker r), .text r.text] := by
  have hrow : ∀ r, (row theme fontSize selected r).contents (named "text")
      = [[.data (marker r), .text r.text]] := by
    intro r
    unfold row
    simp only []
    split <;> simp [text, contents, contentsOfAll, named]
  rw [outline, contents_canvas fun _ => rfl, contentsOfAll_map hrow, List.map_eq_flatMap]

end Items

end Drawing

end TreeAtlas
