import TreeAtlas.Panel.ViewMode
import TreeAtlas.Proofs.Drawing.Written

/-!
# Slots of drawings

Both drawings have a group for each entry of their layout, which names the node of the entry, and
both mark the entries that are selected: the bubble graph by a thick circle, the outline by a
background behind the row.  So what is marked can be read off a drawing slot by slot
(`slots_bubbles`, `slots_outline`), and no other part of a drawing is taken for a slot.
-/

namespace TreeAtlas

open Markup

namespace Drawing

/-- A group that names a node. -/
def isSlot (name : String) (attributes : List Attribute) : Bool :=
  name == "g" && attributes.any (·.1 == "data-node")

/-- What a slot contains only if it is marked. -/
def isMark : ViewMode → Markup → Bool
  | .bubble, .single name attributes =>
    name == "circle" && attributes.contains ("stroke-width", "2")
  | .tree, .single name _ => name == "rect"
  | _, _ => false

/-- The node that a slot names, and whether it is marked. -/
def slot (mode : ViewMode) (group : List Attribute × List Markup) : Option String × Bool :=
  (group.1.lookup "data-node", group.2.any (isMark mode))

/-- The slots of a drawing, in the order in which they are drawn. -/
def slots (mode : ViewMode) (drawing : Markup) : List (Option String × Bool) :=
  (drawing.elements isSlot).map (slot mode)

section Slots

variable {theme : Theme} {render : RenderConfig} {selected : Option NodeId}

theorem elements_canvas {wanted : String → List Attribute → Bool}
    (hsvg : ∀ attributes, wanted "svg" attributes = false) (width height : Float32)
    (content : List Markup) :
    (canvas theme render width height content).elements wanted
      = elementsOfAll wanted content := by
  unfold canvas
  simp only []
  split <;> simp [elements, elementsOfAll, hsvg]

/-- Trees of one slot each have their slots one after another. -/
theorem map_slot_elementsOfAll {α : Type} {mode : ViewMode} {f : α → Markup}
    {g : α → Option String × Bool} (h : ∀ x, slots mode (f x) = [g x]) (xs : List α) :
    (elementsOfAll isSlot (xs.map f)).map (slot mode) = xs.map g := by
  rw [elementsOfAll_eq, List.flatMap_map, List.map_flatMap, List.map_eq_flatMap]
  exact congrArg (List.flatMap · xs) (funext h)

theorem slots_bubble (b : Bubble) :
    slots .bubble (bubble theme selected b)
      = [(some (toString b.node.index), isSelected b.id selected)] := by
  unfold bubble
  cases isSelected b.id selected <;>
    simp [slots, slot, elements, elementsOfAll, isSlot, isMark, text, List.lookup_cons]

theorem slots_row (fontSize : Float32) (r : OutlineRow) :
    slots .tree (row theme fontSize selected r)
      = [(some (toString r.node.index), isSelected r.id selected)] := by
  unfold row
  cases isSelected r.id selected <;>
    simp [slots, slot, elements, elementsOfAll, isSlot, isMark, text]

theorem slots_bubbles (layout : BubbleLayout) :
    slots .bubble (bubbles layout selected theme render)
      = layout.bubbles.toList.map fun b =>
        (some (toString b.node.index), isSelected b.id selected) := by
  have hlinks : elementsOfAll isSlot (layout.links.map (link theme)) = [] := by
    rw [elementsOfAll_eq, List.flatMap_map]
    exact List.flatMap_eq_nil_iff.2 fun _ _ => rfl
  have hslots : (elementsOfAll isSlot (layout.bubbles.toList.map (bubble theme selected))).map
      (slot .bubble) = _ := map_slot_elementsOfAll slots_bubble layout.bubbles.toList
  rw [slots, bubbles, elements_canvas fun _ => rfl]
  simp only [elements, elementsOfAll, hlinks]
  simpa [isSlot] using hslots

theorem slots_outline (layout : Outline) (fontSize : Float32) :
    slots .tree (outline layout selected fontSize theme render)
      = layout.rows.toList.map fun r =>
        (some (toString r.node.index), isSelected r.id selected) := by
  rw [slots, outline, elements_canvas fun _ => rfl,
    map_slot_elementsOfAll (slots_row fontSize)]

end Slots

end Drawing

end TreeAtlas
