import TreeAtlas.Proofs.Ast.Identity
import TreeAtlas.Proofs.Ast.Naming
import TreeAtlas.Proofs.Layout.Keys
import TreeAtlas.Proofs.Panel.Selection

/-!
# Selecting nodes by what is shown of them

A number that is shown as text can be typed to select its node, if the text is read as the number
again.  All numbers are (`ofText_display`), but for two kinds, each of which is read as a number of
the other one (`ofText_display_ne`): floating point numbers with the value of a signed word, and
whole numbers beyond those words.  If it is read again, the node is found, and marked in the
drawing: the walk of a loaded document visits all nodes (`mem_visits_of_document`).
-/

namespace TreeAtlas

open Decimal

/-! ### Nodes of loaded documents -/

section Documents

variable {ast : Ast} {limit : Nat} {v : Json} {r : NodeRef} {node : AstNode}

theorem Ast.exists_findById? (h : ast.get? r = some node) {id : NodeId} (hid : node.id = some id) :
    ∃ first found, ast.findById? id = some first ∧ ast.get? first = some found
      ∧ found.id.any (· == id) = true := by
  cases hfind : ast.findById? id with
  | none =>
    have hmiss := findById?_eq_none_iff.1 hfind node (Array.mem_of_getElem? h)
    rw [hid, Option.any_some, BEq.rfl] at hmiss
    cases hmiss
  | some first =>
    obtain ⟨found, hfound, hany⟩ := get?_of_findById? hfind
    exact ⟨first, found, rfl, hfound, hany⟩

/-- What is found for one identifier does not have another one. -/
theorem Ast.findById?_of_ne {id other : NodeId} (hne : (id == other) = false)
    {first : NodeRef} {found : AstNode} (hfind : ast.findById? id = some first)
    (hfound : ast.get? first = some found) : found.id.any (· == other) = false := by
  obtain ⟨node, hnode, hany⟩ := get?_of_findById? hfind
  obtain rfl := Option.some.inj (hnode.symm.trans hfound)
  obtain ⟨i, hi, hid⟩ := (Option.any_eq_true ..).1 hany
  rw [hi, Option.any_some, ← hne]
  exact BEq.congr_left hid

/-- A document that keeps to the limits is drawn with a slot for each of its nodes, which is marked
if the identifier of the node is selected. -/
theorem exists_drawing_of_document (lib : FontLibrary) (options : RenderOptions)
    (h : (Ast.ofJson limit v).outcome.value = .ok ast) (hr : ast.get? r = some node)
    (hheight : v.tree.height ≤ options.config.layout.maxDepth)
    (hsize : v.tree.size ≤ options.config.layout.maxNodes) :
    ∃ drawing, ∃ slots : List NodeRef, (drawTree lib ast options).outcome.value = .ok drawing
      ∧ Drawing.slots options.view drawing
        = slots.map (fun s => (some (toString s.index),
            Drawing.isSelected ((ast.get? s).bind AstNode.id) options.selected))
      ∧ r ∈ slots := by
  obtain ⟨f, hf, hmap⟩ := Ast.ofJson_unfolds h
  rw [← Forest.height_eq_of_map_eq hmap] at hheight
  rw [← Forest.size_eq_of_map_eq hmap] at hsize
  obtain ⟨visits, hv⟩ := (preorder_ok_iff_of_unfolds hf).2 ⟨hheight, hsize⟩
  obtain ⟨g, hg, -, -, hvisits⟩ := preorder_ok hv
  obtain ⟨layout, hlayout, hview, hnodes, hids⟩ := layoutView_ok lib ast options hv
  refine ⟨layout.draw options, visits.toList.map Visit.node, ?_, ?_, ?_⟩
  · rw [value_drawTree, hlayout]
    rfl
  · rw [← hview, slots_draw, hnodes, hids, List.zipWith_map, List.zipWith_self, List.map_map]
    rfl
  · rw [hvisits]
    exact mem_visits_of_document h hg (decide_eq_true (Array.getElem?_eq_some_iff.1 hr).1)

/-- The text of a number that is not told by its text is read as another number. -/
theorem ofText_display_ne {n : Json.Number} (h : ¬ n.Told) :
    (NodeId.ofText (NodeId.number n).display == .number n) = false := by
  cases n with
  | int i hi =>
    have hlarge : 2 ^ 63 ≤ i := by
      by_contra hlt
      exact h ⟨hi.1, not_le.1 hlt⟩
    obtain ⟨x, hx, htyped⟩ := ofText_display_large hi hlarge
    rw [htyped]
    rfl
  | float x hx =>
    obtain ⟨i, hwhole, hfits⟩ : ∃ i, IsWhole x i ∧ -2 ^ 63 ≤ i ∧ i < 2 ^ 63 := by
      by_contra hnone
      exact h fun i hwhole hfits => hnone ⟨i, hwhole, hfits⟩
    obtain ⟨hi, htyped⟩ := ofText_display_whole hx hwhole hfits
    rw [htyped]
    rfl

end Documents

/-- A node of a loaded document can be selected by the text of its identifier, if this is a number
that is told by its text: the text is read as the identifier, a node with it is found, and the
drawing marks the node, among those that share the identifier.  The text of a floating point number
with a whole value is read as this value, and that of a whole number beyond the signed words as a
floating point number.  These are other identifiers, so what is found for them is no such node, and
the drawing does not mark it. -/
theorem selected_by_text {limit : Nat} {v : Json} {ast : Ast}
    (h : (Ast.ofJson limit v).outcome.value = .ok ast) {r : NodeRef} {node : AstNode}
    (hr : ast.get? r = some node) {n : Json.Number} (hid : node.id = some (.number n)) :
    let typed := NodeId.ofText (NodeId.number n).display
    (n.Told → typed = .number n
      ∧ (∃ first found, ast.findById? typed = some first ∧ ast.get? first = some found
          ∧ found.id.any (· == .number n) = true)
      ∧ ∀ (lib : FontLibrary) (options : RenderOptions), options.selected = some typed →
          v.tree.height ≤ options.config.layout.maxDepth →
          v.tree.size ≤ options.config.layout.maxNodes →
          ∃ drawing, ∃ slots : List NodeRef,
            (drawTree lib ast options).outcome.value = .ok drawing
            ∧ Drawing.slots options.view drawing
              = slots.map (fun s => (some (toString s.index), ast.sharesId node s))
            ∧ r ∈ slots ∧ ast.sharesId node r = true)
      ∧ (∀ x hx i, n = .float x hx → IsWhole x i → -2 ^ 63 ≤ i ∧ i < 2 ^ 63 →
          (∃ hi, typed = .number (.int i hi)) ∧ (typed == .number n) = false)
      ∧ (∀ i hi, n = .int i hi → 2 ^ 63 ≤ i →
          (∃ x hx, typed = .number (.float x hx)) ∧ (typed == .number n) = false)
      ∧ (¬ n.Told →
          (∀ first found, ast.findById? typed = some first → ast.get? first = some found →
            found.id.any (· == .number n) = false)
          ∧ ∀ (lib : FontLibrary) (options : RenderOptions), options.selected = some typed →
              v.tree.height ≤ options.config.layout.maxDepth →
              v.tree.size ≤ options.config.layout.maxNodes →
              ∃ drawing, (drawTree lib ast options).outcome.value = .ok drawing
                ∧ (some (toString r.index), true) ∉ Drawing.slots options.view drawing) := by
  intro typed
  refine ⟨fun htold => ?_, ?_, ?_, fun htold => ⟨fun first found => ?_, ?_⟩⟩
  · have htyped : typed = .number n := ofText_display htold
    rw [htyped]
    refine ⟨rfl, Ast.exists_findById? hr hid, fun lib options hselected hheight hsize => ?_⟩
    obtain ⟨drawing, slots, hdrawing, hslots, hmem⟩ :=
      exists_drawing_of_document lib options h hr hheight hsize
    refine ⟨drawing, slots, hdrawing, ?_, hmem, Ast.sharesId_self hr (by simp [hid])⟩
    rw [hslots, hselected, ← hid]
    simp only [isSelected_id]
  · rintro x hx i rfl hwhole hfits
    have hne : (typed == .number (.float x hx)) = false :=
      ofText_display_ne fun htold => htold i hwhole hfits
    exact ⟨ofText_display_whole hx hwhole hfits, hne⟩
  · rintro i hi rfl hlarge
    have hne : (typed == .number (.int i hi)) = false :=
      ofText_display_ne fun htold => htold.2.not_ge hlarge
    exact ⟨ofText_display_large hi hlarge, hne⟩
  · exact Ast.findById?_of_ne (ofText_display_ne htold)
  · intro lib options hselected hheight hsize
    obtain ⟨drawing, slots, hdrawing, hslots, -⟩ :=
      exists_drawing_of_document lib options h hr hheight hsize
    refine ⟨drawing, hdrawing, fun hmarked => ?_⟩
    rw [hslots] at hmarked
    obtain ⟨s, -, hs⟩ := List.mem_map.1 hmarked
    obtain ⟨hslot, hmark⟩ := Prod.mk.inj hs
    obtain rfl : s = r := congrArg NodeRef.mk (toString_nat_inj (Option.some.inj hslot))
    rw [hr, Option.bind_some, hid, hselected, isSelected_some, Option.any_some] at hmark
    exact Bool.false_ne_true ((ofText_display_ne htold).symm.trans (BEq.symm hmark))

/-- A node with a number, below the one with the number one. -/
def numberedDocument (n : Json.Number) : Json :=
  .obj [("children", .arr [.obj [("id", .num n)]]), ("id", .num (.int 1 (by decide)))]

def numberedAst (n : Json.Number) : Ast where
  nodes :=
    #[{ id := some (.number (.int 1 (by decide))), shape := .children [⟨1⟩] },
      { id := some (.number n) }]
  root := some ⟨0⟩

theorem ofJson_numberedDocument (n : Json.Number) :
    (Ast.ofJson 1 (numberedDocument n)).outcome.value = .ok (numberedAst n) := by
  cbv

def threeHalves : Json.Number := .float 1.5 (by decide +kernel)

/-- A fraction can be typed as it is shown. -/
theorem selected_by_fraction :
    (Ast.ofJson 1 (numberedDocument threeHalves)).outcome.value = .ok (numberedAst threeHalves)
      ∧ NodeId.ofText "1.5" = .number threeHalves
      ∧ ∀ view, ∃ drawing, (drawTree .builtIn (numberedAst threeHalves)
          { view, selected := some (NodeId.ofText "1.5") }).outcome.value = .ok drawing
        ∧ (some "1", true) ∈ Drawing.slots view drawing := by
  have h := ofJson_numberedDocument threeHalves
  have htree : (numberedDocument threeHalves).tree.height = 1
      ∧ (numberedDocument threeHalves).tree.size = 2 := by
    generalize threeHalves = n
    constructor <;> cbv
  have htold : threeHalves.Told := NodeId.wholeOfFloat?_eq_none_iff.1 (by decide +kernel)
  have htext : (NodeId.number threeHalves).display = "1.5" := by
    decide +kernel
  have hnode : (numberedAst threeHalves).get? ⟨1⟩ = some { id := some (.number threeHalves) } := rfl
  obtain ⟨htyped, -, hdrawn⟩ := (selected_by_text h hnode rfl).1 htold
  rw [htext] at htyped hdrawn
  refine ⟨h, htyped, fun view => ?_⟩
  obtain ⟨drawing, slots, hdrawing, hslots, hmem, hshares⟩ :=
    hdrawn .builtIn { view, selected := some (NodeId.ofText "1.5") } rfl
      (htree.1.trans_le (Nat.le_of_ble_eq_true rfl)) (htree.2.trans_le (Nat.le_of_ble_eq_true rfl))
  refine ⟨drawing, hdrawing, ?_⟩
  rw [hslots]
  refine List.mem_map.2 ⟨⟨1⟩, hmem, ?_⟩
  rw [hshares]
  rfl

def thousand : Json.Number := .float 1000.0 (by decide +kernel)

/-- The first whole number beyond the signed words. -/
def firstBeyond : Json.Number := .int 9223372036854775808 (by decide)

theorem ofText_firstBeyond : NodeId.ofText "9223372036854775808"
    = .number (.float 9223372036854775808.0 (by decide +kernel)) := by
  have hword : NodeId.word? "9223372036854775808" = none := by
    decide +kernel
  have hdouble : NodeId.double? "9223372036854775808" = some 9223372036854775808.0 := by
    decide +kernel
  have hwhole : NodeId.wholeOfFloat? 9223372036854775808.0 = none := by
    decide +kernel
  have hnumber : Json.Number.ofFloat? 9223372036854775808.0 = some (.float _ _) :=
    dif_pos (by decide +kernel)
  rw [NodeId.ofText, NodeId.numberOfText?_eq, hword, hdouble, Option.bind_some, hwhole,
    Option.elim_none, hnumber]

/-- A whole number with a point is read without it, and one beyond the signed words is read as if it
had one.  Nothing is found for either. -/
theorem pointed_not_found :
    ((Ast.ofJson 1 (numberedDocument thousand)).outcome.value = .ok (numberedAst thousand)
        ∧ (NodeId.number thousand).display = "1000.0"
        ∧ NodeId.ofText "1000.0" = .number (.int 1000 (by decide))
        ∧ (numberedAst thousand).findById? (NodeId.ofText "1000.0") = none)
      ∧ (Ast.ofJson 1 (numberedDocument firstBeyond)).outcome.value
          = .ok (numberedAst firstBeyond)
        ∧ (NodeId.number firstBeyond).display = "9223372036854775808"
        ∧ NodeId.ofText "9223372036854775808"
          = .number (.float 9223372036854775808.0 (by decide +kernel))
        ∧ (numberedAst firstBeyond).findById? (NodeId.ofText "9223372036854775808") = none := by
  have htext : (NodeId.number thousand).display = "1000.0" := by
    decide +kernel
  have hread : NodeId.wholeOfFloat? 1000.0 = some 1000 := by
    decide +kernel
  obtain ⟨hwhole, hfits⟩ := NodeId.wholeOfFloat?_eq_some_iff.1 hread
  obtain ⟨hi, htyped⟩ := ofText_display_whole (by decide +kernel) hwhole hfits
  rw [show NodeId.number (.float 1000.0 _) = .number thousand from rfl, htext] at htyped
  have hnone : (numberedAst thousand).findById? (.number (.int 1000 (by decide))) = none := by
    decide +kernel
  have htext' : (NodeId.number firstBeyond).display = "9223372036854775808" := by
    decide +kernel
  have hnone' : (numberedAst firstBeyond).findById?
      (.number (.float 9223372036854775808.0 (by decide +kernel))) = none := by
    decide +kernel
  refine ⟨⟨ofJson_numberedDocument thousand, htext, htyped, ?_⟩,
    ofJson_numberedDocument firstBeyond, htext', ofText_firstBeyond, ?_⟩
  · rw [htyped]
    exact hnone
  · rw [ofText_firstBeyond]
    exact hnone'

end TreeAtlas
