import TreeAtlas.Proofs.Ast.Loading
import TreeAtlas.Proofs.Layout.Links

/-!
# The layouts of a document

A tree that was read from a document is laid out as the document is written.  The root unfolds to
the tree that the document stands for, so it has no cycle and nothing outside, and only the limits
can keep it from being laid out.  What the walk visits is the unfolding in document order.
-/

namespace TreeAtlas

/-! ### Visits in document order -/

section Visits

variable {ast : Ast} {rs : List NodeRef} {f : Forest NodeRef}

/-- The visits of an unfolding are its entries. -/
theorem Ast.Unfolds.entries_eq (h : ast.Unfolds rs f) (depth : Nat) (parent : Option Nat)
    (slot : Nat) :
    (f.visits depth parent slot).map (fun v => ⟨v.node, v.depth, (ast.kids v.node).length⟩)
      = f.entries depth := by
  induction h generalizing depth parent slot with
  | nil => rfl
  | cons here children _ ihb ihr =>
    rw [Forest.visits, Forest.entries, List.map_cons, List.map_append, ihb, ihr,
      kids_of_get? here, children.width_eq]

end Visits

/-! ### Limits -/

section Limits

variable {ast : Ast} {f : Forest NodeRef} {maxDepth maxNodes : Nat}

/-- A tree that unfolds is walked exactly if its unfolding keeps to the limits. -/
theorem preorder_ok_iff_of_unfolds (h : ast.Unfolds ast.root.toList f) :
    (∃ visits, preorder ast maxDepth maxNodes = .ok visits)
      ↔ f.height ≤ maxDepth ∧ f.size ≤ maxNodes := by
  rw [Forest.height, Nat.sub_le_iff_le_add]
  constructor
  · rintro ⟨visits, hv⟩
    obtain ⟨g, hg, hl, hs, -⟩ := preorder_ok hv
    rw [h.unique hg]
    exact ⟨hl, hs⟩
  · rintro ⟨hl, hs⟩
    refine preorder_ok_of_fits fun r hr => ?_
    rw [Option.mem_def.1 hr] at h
    exact h.fits hl hs

/-- Only the limits can keep a tree that unfolds from being walked. -/
theorem preorder_error_of_unfolds (h : ast.Unfolds ast.root.toList f) {e : LayoutError}
    (he : preorder ast maxDepth maxNodes = .error e) :
    e = .depthExceeded maxDepth ∨ e = .tooManyNodes maxNodes := by
  obtain ⟨r, hr, hb⟩ := preorder_error he
  have hsound := h.sound r (by simp [hr])
  cases e with
  | cycle n => exact absurd hb.2 (hsound n hb.1).2
  | unknownNode n =>
    obtain ⟨hn, hc⟩ := hb
    rw [(hsound n hn).1] at hc
    cases hc
  | depthExceeded limit => exact .inl (by rw [hb.1])
  | tooManyNodes limit => exact .inr (by rw [hb.1])

end Limits

/-! ### Documents -/

/-- The entries of a document in order, with what is shown of them. -/
def Json.listing (v : Json) : List (Entry Face) :=
  (v.tree.map Json.face).entries 0

/-- What a visit shows. -/
def Ast.entry (ast : Ast) (v : Visit) : Entry Face :=
  ⟨ast.face v.node, v.depth, (ast.kids v.node).length⟩

section Documents

variable {ast : Ast} {v : Json} {limit : Nat}

theorem Ast.ofJson_unfolds (h : (Ast.ofJson limit v).outcome.value = .ok ast) :
    ∃ f, ast.Unfolds ast.root.toList f ∧ f.map ast.face = v.tree.map Json.face := by
  obtain ⟨hholds, -⟩ := Ast.ofJson_holds h
  exact hholds.unfolds

/-- The visits of a document show its listing. -/
theorem map_entry_visits {f : Forest NodeRef} (hf : ast.Unfolds ast.root.toList f)
    (hmap : f.map ast.face = v.tree.map Json.face) :
    (f.visits 0 none 0).map ast.entry = v.listing := by
  rw [Json.listing, ← hmap, Forest.entries_map, ← hf.entries_eq 0 none 0, List.map_map]
  rfl

theorem Bubble.Shows.entry_eq {b : Bubble} {u : Visit} (h : b.Shows ast u) :
    ((⟨b.id, b.label⟩ : Face), b.depth) = ((ast.entry u).label, (ast.entry u).depth) := by
  obtain ⟨-, hdepth, node, hn, hid, hlabel⟩ := h
  rw [hdepth, hid, hlabel, Ast.entry, Ast.face, hn]
  rfl

theorem OutlineRow.Shows.entry_eq {showIds : Bool} {row : OutlineRow} {u : Visit}
    (h : row.Shows ast showIds u) :
    (row.id, row.text, row.depth, row.childCount)
      = ((ast.entry u).label.id, rowText (ast.entry u).label.label (ast.entry u).label.id showIds,
          (ast.entry u).depth, (ast.entry u).childCount) := by
  obtain ⟨-, hdepth, node, hn, hid, htext, hcount⟩ := h
  rw [hdepth, hid, htext, hcount, Ast.entry, Ast.face, Ast.kids_of_get? hn, hn]
  rfl

end Documents

/-- The circles of a document show its listing, and so do the rows. -/
theorem layouts_of_visits (lib : FontLibrary) {ast : Ast} {v : Json} {f : Forest NodeRef}
    (hf : ast.Unfolds ast.root.toList f) (hmap : f.map ast.face = v.tree.map Json.face)
    {limits : LayoutConfig} {visits : Array Visit}
    (h : preorder ast limits.maxDepth limits.maxNodes = .ok visits) (tree : TreeConfig)
    (family : String) :
    (∃ layout, (layoutBubbles ast limits).outcome.value = .ok layout
        ∧ layout.bubbles.toList.map (fun b => ((⟨b.id, b.label⟩ : Face), b.depth))
          = v.listing.map (fun e => (e.label, e.depth))
        ∧ layout.bubbles.size = v.tree.size ∧ layout.links.length = layout.bubbles.size - 1)
      ∧ ∃ outline, (layoutOutline lib ast tree limits family).outcome.value = .ok outline
        ∧ outline.rows.toList.map (fun row => (row.id, row.text, row.depth, row.childCount))
          = v.listing.map fun e =>
              (e.label.id, rowText e.label.label e.label.id tree.showIds, e.depth,
                e.childCount) := by
  obtain ⟨g, hg, -, -, hvisits⟩ := preorder_ok h
  rw [← hf.unique hg] at hvisits
  have hlisting := map_entry_visits hf hmap
  rw [← hvisits] at hlisting
  obtain ⟨layout, hlayout, hbubbles, -⟩ := layoutBubbles_ok h
  obtain ⟨outline, houtline, hrows⟩ := layoutOutline_ok lib tree family h
  have hcount : layout.bubbles.size = visits.toList.length := by
    rw [← Array.length_toList, hbubbles.length_eq]
  refine ⟨⟨layout, hlayout, ?_, ?_, ?_⟩, outline, houtline, ?_⟩
  · rw [← hlisting, List.map_map]
    exact map_eq_map_of_forall₂ hbubbles fun _ _ => Bubble.Shows.entry_eq
  · rw [hcount, hvisits, Forest.length_visits, Forest.size_eq_of_map_eq hmap]
  · exact length_links hlayout
  · rw [← hlisting, List.map_map]
    exact map_eq_map_of_forall₂ hrows fun _ _ => OutlineRow.Shows.entry_eq

/-- The layouts of a document show its entries in order.  There is a layout unless the document has
too many levels or entries, and no other error. -/
theorem layouts_of_document (lib : FontLibrary) {limit : Nat} {v : Json} {ast : Ast}
    (h : (Ast.ofJson limit v).outcome.value = .ok ast) (tree : TreeConfig) (limits : LayoutConfig)
    (family : String) :
    ((∃ layout, (layoutBubbles ast limits).outcome.value = .ok layout)
        ↔ v.isTruthy = false ∨ v.tree.height ≤ limits.maxDepth ∧ v.tree.size ≤ limits.maxNodes)
      ∧ (∀ layout, (layoutBubbles ast limits).outcome.value = .ok layout →
          layout.bubbles.toList.map (fun b => ((⟨b.id, b.label⟩ : Face), b.depth))
              = v.listing.map (fun e => (e.label, e.depth))
            ∧ layout.bubbles.size = ast.size ∧ layout.links.length = ast.size - 1
            ∧ ∃ outline, (layoutOutline lib ast tree limits family).outcome.value = .ok outline
              ∧ outline.rows.toList.map (fun row => (row.id, row.text, row.depth, row.childCount))
                = v.listing.map fun e =>
                    (e.label.id, rowText e.label.label e.label.id tree.showIds, e.depth,
                      e.childCount))
      ∧ ∀ e, (layoutBubbles ast limits).outcome.value = .error e →
          (layoutOutline lib ast tree limits family).outcome.value = .error e
            ∧ (e = .depthExceeded limits.maxDepth ∨ e = .tooManyNodes limits.maxNodes) := by
  obtain ⟨f, hf, hmap⟩ := Ast.ofJson_unfolds h
  obtain ⟨-, hsize⟩ := Ast.ofJson_holds h
  have hfits : (∃ visits, preorder ast limits.maxDepth limits.maxNodes = .ok visits)
      ↔ v.isTruthy = false ∨ v.tree.height ≤ limits.maxDepth ∧ v.tree.size ≤ limits.maxNodes := by
    rw [preorder_ok_iff_of_unfolds hf, Forest.height_eq_of_map_eq hmap,
      Forest.size_eq_of_map_eq hmap]
    refine ⟨.inr, ?_⟩
    rintro (hv | hv)
    · rw [Json.tree_of_falsy hv]
      exact ⟨Nat.zero_le _, Nat.zero_le _⟩
    · exact hv
  rw [← hfits]
  cases hp : preorder ast limits.maxDepth limits.maxNodes with
  | error e =>
    have hb := layoutBubbles_error hp
    rw [hb]
    refine ⟨by simp, by simp, ?_⟩
    rintro e' ⟨⟩
    exact ⟨layoutOutline_error lib tree family hp, preorder_error_of_unfolds hf hp⟩
  | ok visits =>
    obtain ⟨⟨layout, hlayout, hshown, hcount, hlinks⟩, houtline⟩ :=
      layouts_of_visits lib hf hmap hp tree family
    rw [hlayout]
    refine ⟨by simp, ?_, by simp⟩
    rintro layout' ⟨⟩
    rw [hlinks, hsize]
    exact ⟨hshown, hcount, by rw [hcount], houtline⟩

/-- A pair below a root, before an entry that does not count and one that is no object. -/
def pairDocument : Json :=
  .obj
    [("children", .arr
        [.obj [("left", .obj [("type", .str "a")]), ("right", .obj [("type", .str "b")])],
          .null, .str "x"]),
      ("id", .str "r")]

/-- Its tree, where the sides of the pair come after what follows the pair. -/
def pairAst : Ast where
  nodes :=
    #[{ id := some (.text "r"), shape := .children [⟨1⟩, ⟨2⟩] }, { shape := .binary ⟨3⟩ ⟨4⟩ },
      { attributes := [("value", .str "x")] }, { kind := some "a" }, { kind := some "b" }]
  root := some ⟨0⟩

theorem layouts_of_pairDocument :
    (Ast.ofJson 2 pairDocument).outcome.value = .ok pairAst
      ∧ ∃ layout, (layoutBubbles pairAst {}).outcome.value = .ok layout
        ∧ layout.bubbles.toList.map (fun b => (b.label, b.depth))
          = [("Node", 0), ("Node", 1), ("a", 2), ("b", 2), ("Node", 1)]
        ∧ layout.links.length = 4 := by
  have h : (Ast.ofJson 2 pairDocument).outcome.value = .ok pairAst := by
    with_unfolding_all rfl
  have htree : pairDocument.tree.height = 2 ∧ pairDocument.tree.size = 5 := by
    decide +kernel
  obtain ⟨hfits, hok, -⟩ := layouts_of_document .builtIn h {} {} ""
  obtain ⟨layout, hlayout⟩ := hfits.2 (.inr (by rw [htree.1, htree.2]; decide))
  obtain ⟨hshown, -, hlinks, -⟩ := hok layout hlayout
  have hlabels := congrArg (List.map fun shown : Face × Nat => (shown.1.label, shown.2)) hshown
  rw [List.map_map, List.map_map] at hlabels
  exact ⟨h, layout, hlayout, hlabels.trans (by decide +kernel), hlinks⟩

end TreeAtlas
