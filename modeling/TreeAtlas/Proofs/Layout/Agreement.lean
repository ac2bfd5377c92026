import TreeAtlas.Proofs.Layout.Placing

/-!
# The two layouts agree

The bubble graph and the outline fail with the same error or show the same nodes in the same order.
The bubble graph asks a counter about each node, which looks for cycles with marks where the walk
looks at its path: a node that was visited is sound, and a counter has an answer for it after any
questions.
-/

namespace TreeAtlas

open DescendantCounter

theorem Bubble.Shows.id_eq {ast : Ast} {b : Bubble} {v : Visit} (h : b.Shows ast v) :
    (b.node, b.id, b.depth) = (v.node, (ast.get? v.node).bind AstNode.id, v.depth) := by
  obtain ⟨hnode, hdepth, node, hn, hid, -⟩ := h
  rw [hnode, hdepth, hn, hid]
  rfl

theorem OutlineRow.Shows.id_eq {ast : Ast} {showIds : Bool} {row : OutlineRow} {v : Visit}
    (h : row.Shows ast showIds v) :
    (row.node, row.id, row.depth) = (v.node, (ast.get? v.node).bind AstNode.id, v.depth) := by
  obtain ⟨hnode, hdepth, node, hn, hid, -⟩ := h
  rw [hnode, hdepth, hn, hid]
  rfl

/-- Both layouts fail with one error or succeed with the same nodes, identifiers and depths, and a
counter that was asked anything before answers for each node that the walk visits. -/
theorem layouts_agree (lib : FontLibrary) (ast : Ast) (tree : TreeConfig) (limits : LayoutConfig)
    (family : String) :
    (layoutBubbles ast limits).outcome.value.map
        (fun layout => layout.bubbles.toList.map fun b => (b.node, b.id, b.depth))
      = (layoutOutline lib ast tree limits family).outcome.value.map
        (fun outline => outline.rows.toList.map fun row => (row.node, row.id, row.depth))
    ∧ ∀ visits, preorder ast limits.maxDepth limits.maxNodes = .ok visits →
      ∀ questions, ∀ v ∈ visits.toList,
        ∃ k, ((asked ast questions).count ast v.node).2 = .ok k := by
  refine ⟨?_, fun visits h questions v hv => ?_⟩
  · cases h : preorder ast limits.maxDepth limits.maxNodes with
    | error e => rw [layoutBubbles_error h, layoutOutline_error lib tree family h]; rfl
    | ok visits =>
      obtain ⟨layout, hlayout, hbubbles, -⟩ := layoutBubbles_ok h
      obtain ⟨outline, houtline, hrows⟩ :=
        layoutOutline_ok lib tree family h
      rw [hlayout, houtline]
      simp only [Except.map]
      rw [map_eq_map_of_forall₂ hbubbles fun _ _ => Bubble.Shows.id_eq,
        map_eq_map_of_forall₂ hrows fun _ _ => OutlineRow.Shows.id_eq]
  · rcases ((exact_asked ast questions).count v.node).2 with ⟨below, -, -, hk⟩ | ⟨e, hunsound, -⟩
    · exact ⟨_, hk⟩
    · exact absurd (sound_of_preorder h hv) hunsound

end TreeAtlas
