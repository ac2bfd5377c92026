import TreeAtlas.Proofs.Layout.Columns
import Mathlib.Data.List.TakeWhile

/-!
# Radii of circles

Right after a visit come the visits of what its node unfolds to, all of them deeper, and then one
that is not (`Unfolds.length_takeWhile_visits`).  So the circles drawn below a circle are as many as
the counter says there are nodes below its node, and the radius tells their number.  The walk stops
before a count could reach its cap.
-/

namespace TreeAtlas

/-! ### What a walk visits below a visit -/

section Visits

variable {ast : Ast} {rs : List NodeRef} {f : Forest NodeRef} {depth slot : Nat}
  {parent : Option Nat} {v : Visit} {before after : List Visit}

/-- Nothing among siblings or behind them is deeper than what is below one of them. -/
theorem Forest.takeWhile_append_visits (vs : List Visit) {d : Nat} (hd : depth ≤ d) :
    (vs ++ f.visits depth parent slot).takeWhile (d < ·.depth)
      = vs.takeWhile (d < ·.depth) := by
  have hnil : (f.visits depth parent slot).takeWhile (d < ·.depth) = [] := by
    cases f with
    | nil => rfl
    | cons r below rest =>
      rw [visits, List.takeWhile_cons_of_neg]
      simpa using hd
  rw [List.takeWhile_append, hnil, List.append_nil]
  split
  · rename_i hall
    rw [(List.takeWhile_prefix _).eq_of_length hall]
  · rfl

/-- The deeper visits right after a visit are as many as the nodes below its node. -/
theorem Ast.Unfolds.length_takeWhile_visits (h : ast.Unfolds rs f)
    (hv : f.visits depth parent slot = before ++ v :: after) :
    ∃ below, ast.Unfolds (ast.kids v.node) below
      ∧ (after.takeWhile (v.depth < ·.depth)).length = below.size := by
  induction h generalizing depth slot parent before after with
  | nil => simp [Forest.visits] at hv
  | @cons r rs node below rest here children others ihb ihr =>
    rw [Forest.visits] at hv
    rcases List.cons_eq_append_iff.1 hv with ⟨-, hhead⟩ | ⟨before, rfl, hvs⟩
    · obtain ⟨rfl, rfl⟩ := List.cons.inj hhead
      refine ⟨below, by rwa [kids_of_get? here], ?_⟩
      rw [Forest.takeWhile_append_visits _ (Nat.le_refl _), List.takeWhile_eq_self_iff.2,
        Forest.length_visits]
      exact fun w hw => decide_eq_true (Forest.depth_le_of_visits hw)
    rcases append_eq_append_cons hvs with ⟨after', hb⟩ | ⟨before', hr, rfl⟩
    · obtain ⟨g, hg, hlength⟩ := ihb hb
      refine ⟨g, hg, ?_⟩
      rw [hb, List.append_assoc, List.cons_append] at hvs
      obtain rfl := (List.cons.inj (List.append_cancel_left hvs)).2
      have hmem : v ∈ below.visits (depth + 1) (some slot) (slot + 1) := hb ▸ by simp
      have hdepth := Forest.depth_le_of_visits hmem
      rwa [Forest.takeWhile_append_visits _ (by omega)]
    · exact ihr hr

end Visits

/-! ### What is drawn below a circle -/

/-- Number of circles drawn below the one at a position: those right after it that are deeper. -/
def BubbleLayout.drawnBelow (layout : BubbleLayout) (i : Nat) : Nat :=
  match layout.bubbles[i]? with
  | none => 0
  | some b => ((layout.bubbles.toList.drop (i + 1)).takeWhile (b.depth < ·.depth)).length

/-- The radii of circles tell what is drawn below them. -/
structure BubbleLayout.Grown (ast : Ast) (config : LayoutConfig) (layout : BubbleLayout) :
    Prop where
  radius : ∀ (i : Nat) b, layout.bubbles[i]? = some b →
    b.r = nodeRadius config (layout.drawnBelow i)
  counted : ∀ (i : Nat) b, layout.bubbles[i]? = some b →
    descendantCount ast b.node = .ok (layout.drawnBelow i)
  bounded : ∀ (i : Nat) b, layout.bubbles[i]? = some b → layout.drawnBelow i < config.maxNodes
  root : ∀ b, layout.bubbles[0]? = some b → layout.drawnBelow 0 + 1 = layout.bubbles.size

section Layout

variable {ast : Ast} {config : LayoutConfig} {layout : BubbleLayout} {f : Forest NodeRef}
  {vs : List Visit} {i : Nat} {b : Bubble} {v : Visit}

theorem layoutBubbles_grows (h : (layoutBubbles ast config).outcome.value = .ok layout) :
    ∃ f, ast.Unfolds ast.root.toList f ∧ f.size ≤ config.maxNodes
      ∧ List.Forall₂ (Bubble.Grows ast config) layout.bubbles.toList (f.visits 0 none 0) := by
  obtain ⟨visits, p, hvisits, hp, hbubbles, -⟩ := exists_placing h
  obtain ⟨p', hp', hgrows⟩ := Placing.foldlM_ok hvisits
  rw [hp, Except.ok.injEq] at hp'
  obtain ⟨f, hf, -, hsize, hlist⟩ := preorder_ok hvisits
  rw [← hp', ← hbubbles, hlist] at hgrows
  exact ⟨f, hf, hsize, hgrows⟩

/-- What is drawn below a circle is what is visited below its visit. -/
theorem drawnBelow_eq (hshows : List.Forall₂ (Bubble.Shows ast) layout.bubbles.toList vs)
    (hv : vs[i]? = some v) :
    layout.drawnBelow i = ((vs.drop (i + 1)).takeWhile (v.depth < ·.depth)).length := by
  have hdepths : layout.bubbles.toList.map Bubble.depth = vs.map Visit.depth :=
    map_eq_map_of_forall₂ hshows fun _ _ => Bubble.Shows.depth_eq
  obtain ⟨b, hb, hbv⟩ := exists_bubble hshows hv
  calc layout.drawnBelow i
      = (((layout.bubbles.toList.map Bubble.depth).drop (i + 1)).takeWhile
          (b.depth < ·)).length := by
        rw [BubbleLayout.drawnBelow, hb, ← List.map_drop, List.takeWhile_map, List.length_map]
        rfl
    _ = ((vs.drop (i + 1)).takeWhile (v.depth < ·.depth)).length := by
        rw [hdepths, hbv.depth_eq, ← List.map_drop, List.takeWhile_map, List.length_map]
        rfl

/-- The circles drawn below a circle show what its node unfolds to. -/
theorem exists_below (hf : ast.Unfolds ast.root.toList f)
    (hshows : List.Forall₂ (Bubble.Shows ast) layout.bubbles.toList (f.visits 0 none 0))
    (hb : layout.bubbles[i]? = some b) :
    ∃ below, ast.Unfolds (ast.kids b.node) below ∧ layout.drawnBelow i = below.size
      ∧ below.size < f.size := by
  obtain ⟨v, hv, hbv⟩ := exists_visit hshows hb
  obtain ⟨hsplit, -⟩ := split_at hv
  obtain ⟨below, hbelow, hlength⟩ := hf.length_takeWhile_visits hsplit
  have hdrawn := drawnBelow_eq hshows hv
  have hle := (List.takeWhile_prefix (v.depth < ·.depth)
    (l := (f.visits 0 none 0).drop (i + 1))).length_le
  have hlt := (List.getElem?_eq_some_iff.1 hv).1
  rw [List.length_drop] at hle
  rw [Forest.length_visits] at hle hlt
  exact ⟨below, hbv.node_eq ▸ hbelow, hdrawn.trans hlength, by omega⟩

/-- Where a layout succeeds, the radius of a circle tells the number of circles below it, which is
the descendant count of its node. -/
theorem radii_of_layout (hword : config.maxNodes < UInt64.size)
    (h : (layoutBubbles ast config).outcome.value = .ok layout) : layout.Grown ast config := by
  obtain ⟨f, hf, hsize, hgrows⟩ := layoutBubbles_grows h
  have hshows := hgrows.imp fun _ _ => And.left
  have hcap : ∀ {below : Forest NodeRef}, below.size < f.size →
      min below.size DescendantCounter.cap = below.size := by
    intro below hlt
    rw [DescendantCounter.cap]
    omega
  refine ⟨fun i b hb => ?_, fun i b hb => ?_, fun i b hb => ?_, fun b hb => ?_⟩
  · obtain ⟨v, -, hshow, below, hbelow, hr⟩ := exists_of_forall₂ hgrows
      (by rw [Array.getElem?_toList, hb])
    obtain ⟨below', hbelow', hdrawn, hlt⟩ := exists_below hf hshows hb
    rw [hshow.node_eq] at hbelow'
    obtain rfl := hbelow.unique hbelow'
    rw [hr, hdrawn, hcap hlt]
  · obtain ⟨v, -, hnode, -, node, hn, -⟩ := exists_visit hshows hb
    obtain ⟨below, hbelow, hdrawn, hlt⟩ := exists_below hf hshows hb
    exact (DescendantCounter.exact_ofAst ast).count_ok_iff.2
      ⟨below, Ast.contains_iff.2 ⟨node, hnode ▸ hn⟩, hbelow, by rw [hdrawn, hcap hlt]⟩
  · obtain ⟨below, -, hdrawn, hlt⟩ := exists_below hf hshows hb
    exact hdrawn ▸ hlt.trans_le hsize
  · obtain ⟨v, hv, hbv⟩ := exists_visit hshows hb
    obtain ⟨below, hbelow, hdrawn, -⟩ := exists_below hf hshows hb
    rw [(first_visit hf hv).1, Option.toList_some] at hf
    obtain ⟨below', -, hbelow', rfl⟩ := Ast.unfolds_singleton_iff.1 hf
    rw [hbv.node_eq] at hbelow
    obtain rfl := hbelow.unique hbelow'
    rw [hdrawn, ← Array.length_toList, hshows.length_eq, Forest.length_visits, Forest.size_cons,
      Forest.size_nil, Nat.add_zero, Nat.add_comm 1]

end Layout

/-- The shared node grows by its leaf at both of its positions. -/
theorem radii_of_sharedAst :
    ∃ layout, (layoutBubbles sharedAst {}).outcome.value = .ok layout ∧ layout.Grown sharedAst {}
      ∧ (List.range 5).map layout.drawnBelow = [4, 1, 0, 1, 0] := by
  obtain ⟨layout, hlayout, hshows, -⟩ := @layoutBubbles_ok sharedAst {} _ preorder_sharedAst
  refine ⟨layout, hlayout, radii_of_layout (by decide) hlayout, ?_⟩
  simp only [List.range_succ_eq_map, List.range_zero, List.map_cons, List.map_nil,
    drawnBelow_eq hshows (i := 0) rfl, drawnBelow_eq hshows (i := 1) rfl,
    drawnBelow_eq hshows (i := 2) rfl, drawnBelow_eq hshows (i := 3) rfl,
    drawnBelow_eq hshows (i := 4) rfl]
  decide

end TreeAtlas
