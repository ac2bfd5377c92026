import TreeAtlas.Layout.Dump
import TreeAtlas.Proofs.Layout.Placing

/-!
# Links between circles

A visit carries the position of the visit it was reached from through everything that is walked in
between.  In the visits of a forest that position is the last one before that is a level higher
(`visits_split`), and the visits reached from one position are the children of the node there, in
order (`reachedFrom_slot`).  Both are told by the visits alone, so a node that is walked more than
once keeps its own children at each of its positions.

The walk itself is a recursion over the children of each node (`preorder_by_recursion`).  The links
of a layout are the visits that were reached from another one, and there are circles at both ends of
each.
-/

namespace TreeAtlas

theorem append_eq_append_cons {α : Type} {as bs before after : List α} {v : α}
    (h : as ++ bs = before ++ v :: after) :
    (∃ rest, as = before ++ v :: rest)
      ∨ ∃ between, bs = between ++ v :: after ∧ before = as ++ between := by
  rcases List.append_eq_append_iff.1 h with ⟨between, hbefore, hbs⟩ | ⟨tail, has, htail⟩
  · exact .inr ⟨between, hbs, hbefore⟩
  · rcases List.cons_eq_append_iff.1 htail with ⟨rfl, hbs⟩ | ⟨rest, rfl, -⟩
    · exact .inr ⟨[], by simpa using hbs, by simpa using has.symm⟩
    · exact .inl ⟨rest, has⟩

/-! ### Where a visit was reached from -/

/-- A visit that comes after the visits `before`, the first of them at position `slot`, was reached
from the last of them that is a level higher. -/
def Visit.Follows (slot : Nat) (before : List Visit) (v : Visit) : Prop :=
  ∃ above u between, before = above ++ u :: between ∧ v.parent = some (slot + above.length)
    ∧ v.depth = u.depth + 1 ∧ ∀ w ∈ between, v.depth ≤ w.depth

theorem Visit.Follows.append {slot : Nat} {before : List Visit} {v : Visit} (vs : List Visit)
    (h : v.Follows (slot + vs.length) before) : v.Follows slot (vs ++ before) := by
  obtain ⟨above, u, between, rfl, hparent, hdepth, hbetween⟩ := h
  refine ⟨vs ++ above, u, between, by simp, ?_, hdepth, hbetween⟩
  rw [hparent, List.length_append, Nat.add_assoc]

namespace Forest

variable {f : Forest NodeRef} {depth slot : Nat} {parent : Option Nat} {v : Visit}
  {before after : List Visit}

theorem depth_le_of_visits (hv : v ∈ f.visits depth parent slot) : depth ≤ v.depth := by
  induction f generalizing depth parent slot with
  | nil => cases hv
  | cons r below rest ihb ihr =>
    simp only [visits, List.mem_cons, List.mem_append] at hv
    rcases hv with rfl | hv | hv
    · exact Nat.le_refl _
    · exact (Nat.le_succ _).trans (ihb hv)
    · exact ihr hv

/-- A visit is one of the first trees, or follows those before it. -/
theorem visits_split (h : f.visits depth parent slot = before ++ v :: after) :
    (v.depth = depth ∧ v.parent = parent) ∨ v.Follows slot before := by
  induction f generalizing depth parent slot before after with
  | nil => simp [visits] at h
  | cons r below rest ihb ihr =>
    rw [visits] at h
    rcases List.cons_eq_append_iff.1 h with ⟨-, hv⟩ | ⟨before, rfl, hvs⟩
    · obtain ⟨rfl, -⟩ := List.cons.inj hv
      exact .inl ⟨rfl, rfl⟩
    rcases append_eq_append_cons hvs with ⟨after', hb⟩ | ⟨before', hr, rfl⟩
    · rcases ihb hb with ⟨hdepth, hparent⟩ | hfollows
      · refine .inr ⟨[], ⟨r, depth, parent⟩, before, rfl, hparent, hdepth, fun w hw => ?_⟩
        rw [hdepth]
        exact depth_le_of_visits (hb ▸ List.mem_append_left _ hw)
      · exact .inr (.append [⟨r, depth, parent⟩] hfollows)
    · have hslot : slot + 1 + below.size = slot
          + (⟨r, depth, parent⟩ :: below.visits (depth + 1) (some slot) (slot + 1)).length := by
        rw [List.length_cons, length_visits]
        omega
      rw [hslot] at hr
      exact (ihr hr).imp_right (.append _)

/-- Visits are reached from one another, except for the first trees. -/
theorem parent_of_visits (hv : v ∈ f.visits depth parent slot) :
    v.parent = parent ∨ ∃ q, v.parent = some q ∧ slot ≤ q ∧ q < slot + f.size := by
  obtain ⟨before, after, h⟩ := List.append_of_mem hv
  rcases visits_split h with ⟨-, hparent⟩ | ⟨above, u, between, rfl, hparent, -⟩
  · exact .inl hparent
  · have hlength := congrArg List.length h
    simp only [length_visits, List.length_append, List.length_cons] at hlength
    exact .inr ⟨_, hparent, by omega, by omega⟩

end Forest

/-! ### What was reached from a position -/

/-- The nodes of the visits that were reached from a position, in order. -/
def reachedFrom (p : Option Nat) (vs : List Visit) : List NodeRef :=
  (vs.filter (·.parent == p)).map Visit.node

variable {p : Option Nat}

@[simp] theorem reachedFrom_append (us vs : List Visit) :
    reachedFrom p (us ++ vs) = reachedFrom p us ++ reachedFrom p vs := by
  simp only [reachedFrom, List.filter_append, List.map_append]

theorem reachedFrom_cons (v : Visit) (vs : List Visit) :
    reachedFrom p (v :: vs) = (if v.parent = p then [v.node] else []) ++ reachedFrom p vs := by
  by_cases h : v.parent = p <;> simp [reachedFrom, h]

theorem reachedFrom_eq_nil {vs : List Visit} (h : ∀ v ∈ vs, v.parent ≠ p) :
    reachedFrom p vs = [] := by
  simpa [reachedFrom] using h

namespace Forest

variable {f : Forest NodeRef} {depth slot : Nat} {parent : Option Nat}

/-- Nothing is reached from elsewhere. -/
theorem reachedFrom_outside (hne : parent ≠ p)
    (hp : ∀ q, p = some q → q < slot ∨ slot + f.size ≤ q) :
    reachedFrom p (f.visits depth parent slot) = [] := by
  refine reachedFrom_eq_nil fun v hv h => ?_
  rcases parent_of_visits hv with hparent | ⟨q, hq, hle, hlt⟩
  · exact hne (hparent.symm.trans h)
  · have := hp q (h.symm.trans hq)
    omega

end Forest

namespace Ast

variable {ast : Ast} {rs : List NodeRef} {f : Forest NodeRef} {depth slot : Nat}
  {parent : Option Nat} {v : Visit} {before after : List Visit}

/-- The first trees are reached from the parent. -/
theorem Unfolds.reachedFrom_parent (h : ast.Unfolds rs f) (hp : ∀ q, parent = some q → q < slot) :
    reachedFrom parent (f.visits depth parent slot) = rs := by
  induction h generalizing slot with
  | nil => rfl
  | @cons r rs node below rest here children others ihb ihr =>
    have hbelow : reachedFrom parent (below.visits (depth + 1) (some slot) (slot + 1)) = [] := by
      refine Forest.reachedFrom_outside (fun h => ?_) fun q hq => ?_
      · exact absurd (hp slot h.symm) (Nat.lt_irrefl _)
      · exact .inl (Nat.lt_succ_of_lt (hp q hq))
    have hrest := @ihr (slot + 1 + below.size) fun q hq => by
      have := hp q hq
      omega
    simp [Forest.visits, reachedFrom_cons, hbelow, hrest]

/-- What is reached from a position is the children of the node there. -/
theorem Unfolds.reachedFrom_slot (h : ast.Unfolds rs f) (hp : ∀ q, parent = some q → q < slot)
    (hv : f.visits depth parent slot = before ++ v :: after) :
    reachedFrom (some (slot + before.length)) (f.visits depth parent slot) = ast.kids v.node := by
  induction h generalizing depth parent slot before after with
  | nil => simp [Forest.visits] at hv
  | @cons r rs node below rest here children others ihb ihr =>
    have hhead : ∀ q, slot ≤ q → parent ≠ some q := fun q hq h => by
      have := hp q h
      omega
    rw [Forest.visits] at hv ⊢
    rw [reachedFrom_cons, if_neg (hhead _ (Nat.le_add_right _ _)), List.nil_append,
      reachedFrom_append]
    rcases List.cons_eq_append_iff.1 hv with ⟨rfl, hv⟩ | ⟨before, rfl, hvs⟩
    · obtain ⟨rfl, -⟩ := List.cons.inj hv
      rw [kids_of_get? here, List.length_nil, Nat.add_zero,
        children.reachedFrom_parent (by rintro q ⟨⟩; omega),
        Forest.reachedFrom_outside (hhead _ (Nat.le_refl _)) (by rintro q ⟨⟩; omega),
        List.append_nil]
    rw [List.length_cons, show slot + (before.length + 1) = slot + 1 + before.length by omega]
    have hlength := congrArg List.length hvs
    simp only [List.length_append, Forest.length_visits, List.length_cons] at hlength
    rcases append_eq_append_cons hvs with ⟨after', hb⟩ | ⟨before', hr, rfl⟩
    · have hlt := congrArg List.length hb
      simp only [List.length_append, Forest.length_visits, List.length_cons] at hlt
      rw [ihb (by rintro q ⟨⟩; omega) hb,
        Forest.reachedFrom_outside (hhead _ (by omega)) (by rintro q ⟨⟩; omega), List.append_nil]
    · rw [List.length_append, Forest.length_visits, ← Nat.add_assoc,
        ihr (fun q hq => by have := hp q hq; omega) hr,
        Forest.reachedFrom_outside (by simp; omega) (by rintro q ⟨⟩; omega), List.nil_append]

end Ast

/-! ### Links -/

theorem linkBetween_eq_some {bubbles : Array Bubble} {source target : Nat}
    (hs : source < bubbles.size) (ht : target < bubbles.size) (number : Nat) :
    ∃ l, linkBetween bubbles number source target = some l ∧ l.source = source
      ∧ l.target = target := by
  rw [linkBetween, Array.getElem?_eq_getElem hs, Array.getElem?_eq_getElem ht]
  exact ⟨_, rfl, rfl, rfl⟩

/-- Where there are circles at all ends, there is a link for each pair of ends. -/
theorem map_ends_links {bubbles : Array Bubble} {ends : List (Nat × Nat)}
    (h : ∀ e ∈ ends, e.1 < bubbles.size ∧ e.2 < bubbles.size) (k : Nat) :
    ((ends.zipIdx k).filterMap fun ((source, target), number) =>
        linkBetween bubbles number source target).map (fun l => (l.source, l.target)) = ends := by
  induction ends generalizing k with
  | nil => rfl
  | cons e ends ih =>
    obtain ⟨hs, ht⟩ := h e List.mem_cons_self
    obtain ⟨l, hl, hsource, htarget⟩ := linkBetween_eq_some hs ht k
    simp only [List.zipIdx_cons, List.filterMap_cons, hl, List.map_cons, hsource, htarget]
    rw [ih fun e he => h e (List.mem_cons_of_mem _ he)]

/-- The far ends of what starts at a position are what was reached from there. -/
theorem map_node_linkEnds (vs : List Visit) (j : Nat) :
    ((linkEnds vs).filter (·.1 == j)).map (fun e => (vs[e.2]?).map Visit.node)
      = (reachedFrom (some j) vs).map some := by
  have key : ∀ slots : List (Visit × Nat), (∀ x ∈ slots, vs[x.2]? = some x.1) →
      ((slots.filterMap fun x => x.1.parent.map fun parent => (parent, x.2)).filter
          (·.1 == j)).map (fun e => (vs[e.2]?).map Visit.node)
        = (reachedFrom (some j) (slots.map Prod.fst)).map some := by
    intro slots h
    induction slots with
    | nil => rfl
    | cons x slots ih =>
      obtain ⟨v, slot⟩ := x
      have hv := h (v, slot) List.mem_cons_self
      have := ih fun x hx => h x (List.mem_cons_of_mem _ hx)
      rw [List.map_cons, reachedFrom_cons, List.map_append, ← this]
      cases hp : v.parent with
      | none => simp [hp]
      | some p => by_cases hpj : p = j <;> simp_all
  have := key vs.zipIdx fun x hx => List.mem_zipIdx_iff_getElem?.1 hx
  rwa [List.zipIdx_map_fst] at this

/-- Where every visit but the first was reached from another, there is an end for each of them. -/
theorem linkEnds_cons {v : Visit} (hv : v.parent = none) {vs : List Visit}
    (hvs : ∀ u ∈ vs, u.parent.isSome = true) :
    linkEnds (v :: vs) = (vs.zipIdx 1).map fun (u, slot) => (u.parent.getD 0, slot) := by
  rw [linkEnds, List.zipIdx_cons, List.filterMap_cons_none (by simp [hv]),
    List.filterMap_eq_map_iff_forall_eq_some.2]
  rintro ⟨u, slot⟩ hu
  obtain ⟨p, hp⟩ := Option.isSome_iff_exists.1 (hvs u (List.fst_mem_of_mem_zipIdx hu))
  simp [hp]

/-! ### The links of a tree -/

section Tree

variable {ast : Ast} {f : Forest NodeRef} {v : Visit} {before after : List Visit} {i : Nat}

/-- All but the first visit of a tree follow those before. -/
theorem follows_of_root (hf : ast.Unfolds ast.root.toList f)
    (h : f.visits 0 none 0 = before ++ v :: after) (hne : before ≠ []) : v.Follows 0 before := by
  cases hr : ast.root with
  | none =>
    rw [hr] at hf
    cases hf
    simp [Forest.visits] at h
  | some r =>
    rw [hr] at hf
    obtain ⟨below, -, -, rfl⟩ := Ast.unfolds_singleton_iff.1 hf
    simp only [Forest.visits, List.append_nil] at h
    rcases List.cons_eq_append_iff.1 h with ⟨rfl, -⟩ | ⟨before, rfl, hvs⟩
    · exact absurd rfl hne
    rcases Forest.visits_split hvs with ⟨hdepth, hparent⟩ | hfollows
    · refine ⟨[], ⟨r, 0, none⟩, before, rfl, hparent, hdepth, fun w hw => ?_⟩
      rw [hdepth]
      exact Forest.depth_le_of_visits (hvs ▸ List.mem_append_left _ hw)
    · exact .append [⟨r, 0, none⟩] hfollows

theorem split_at {vs : List Visit} (hv : vs[i]? = some v) :
    vs = vs.take i ++ v :: vs.drop (i + 1) ∧ (vs.take i).length = i := by
  obtain ⟨hlt, rfl⟩ := List.getElem?_eq_some_iff.1 hv
  rw [← List.drop_eq_getElem_cons, List.take_append_drop]
  exact ⟨rfl, List.length_take_of_le (Nat.le_of_lt hlt)⟩

theorem reachedFrom_at (hf : ast.Unfolds ast.root.toList f)
    (hv : (f.visits 0 none 0)[i]? = some v) :
    reachedFrom (some i) (f.visits 0 none 0) = ast.kids v.node := by
  obtain ⟨hsplit, hlen⟩ := split_at hv
  have := hf.reachedFrom_slot (by rintro q ⟨⟩) hsplit
  rwa [hlen, Nat.zero_add] at this

/-- The visit after the first `i + 1` and the position it was reached from. -/
theorem follows_at (hf : ast.Unfolds ast.root.toList f)
    (hv : (f.visits 0 none 0)[i + 1]? = some v) :
    ∃ s u, v.parent = some s ∧ s ≤ i ∧ (f.visits 0 none 0)[s]? = some u ∧ v.depth = u.depth + 1
      ∧ ∀ j w, s < j → j ≤ i → (f.visits 0 none 0)[j]? = some w → v.depth ≤ w.depth := by
  obtain ⟨hsplit, hlen⟩ := split_at hv
  obtain ⟨above, u, between, hbefore, hparent, hdepth, hbetween⟩ :=
    follows_of_root hf hsplit (by rintro h; rw [h] at hlen; cases hlen)
  rw [hbefore, List.length_append, List.length_cons] at hlen
  have hat : ∀ j, j ≤ i → (f.visits 0 none 0)[j]? = (above ++ u :: between)[j]? := fun j hj => by
    rw [← hbefore, List.getElem?_take_of_lt (Nat.lt_succ_of_le hj)]
  refine ⟨above.length, u, by rw [hparent, Nat.zero_add], by omega, ?_, hdepth,
    fun j w hs hj hw => ?_⟩
  · rw [hat _ (by omega)]
    simp
  · rw [hat j hj, List.getElem?_append_right (Nat.le_of_lt hs),
      show j - above.length = (j - above.length - 1) + 1 by omega, List.getElem?_cons_succ] at hw
    exact hbetween w (List.mem_of_getElem? hw)

/-! ### The walk -/

/-- The first visit of a tree is that of its root. -/
theorem first_visit (hf : ast.Unfolds ast.root.toList f)
    (hv : (f.visits 0 none 0)[0]? = some v) :
    ast.root = some v.node ∧ v.depth = 0 ∧ v.parent = none := by
  cases hr : ast.root with
  | none =>
    rw [hr] at hf
    cases hf
    cases hv
  | some r =>
    rw [hr] at hf
    obtain ⟨below, -, -, rfl⟩ := Ast.unfolds_singleton_iff.1 hf
    cases hv
    exact ⟨rfl, rfl, rfl⟩

/-- The walk gives what the recursion with a list of ancestors gives, visits and errors alike.  Each
visit but the first carries the position of the visit it was reached from, the last one before it
that is a level higher, and what was reached from a position is the children of the node there. -/
theorem preorder_by_recursion (ast : Ast) (maxDepth maxNodes : Nat) :
    preorder ast maxDepth maxNodes
        = Walk.descend ast maxDepth maxNodes 0 none [] #[] ast.root.toList
      ∧ ∀ visits, preorder ast maxDepth maxNodes = .ok visits →
        (∀ v, visits[0]? = some v → ast.root = some v.node ∧ v.depth = 0 ∧ v.parent = none)
        ∧ (∀ i v, visits[i + 1]? = some v →
            ∃ s u, v.parent = some s ∧ s ≤ i ∧ visits[s]? = some u ∧ v.depth = u.depth + 1
              ∧ ∀ j w, s < j → j ≤ i → visits[j]? = some w → v.depth ≤ w.depth)
        ∧ ∀ i v, visits[i]? = some v →
            reachedFrom (some i) visits.toList = ast.kids v.node := by
  refine ⟨preorder_eq_descent ast maxDepth maxNodes, fun visits h => ?_⟩
  obtain ⟨f, hf, -, -, hvisits⟩ := preorder_ok h
  simp only [← Array.getElem?_toList, hvisits]
  exact ⟨fun v => first_visit hf, fun i v => follows_at hf, fun i v => reachedFrom_at hf⟩

/-! ### The ends of links -/

theorem linkEnds_tree (hf : ast.Unfolds ast.root.toList f) :
    linkEnds (f.visits 0 none 0)
      = ((f.visits 0 none 0).tail.zipIdx 1).map fun (u, slot) => (u.parent.getD 0, slot) := by
  cases hvs : f.visits 0 none 0 with
  | nil => rfl
  | cons v vs =>
    refine linkEnds_cons ?_ fun u hu => ?_
    · have hfirst : f.visits 0 none 0 = [] ++ v :: vs := hvs
      rcases Forest.visits_split hfirst with ⟨-, h⟩ | ⟨above, u, between, h, -⟩
      · exact h
      · simp at h
    · obtain ⟨i, hi⟩ := List.getElem?_of_mem hu
      obtain ⟨s, -, hs, -⟩ := follows_at (i := i) hf (by rw [hvs, List.getElem?_cons_succ, hi])
      rw [hs]
      rfl

theorem length_linkEnds (hf : ast.Unfolds ast.root.toList f) :
    (linkEnds (f.visits 0 none 0)).length = f.size - 1 := by
  rw [linkEnds_tree hf]
  simp

/-- What the end at `i` says of the visit at `i + 1`. -/
theorem getElem?_linkEnds (hf : ast.Unfolds ast.root.toList f) {e : Nat × Nat}
    (h : (linkEnds (f.visits 0 none 0))[i]? = some e) :
    e.2 = i + 1 ∧ ∃ v, (f.visits 0 none 0)[i + 1]? = some v ∧ v.parent = some e.1 := by
  rw [linkEnds_tree hf, List.getElem?_map, List.getElem?_zipIdx, Option.map_map,
    Option.map_eq_some_iff] at h
  obtain ⟨v, hv, rfl⟩ := h
  rw [List.getElem?_tail] at hv
  obtain ⟨s, -, hs, -⟩ := follows_at hf hv
  exact ⟨Nat.add_comm _ _, v, hv, by simp [hs]⟩

theorem inside_of_mem_linkEnds {e : Nat × Nat} (he : e ∈ linkEnds (f.visits 0 none 0)) :
    e.1 < f.size ∧ e.2 < f.size := by
  obtain ⟨⟨v, slot⟩, hv, hend⟩ := List.mem_filterMap.1 he
  obtain ⟨p, hp, rfl⟩ := Option.map_eq_some_iff.1 hend
  have hslot := List.snd_lt_of_mem_zipIdx hv
  rw [Forest.length_visits] at hslot
  rcases Forest.parent_of_visits (List.fst_mem_of_mem_zipIdx hv) with h | ⟨q, hq, -, hlt⟩
  · rw [h] at hp
    cases hp
  · rw [hp] at hq
    cases hq
    exact ⟨by omega, by omega⟩

end Tree

/-! ### The links of a layout -/

/-- Each circle but the first is linked to the one it was reached from. -/
structure BubbleLayout.Linked (ast : Ast) (layout : BubbleLayout) : Prop where
  length_eq : layout.links.length = layout.bubbles.size - 1
  inside : ∀ l ∈ layout.links, l.source < layout.bubbles.size ∧ l.target < layout.bubbles.size
  /-- The source is the last circle before the target that is a level higher. -/
  ends : ∀ i l, layout.links[i]? = some l →
    l.target = i + 1 ∧ l.source ≤ i
      ∧ ∃ b p, layout.bubbles[i + 1]? = some b ∧ layout.bubbles[l.source]? = some p
        ∧ b.depth = p.depth + 1
        ∧ ∀ j q, l.source < j → j ≤ i → layout.bubbles[j]? = some q → b.depth ≠ q.depth + 1
  /-- What a circle is linked to shows the children of its node, in order. -/
  children : ∀ j b, layout.bubbles[j]? = some b → ∃ node, ast.get? b.node = some node
    ∧ (layout.links.filter (·.source == j)).map
        (fun l => (layout.bubbles[l.target]?).map Bubble.node) = node.children.map some
  /-- A dump finds the circles at the ends of every link. -/
  dumped : (LayoutDump.ofLayout layout).edges.length = layout.links.length

section Layout

variable {ast : Ast} {config : LayoutConfig} {layout : BubbleLayout} {vs : List Visit}

/-- A layout shows the unfolding of the root, and its links have the ends that the visits tell. -/
theorem layoutBubbles_shows (h : (layoutBubbles ast config).outcome.value = .ok layout) :
    ∃ f, ast.Unfolds ast.root.toList f
      ∧ List.Forall₂ (Bubble.Shows ast) layout.bubbles.toList (f.visits 0 none 0)
      ∧ layout.links.map (fun l => (l.source, l.target)) = linkEnds (f.visits 0 none 0) := by
  cases hp : preorder ast config.maxDepth config.maxNodes with
  | error e =>
    rw [layoutBubbles_error hp] at h
    cases h
  | ok visits =>
    obtain ⟨f, hf, -, -, hvisits⟩ := preorder_ok hp
    obtain ⟨layout', hlayout, hshows, hlinks⟩ := layoutBubbles_ok hp
    rw [h] at hlayout
    cases hlayout
    rw [hvisits] at hshows hlinks
    have hsize : layout.bubbles.size = f.size := by
      rw [← Array.length_toList, hshows.length_eq, Forest.length_visits]
    refine ⟨f, hf, hshows, ?_⟩
    rw [hlinks, map_ends_links]
    rw [hsize]
    exact fun e => inside_of_mem_linkEnds

theorem Bubble.Shows.node_eq {b : Bubble} {v : Visit} (h : b.Shows ast v) : b.node = v.node :=
  h.1

theorem Bubble.Shows.depth_eq {b : Bubble} {v : Visit} (h : b.Shows ast v) : b.depth = v.depth :=
  h.2.1

theorem exists_visit (h : List.Forall₂ (Bubble.Shows ast) layout.bubbles.toList vs) {i : Nat}
    {b : Bubble} (hb : layout.bubbles[i]? = some b) : ∃ v, vs[i]? = some v ∧ b.Shows ast v :=
  exists_of_forall₂ h (by rw [Array.getElem?_toList, hb])

theorem exists_bubble (h : List.Forall₂ (Bubble.Shows ast) layout.bubbles.toList vs) {i : Nat}
    {v : Visit} (hv : vs[i]? = some v) : ∃ b, layout.bubbles[i]? = some b ∧ b.Shows ast v := by
  obtain ⟨b, hb, hshows⟩ := exists_of_forall₂ h.flip hv
  exact ⟨b, by rw [← Array.getElem?_toList, hb], hshows⟩

theorem map_node_at (h : List.Forall₂ (Bubble.Shows ast) layout.bubbles.toList vs) (i : Nat) :
    (layout.bubbles[i]?).map Bubble.node = (vs[i]?).map Visit.node := by
  rw [← Array.getElem?_toList, ← List.getElem?_map, ← List.getElem?_map,
    map_eq_map_of_forall₂ h fun _ _ => Bubble.Shows.node_eq]

/-- A dump finds the circles at the ends of links that lie inside. -/
theorem length_dump_edges (h : ∀ l ∈ layout.links,
    l.source < layout.bubbles.size ∧ l.target < layout.bubbles.size) :
    (LayoutDump.ofLayout layout).edges.length = layout.links.length := by
  refine List.filterMap_length_eq_length.2 fun l hl => ?_
  obtain ⟨hs, ht⟩ := h l hl
  rw [LayoutDump.edge, Array.getElem?_eq_getElem hs, Array.getElem?_eq_getElem ht]
  rfl

theorem length_links (h : (layoutBubbles ast config).outcome.value = .ok layout) :
    layout.links.length = layout.bubbles.size - 1 := by
  obtain ⟨f, hf, hshows, hends⟩ := layoutBubbles_shows h
  rw [← Array.length_toList, hshows.length_eq, Forest.length_visits, ← length_linkEnds hf, ← hends,
    List.length_map]

/-- Links end at circles. -/
theorem inside_links (h : (layoutBubbles ast config).outcome.value = .ok layout) :
    ∀ l ∈ layout.links, l.source < layout.bubbles.size ∧ l.target < layout.bubbles.size := by
  obtain ⟨f, -, hshows, hends⟩ := layoutBubbles_shows h
  intro l hl
  rw [← Array.length_toList, hshows.length_eq, Forest.length_visits]
  exact inside_of_mem_linkEnds (hends ▸ List.mem_map_of_mem hl)

/-- A layout links each circle but the first, in order, to the one it was reached from. -/
theorem links_of_layout (h : (layoutBubbles ast config).outcome.value = .ok layout) :
    layout.Linked ast := by
  obtain ⟨f, hf, hshows, hends⟩ := layoutBubbles_shows h
  refine ⟨length_links h, inside_links h, ?_, ?_, length_dump_edges (inside_links h)⟩
  · intro i l hl
    have hend : (linkEnds (f.visits 0 none 0))[i]? = some (l.source, l.target) := by
      rw [← hends, List.getElem?_map, hl, Option.map_some]
    obtain ⟨htarget, v, hv, hparent⟩ := getElem?_linkEnds hf hend
    obtain ⟨s, u, hs, hle, hu, hdepth, hbetween⟩ := follows_at hf hv
    obtain rfl : s = l.source := Option.some.inj (hs.symm.trans hparent)
    refine ⟨htarget, hle, ?_⟩
    obtain ⟨b, hb, hbv⟩ := exists_bubble hshows hv
    obtain ⟨p, hp, hpu⟩ := exists_bubble hshows hu
    refine ⟨b, p, hb, hp, by rw [hbv.depth_eq, hpu.depth_eq, hdepth], fun j q hlt hj hq => ?_⟩
    obtain ⟨w, hw, hqw⟩ := exists_visit hshows hq
    have := hbetween j w hlt hj hw
    rw [hbv.depth_eq, hqw.depth_eq]
    omega
  · intro j b hb
    obtain ⟨v, hv, hbv⟩ := exists_visit hshows hb
    obtain ⟨hnode, -, node, hn, -⟩ := hbv
    refine ⟨node, by rw [hnode, hn], ?_⟩
    calc (layout.links.filter (·.source == j)).map
          (fun l => (layout.bubbles[l.target]?).map Bubble.node)
        = ((linkEnds (f.visits 0 none 0)).filter (·.1 == j)).map
            (fun e => ((f.visits 0 none 0)[e.2]?).map Visit.node) := by
          rw [← hends, List.filter_map, List.map_map]
          simp only [Function.comp_def, map_node_at hshows]
      _ = (reachedFrom (some j) (f.visits 0 none 0)).map some := map_node_linkEnds _ _
      _ = node.children.map some := by rw [reachedFrom_at hf hv, Ast.kids_of_get? hn]

end Layout

/-- A root whose two sides are one node with a leaf below. -/
def sharedAst : Ast where
  nodes :=
    #[{ kind := some "shared", shape := .children [⟨1⟩] }, { kind := some "leaf" },
      { kind := some "root", shape := .binary ⟨0⟩ ⟨0⟩ }]
  root := some ⟨2⟩

theorem preorder_sharedAst :
    preorder sharedAst 512 100000 = .ok
      #[⟨⟨2⟩, 0, none⟩, ⟨⟨0⟩, 1, some 0⟩, ⟨⟨1⟩, 2, some 1⟩, ⟨⟨0⟩, 1, some 0⟩,
        ⟨⟨1⟩, 2, some 3⟩] := by
  decide +kernel

/-- The shared node is linked to its leaf at both of its positions. -/
theorem links_of_sharedAst :
    ∃ layout, (layoutBubbles sharedAst {}).outcome.value = .ok layout ∧ layout.Linked sharedAst
      ∧ layout.links.map (fun l => (l.source, l.target)) = [(0, 1), (1, 2), (0, 3), (3, 4)] := by
  obtain ⟨layout, hlayout, hshows, hlinks⟩ := @layoutBubbles_ok sharedAst {} _ preorder_sharedAst
  have hsize : layout.bubbles.size = 5 := hshows.length_eq
  refine ⟨layout, hlayout, links_of_layout hlayout, ?_⟩
  rw [hlinks, map_ends_links]
  · rfl
  · rw [hsize]
    decide

end TreeAtlas
