import TreeAtlas.Proofs.Layout.OfDocument

/-!
# Layouts and the numbering of nodes

Two trees that unfold alike are laid out alike, however their nodes are numbered and shared.  What
relates them is a map that folds one onto the other and keeps identifiers, types and lists of
children (`Ast.Folds`).  Below the root, what unfolds on one side is the image of what unfolds on
the other (`Folds.unfolds_map`, `Folds.exists_unfolds`), so both walks succeed together and visit
the same places.  The runs that place the items then go side by side: they agree in all but the
references, and though the counters know of different nodes, each of them is exact.
-/

namespace TreeAtlas

/-! ### Folding one tree onto another -/

/-- Reached from the root. -/
def Ast.Inside (ast : Ast) (n : NodeRef) : Prop :=
  ∃ r ∈ ast.root, ast.Reaches r n

/-- Below the root of `b`, `f` leads to nodes of `a` with the same identifier and type and, one by
one, with the images of the children. -/
structure Ast.Folds (b a : Ast) (f : NodeRef → NodeRef) : Prop where
  root : a.root = b.root.map f
  node : ∀ n, b.Inside n →
    (a.get? (f n)).map (fun node => (node.id, node.kind, node.children))
      = (b.get? n).map fun node => (node.id, node.kind, node.children.map f)

namespace Ast

variable {a b : Ast} {f : NodeRef → NodeRef} {r n : NodeRef} {rs : List NodeRef}
  {g : Forest NodeRef}

theorem Inside.tail (h : b.Inside n) {k : NodeRef} (hk : k ∈ b.kids n) : b.Inside k := by
  obtain ⟨r, hr, hn⟩ := h
  exact ⟨r, hr, hn.tail hk⟩

theorem inside_root : ∀ r ∈ b.root.toList, b.Inside r :=
  fun r hr => ⟨r, Option.mem_toList.1 hr, .refl⟩

namespace Folds

theorem root_toList (h : b.Folds a f) : a.root.toList = b.root.toList.map f := by
  rw [h.root]
  cases b.root <;> rfl

/-- A node and its image. -/
theorem get?_map (h : b.Folds a f) (hn : b.Inside n) {node : AstNode} (hb : b.get? n = some node) :
    ∃ node', a.get? (f n) = some node' ∧ node'.id = node.id ∧ node'.kind = node.kind
      ∧ node'.children = node.children.map f := by
  have hnode := h.node n hn
  rw [hb, Option.map_some, Option.map_eq_some_iff] at hnode
  obtain ⟨node', ha, heq⟩ := hnode
  rw [Prod.mk.injEq, Prod.mk.injEq] at heq
  exact ⟨node', ha, heq⟩

theorem get?_of_map (h : b.Folds a f) (hn : b.Inside n) {node' : AstNode}
    (ha : a.get? (f n) = some node') : ∃ node, b.get? n = some node := by
  have hnode := h.node n hn
  rw [ha, Option.map_some, eq_comm, Option.map_eq_some_iff] at hnode
  obtain ⟨node, hb, -⟩ := hnode
  exact ⟨node, hb⟩

/-- The image of what unfolds. -/
theorem unfolds_map (h : b.Folds a f) (hg : b.Unfolds rs g) (hrs : ∀ r ∈ rs, b.Inside r) :
    a.Unfolds (rs.map f) (g.map f) := by
  induction hg with
  | nil => exact .nil
  | @cons r rs node below rest here _ _ ihc iho =>
    have hr := hrs r List.mem_cons_self
    obtain ⟨node', here', -, -, hchildren⟩ := h.get?_map hr here
    refine .cons here' ?_ (iho fun k hk => hrs k (List.mem_cons_of_mem _ hk))
    rw [hchildren]
    refine ihc fun k hk => hr.tail ?_
    rwa [kids_of_get? here]

/-- What unfolds on the other side is such an image. -/
theorem exists_unfolds (h : b.Folds a f) {rs' : List NodeRef} {g' : Forest NodeRef}
    (hg : a.Unfolds rs' g') (hrs' : rs' = rs.map f) (hrs : ∀ r ∈ rs, b.Inside r) :
    ∃ g, b.Unfolds rs g ∧ g.map f = g' := by
  induction hg generalizing rs with
  | nil =>
    rw [eq_comm, List.map_eq_nil_iff] at hrs'
    subst hrs'
    exact ⟨.nil, .nil, rfl⟩
  | cons here' _ _ ihc iho =>
    rcases rs with _ | ⟨r, rs⟩
    · cases hrs'
    rw [List.map_cons, List.cons.injEq] at hrs'
    obtain ⟨rfl, hrest⟩ := hrs'
    have hr := hrs r List.mem_cons_self
    obtain ⟨node, here⟩ := h.get?_of_map hr here'
    obtain ⟨node', here'', -, -, hchildren⟩ := h.get?_map hr here
    rw [here', Option.some.injEq] at here''
    subst here''
    obtain ⟨below, hbelow, hbmap⟩ := ihc hchildren fun k hk => hr.tail (by rwa [kids_of_get? here])
    obtain ⟨rest, hrest, hrmap⟩ := iho hrest fun k hk => hrs k (List.mem_cons_of_mem _ hk)
    exact ⟨.cons r below rest, .cons here hbelow hrest, by rw [Forest.map, hbmap, hrmap]⟩

/-- Counters of both sides give one answer, whatever they were asked before. -/
theorem count_eq (h : b.Folds a f) (hn : b.Inside n) (hs : b.Sound n) {c c' : DescendantCounter}
    (hc : c.Exact b) (hc' : c'.Exact a) :
    ∃ k, (c.count b n).2 = .ok k ∧ (c'.count a (f n)).2 = .ok k := by
  obtain ⟨g, hg⟩ := hs.exists_unfolds
  obtain ⟨below, hcontains, hbelow, rfl⟩ := unfolds_singleton_iff.1 hg
  have hmap := h.unfolds_map hg (by simpa using hn)
  obtain ⟨below', hcontains', hbelow', heq⟩ := unfolds_singleton_iff.1 hmap
  rw [Forest.map, Forest.cons.injEq] at heq
  obtain ⟨-, rfl, -⟩ := heq
  refine ⟨_, hc.count_ok_iff.2 ⟨below, hcontains, hbelow, rfl⟩,
    hc'.count_ok_iff.2 ⟨_, hcontains', hbelow', ?_⟩⟩
  rw [Forest.size_map]

end Folds

end Ast

/-! ### Renaming nodes -/

section Rename

variable (f : NodeRef → NodeRef)

def Visit.rename (v : Visit) : Visit :=
  { v with node := f v.node }

def Bubble.rename (b : Bubble) : Bubble :=
  { b with node := f b.node }

/-- The layout with other references, and nothing else changed. -/
def BubbleLayout.rename (layout : BubbleLayout) : BubbleLayout :=
  { layout with bubbles := layout.bubbles.map (Bubble.rename f) }

def OutlineRow.rename (row : OutlineRow) : OutlineRow :=
  { row with node := f row.node }

/-- The outline with other references, and nothing else changed. -/
def Outline.rename (outline : Outline) : Outline :=
  { outline with rows := outline.rows.map (OutlineRow.rename f) }

theorem Forest.visits_map (g : Forest NodeRef) (depth : Nat) (parent : Option Nat) (slot : Nat) :
    (g.map f).visits depth parent slot = (g.visits depth parent slot).map (Visit.rename f) := by
  induction g generalizing depth parent slot with
  | nil => rfl
  | cons r below rest ihb ihr =>
    rw [Forest.map, visits, visits, List.map_cons, List.map_append, ihb, ihr, Forest.size_map]
    rfl

theorem linkEnds_rename (visits : List Visit) :
    linkEnds (visits.map (Visit.rename f)) = linkEnds visits := by
  rw [linkEnds, List.zipIdx_map, List.filterMap_map, linkEnds]
  rfl

theorem linkBetween_rename (bubbles : Array Bubble) (number source target : Nat) :
    linkBetween (bubbles.map (Bubble.rename f)) number source target
      = linkBetween bubbles number source target := by
  unfold linkBetween
  rw [Array.getElem?_map, Array.getElem?_map]
  rcases bubbles[source]? with _ | parent
  · rfl
  rcases bubbles[target]? with _ | child
  · rfl
  rfl

end Rename

/-! ### Two runs side by side -/

/-- Runs over renamed visits stay related where each step keeps them related. -/
theorem foldlM_side_by_side {σ τ ε : Type} (place : σ → Visit → Except ε σ)
    (place' : τ → Visit → Except ε τ) (f : NodeRef → NodeRef) (Alike : σ → τ → Prop)
    {vs : List Visit}
    (hplace : ∀ v ∈ vs, ∀ p p', Alike p p' → ∃ q q', place p v = .ok q
      ∧ place' p' (v.rename f) = .ok q' ∧ Alike q q')
    {p : σ} {p' : τ} (hp : Alike p p') :
    ∃ q q', vs.foldlM place p = .ok q ∧ (vs.map (Visit.rename f)).foldlM place' p' = .ok q'
      ∧ Alike q q' := by
  induction vs generalizing p p' with
  | nil => exact ⟨p, p', rfl, rfl, hp⟩
  | cons v vs ih =>
    obtain ⟨p₁, p₁', hp₁, hp₁', halike⟩ := hplace v List.mem_cons_self p p' hp
    obtain ⟨q, q', hq, hq', halike'⟩ :=
      ih (fun u hu => hplace u (List.mem_cons_of_mem _ hu)) halike
    refine ⟨q, q', ?_, ?_, halike'⟩
    · rw [List.foldlM_cons, hp₁]
      exact hq
    · rw [List.map_cons, List.foldlM_cons, hp₁']
      exact hq'

/-- The same circles but for their references, by counters that are both exact. -/
structure Placing.Alike (a b : Ast) (f : NodeRef → NodeRef) (p p' : Placing) : Prop where
  sizes : p'.sizes = p.sizes
  counter : p.counter.Exact b
  counter' : p'.counter.Exact a
  bubbles : p'.bubbles = p.bubbles.map (Bubble.rename f)

/-- The same rows but for their references, and the same knowledge of the font. -/
structure RowPlacing.Alike (f : NodeRef → NodeRef) (p p' : RowPlacing) : Prop where
  rows : p'.rows = p.rows.map (OutlineRow.rename f)
  rightEdge : p'.rightEdge = p.rightEdge
  measurer : p'.measurer = p.measurer

section SideBySide

variable {a b : Ast} {f : NodeRef → NodeRef} {v : Visit} {limits : LayoutConfig}

theorem placingAlike_ofAst (a b : Ast) (f : NodeRef → NodeRef) :
    Placing.Alike a b f { counter := .ofAst b } { counter := .ofAst a } :=
  ⟨rfl, DescendantCounter.exact_ofAst b, DescendantCounter.exact_ofAst a, Array.map_empty.symm⟩

theorem rowPlacingAlike_nil (f : NodeRef → NodeRef) : RowPlacing.Alike f {} {} :=
  ⟨Array.map_empty.symm, rfl, rfl⟩

theorem label_eq {node node' : AstNode} (h : node'.kind = node.kind) :
    node'.label = node.label := by
  rw [AstNode.label, h, AstNode.label]

theorem Placing.Alike.place (h : b.Folds a f) (hn : b.Inside v.node) (hs : b.Sound v.node)
    {p p' : Placing} (hp : Placing.Alike a b f p p') :
    ∃ q q', p.place b limits v = .ok q ∧ p'.place a limits (v.rename f) = .ok q'
      ∧ Placing.Alike a b f q q' := by
  obtain ⟨node, hnode⟩ := Ast.contains_iff.1 hs.contains
  obtain ⟨node', hnode', hid, hkind, -⟩ := h.get?_map hn hnode
  obtain ⟨k, hk, hk'⟩ := h.count_eq hn hs hp.counter hp.counter'
  have hexact := (hp.counter.count v.node).1
  have hexact' := (hp.counter'.count (f v.node)).1
  rcases hc : p.counter.count b v.node with ⟨c, answer⟩
  rcases hc' : p'.counter.count a (f v.node) with ⟨c', answer'⟩
  rw [hc] at hk hexact
  rw [hc'] at hk' hexact'
  obtain rfl : answer = .ok k := hk
  obtain rfl : answer' = .ok k := hk'
  simp only [Placing.place, Visit.rename, hnode, hnode', hc, hc', hid, label_eq hkind, hp.sizes]
  refine ⟨_, _, rfl, rfl, rfl, hexact, hexact', ?_⟩
  rw [hp.bubbles, Array.map_push]
  rfl

theorem RowPlacing.Alike.place (lib : FontLibrary) (config : TreeConfig) (family : String)
    (h : b.Folds a f) (hn : b.Inside v.node) (hs : b.Sound v.node) {p p' : RowPlacing}
    (hp : RowPlacing.Alike f p p') :
    ∃ q q', p.place lib b config family v = .ok q
      ∧ p'.place lib a config family (v.rename f) = .ok q' ∧ RowPlacing.Alike f q q' := by
  obtain ⟨node, hnode⟩ := Ast.contains_iff.1 hs.contains
  obtain ⟨node', hnode', hid, hkind, hchildren⟩ := h.get?_map hn hnode
  have hsize : p'.rows.size = p.rows.size := by
    rw [hp.rows, Array.size_map]
  simp only [RowPlacing.place, Visit.rename, hnode, hnode', hid, label_eq hkind, hchildren,
    List.length_map, hsize, hp.measurer, hp.rightEdge]
  refine ⟨_, _, rfl, rfl, ?_, rfl, rfl⟩
  rw [hp.rows, Array.map_push]
  rfl

/-- Both walks succeed together and visit the same places. -/
theorem Ast.Folds.preorder_ok (h : b.Folds a f) {maxDepth maxNodes : Nat} {visits : Array Visit}
    (hp : preorder a maxDepth maxNodes = .ok visits) :
    ∃ visits', preorder b maxDepth maxNodes = .ok visits'
      ∧ visits.toList = visits'.toList.map (Visit.rename f)
      ∧ ∀ v ∈ visits'.toList, b.Inside v.node ∧ b.Sound v.node := by
  obtain ⟨g', hg', hlevels, hsize, hvisits⟩ := TreeAtlas.preorder_ok hp
  obtain ⟨g, hg, rfl⟩ := h.exists_unfolds hg' h.root_toList Ast.inside_root
  rw [Forest.levels_map] at hlevels
  rw [Forest.size_map] at hsize
  obtain ⟨visits', hp'⟩ := (preorder_ok_iff_of_unfolds hg).2
    ⟨Nat.sub_le_iff_le_add.2 hlevels, hsize⟩
  obtain ⟨g₁, hg₁, -, -, hvisits'⟩ := TreeAtlas.preorder_ok hp'
  rw [hg₁.unique hg] at hvisits'
  refine ⟨visits', hp', ?_, fun v hv => ⟨?_, sound_of_preorder hp' hv⟩⟩
  · rw [hvisits, hvisits', Forest.visits_map]
  · rw [hvisits'] at hv
    obtain ⟨r, hr, hreach⟩ := hg.reaches_of_visits hv
    exact ⟨r, Option.mem_toList.1 hr, hreach⟩

theorem Ast.Folds.layoutBubbles (h : b.Folds a f) {layout : BubbleLayout}
    (ha : (TreeAtlas.layoutBubbles a limits).outcome.value = .ok layout) :
    ∃ layout', (TreeAtlas.layoutBubbles b limits).outcome.value = .ok layout'
      ∧ layout'.rename f = layout := by
  cases hp : preorder a limits.maxDepth limits.maxNodes with
  | error e =>
    rw [layoutBubbles_error hp] at ha
    cases ha
  | ok visits =>
    obtain ⟨visits', hp', hvisits, hinside⟩ := h.preorder_ok hp
    obtain ⟨q, q', hq, hq', halike⟩ := foldlM_side_by_side (Placing.place b limits)
      (Placing.place a limits) f (Placing.Alike a b f)
      (fun v hv p p' hp => hp.place h (hinside v hv).1 (hinside v hv).2)
      (placingAlike_ofAst a b f)
    rw [TreeAtlas.layoutBubbles, Attempt.value_reported, bubbleLayout, hp] at ha
    rw [TreeAtlas.layoutBubbles, Attempt.value_reported, bubbleLayout, hp']
    simp only [bind, Except.bind, hvisits, hq', linkEnds_rename, halike.sizes, halike.bubbles,
      linkBetween_rename, pure, Except.pure, Except.ok.injEq] at ha
    simp only [bind, Except.bind, hq]
    exact ⟨_, rfl, ha⟩

theorem Ast.Folds.layoutOutline (lib : FontLibrary) (tree : TreeConfig) (family : String)
    (h : b.Folds a f) {outline : Outline}
    (ha : (TreeAtlas.layoutOutline lib a tree limits family).outcome.value = .ok outline) :
    ∃ outline', (TreeAtlas.layoutOutline lib b tree limits family).outcome.value = .ok outline'
      ∧ outline'.rename f = outline := by
  cases hp : preorder a limits.maxDepth limits.maxNodes with
  | error e =>
    rw [layoutOutline_error lib tree family hp] at ha
    cases ha
  | ok visits =>
    obtain ⟨visits', hp', hvisits, hinside⟩ := h.preorder_ok hp
    obtain ⟨q, q', hq, hq', halike⟩ := foldlM_side_by_side (RowPlacing.place lib b tree family)
      (RowPlacing.place lib a tree family) f (RowPlacing.Alike f)
      (fun v hv p p' hp => hp.place lib tree family h (hinside v hv).1 (hinside v hv).2)
      (rowPlacingAlike_nil f)
    have hempty : visits'.isEmpty = visits.isEmpty := by
      rw [← Array.isEmpty_toList, ← Array.isEmpty_toList, hvisits, List.isEmpty_map]
    rw [TreeAtlas.layoutOutline, Attempt.value_bind, Attempt.value_ofExcept, hp] at ha
    rw [TreeAtlas.layoutOutline, Attempt.value_bind, Attempt.value_ofExcept, hp']
    simp only [Except.bind] at ha ⊢
    rw [hempty]
    by_cases hv : visits.isEmpty = true
    · rw [if_pos hv] at ha ⊢
      cases ha
      exact ⟨_, Attempt.value_pure _, congrArg (Outline.mk · _ _) Array.map_empty⟩
    · rw [if_neg hv, Attempt.value_bind, Attempt.value_ofExcept] at ha ⊢
      rw [hvisits, hq'] at ha
      rw [hq]
      cases ha
      refine ⟨_, rfl, ?_⟩
      simp only [RowPlacing.outline, Outline.rename, halike.rows, halike.rightEdge, Array.size_map]

end SideBySide

/-! ### Other arrays with the same unfolding -/

/-- Where `a` is laid out, `b` is laid out in the same way, with references that lead to those
of `a`. -/
structure Ast.LaidOutAs (b a : Ast) (f : NodeRef → NodeRef) : Prop where
  bubbles : ∀ limits layout, (layoutBubbles a limits).outcome.value = .ok layout →
    ∃ layout', (layoutBubbles b limits).outcome.value = .ok layout' ∧ layout'.rename f = layout
  outline : ∀ lib tree limits family outline,
    (layoutOutline lib a tree limits family).outcome.value = .ok outline →
      ∃ outline', (layoutOutline lib b tree limits family).outcome.value = .ok outline'
        ∧ outline'.rename f = outline

/-- A shape with other references, by their places. -/
def ChildShape.renameAt (g : Nat → NodeRef → NodeRef) : ChildShape → ChildShape
  | .leaf => .leaf
  | .children refs => .children (refs.mapIdx g)
  | .body refs => .body (refs.mapIdx g)
  | .binary left right => .binary (g 0 left) (g 1 right)

def AstNode.renameAt (g : Nat → NodeRef → NodeRef) (node : AstNode) : AstNode :=
  { node with shape := node.shape.renameAt g }

/-- `b` has at `σ r` what `a` has at `r`. -/
structure Ast.Renumbers (b a : Ast) (σ : Equiv.Perm NodeRef) : Prop where
  root : b.root = a.root.map σ
  node : ∀ r, b.get? (σ r) = (a.get? r).map (AstNode.renameAt fun _ => σ)

/-- More nodes behind the others. -/
def Ast.extend (a : Ast) (nodes : Array AstNode) : Ast :=
  { a with nodes := a.nodes ++ nodes }

/-- Every node twice. The references that `apart` picks, by their node and place, lead to the
second copies. -/
def Ast.duplicate (a : Ast) (apart : NodeRef → Nat → Bool) : Ast where
  nodes := (a.nodes ++ a.nodes).mapIdx fun i node =>
    node.renameAt fun place k => if apart ⟨i⟩ place then ⟨a.size + k.index⟩ else k
  root := a.root

/-- The node of which there is a copy. -/
def Ast.original (a : Ast) (r : NodeRef) : NodeRef :=
  if r.index < a.size then r else ⟨r.index - a.size⟩

section Same

variable {a b : Ast} {f : NodeRef → NodeRef}

/-- Places are renamed and named back. -/
theorem map_mapIdx_eq_self {α : Type} {f : α → α} {g : Nat → α → α} {l : List α}
    (h : ∀ place (k : α), l[place]? = some k → f (g place k) = k) : (l.mapIdx g).map f = l := by
  refine List.ext_getElem? fun place => ?_
  rw [List.getElem?_map, List.getElem?_mapIdx, Option.map_map]
  cases hk : l[place]? with
  | none => rfl
  | some k => exact congrArg some (h place k hk)

@[simp] theorem AstNode.children_renameAt (g : Nat → NodeRef → NodeRef) (node : AstNode) :
    (node.renameAt g).children = node.children.mapIdx g := by
  unfold AstNode.children AstNode.renameAt ChildShape.renameAt
  rcases node.shape with _ | refs | refs | ⟨left, right⟩ <;> rfl

theorem Ast.Folds.laidOutAs (h : b.Folds a f) : b.LaidOutAs a f :=
  ⟨fun _ _ ha => h.layoutBubbles ha,
    fun lib tree _ family _ ha => h.layoutOutline lib tree family ha⟩

/-- Only trees with a sound root are laid out. -/
theorem Ast.laidOutAs_of_sound (h : (∀ r ∈ a.root, a.Sound r) → b.Folds a f) :
    b.LaidOutAs a f := by
  have hfolds : ∀ {maxDepth maxNodes : Nat} {visits : Array Visit},
      preorder a maxDepth maxNodes = .ok visits → b.Folds a f := by
    intro maxDepth maxNodes visits hp
    obtain ⟨g, hg, -⟩ := preorder_ok hp
    exact h fun r hr => hg.sound r (Option.mem_toList.2 hr)
  constructor
  · intro limits layout ha
    cases hp : preorder a limits.maxDepth limits.maxNodes with
    | error e =>
      rw [layoutBubbles_error hp] at ha
      cases ha
    | ok visits => exact (hfolds hp).layoutBubbles ha
  · intro lib tree limits family outline ha
    cases hp : preorder a limits.maxDepth limits.maxNodes with
    | error e =>
      rw [layoutOutline_error lib tree family hp] at ha
      cases ha
    | ok visits => exact (hfolds hp).layoutOutline lib tree family ha

/-- It is enough that nodes of a kind have images and lead to nodes of the kind. -/
theorem Ast.folds_of_closed (Good : NodeRef → Prop) (hroot : a.root = b.root.map f)
    (hgood : ∀ r ∈ b.root, Good r)
    (hnode : ∀ n, Good n → (∀ k ∈ b.kids n, Good k)
      ∧ (a.get? (f n)).map (fun node => (node.id, node.kind, node.children))
        = (b.get? n).map fun node => (node.id, node.kind, node.children.map f)) :
    b.Folds a f := by
  refine ⟨hroot, ?_⟩
  rintro n ⟨r, hr, hn⟩
  refine (hnode n ?_).2
  induction hn with
  | refl => exact hgood r hr
  | tail _ hk ih => exact (hnode _ ih).1 _ hk

theorem Ast.Renumbers.folds {σ : Equiv.Perm NodeRef} (h : b.Renumbers a σ) :
    b.Folds a σ.symm := by
  refine folds_of_closed (fun _ => True) ?_ (fun _ _ => trivial) fun n _ =>
    ⟨fun _ _ => trivial, ?_⟩
  · rw [h.root]
    cases a.root <;> simp
  · obtain ⟨r, rfl⟩ := σ.surjective n
    rw [h.node, σ.symm_apply_apply]
    rcases a.get? r with _ | node
    · rfl
    rw [Option.map_some, Option.map_some, Option.map_some, AstNode.children_renameAt,
      map_mapIdx_eq_self fun _ k _ => σ.symm_apply_apply k]
    rfl

theorem Ast.folds_extend (extra : Array AstNode) (h : ∀ r ∈ a.root, a.Sound r) :
    (a.extend extra).Folds a id := by
  have hget : ∀ n, a.Inside n → (a.extend extra).get? n = a.get? n := by
    rintro n ⟨r, hr, hn⟩
    have hlt := (h r hr n hn).1
    rw [Ast.get?, Ast.extend, Array.getElem?_append_left (by simpa [Ast.contains] using hlt),
      Ast.get?]
  refine folds_of_closed a.Inside (by simp [Ast.extend]) (fun r hr => ⟨r, hr, .refl⟩) fun n hn => ?_
  rw [Ast.kids, hget n hn, List.map_id_fun]
  exact ⟨fun k hk => hn.tail hk, rfl⟩

theorem Ast.original_of_contains {r : NodeRef} (h : a.contains r = true) : a.original r = r :=
  if_pos (by simpa [Ast.contains, Ast.size] using h)

theorem Ast.original_copy (r : NodeRef) : a.original ⟨a.size + r.index⟩ = r := by
  rw [original, if_neg (by simp)]
  simp

/-- A copy has the references of its original, each to the same node or to a copy of it. -/
theorem Ast.get?_duplicate (a : Ast) (apart : NodeRef → Nat → Bool) (n : NodeRef) :
    (a.duplicate apart).get? n = (a.get? (a.original n)).map
      (AstNode.renameAt fun place k => if apart n place then ⟨a.size + k.index⟩ else k) := by
  unfold Ast.get? duplicate original Ast.size
  rw [Array.getElem?_mapIdx, Array.getElem?_append]
  by_cases hlt : n.index < a.nodes.size
  · rw [if_pos hlt, if_pos hlt]
  · rw [if_neg hlt, if_neg hlt]

theorem Ast.folds_duplicate (apart : NodeRef → Nat → Bool) (h : ∀ r ∈ a.root, a.Sound r) :
    (a.duplicate apart).Folds a a.original := by
  have hinside : ∀ n, a.Inside n → a.contains n = true := by
    rintro n ⟨r, hr, hn⟩
    exact (h r hr n hn).1
  have hroot : ∀ r ∈ a.root, a.original r = r := fun r hr =>
    original_of_contains (h r hr).contains
  refine folds_of_closed (fun n => a.Inside (a.original n)) ?_ (fun r hr => ?_) fun n hn => ?_
  · rw [duplicate]
    cases hr : a.root with
    | none => rfl
    | some r => rw [Option.map_some, hroot r hr]
  · exact ⟨r, hr, by rw [hroot r hr]⟩
  obtain ⟨node, hnode⟩ := contains_iff.1 (hinside _ hn)
  have hget := a.get?_duplicate apart n
  rw [hnode, Option.map_some] at hget
  have horiginal : ∀ place k, node.children[place]? = some k →
      a.original (if apart n place then ⟨a.size + k.index⟩ else k) = k := by
    intro place k hk
    have hk := hinside k (hn.tail (by rw [kids_of_get? hnode]; exact List.mem_of_getElem? hk))
    split_ifs
    · exact original_copy k
    · exact original_of_contains hk
  rw [kids_of_get? hget, hget, hnode, Option.map_some, Option.map_some, AstNode.children_renameAt]
  refine ⟨fun k hk => ?_, ?_⟩
  · obtain ⟨place, hplace, rfl⟩ := List.mem_mapIdx.1 hk
    rw [horiginal place _ (List.getElem?_eq_getElem hplace)]
    exact hn.tail (by rw [kids_of_get? hnode]; exact List.getElem_mem hplace)
  · rw [map_mapIdx_eq_self horiginal]
    rfl

end Same

/-- A layout shows what is unfolded and not the array.  A tree that folds onto one that is laid out
is laid out like it; so is a tree with its nodes numbered in another way, with more nodes that are
not reached, or with copies of nodes that were shared. -/
theorem layouts_of_folds :
    (∀ (a b : Ast) f, b.Folds a f → b.LaidOutAs a f)
      ∧ (∀ (a b : Ast) σ, b.Renumbers a σ → b.LaidOutAs a σ.symm)
      ∧ (∀ (a : Ast) nodes, (a.extend nodes).LaidOutAs a id)
      ∧ ∀ (a : Ast) apart, (a.duplicate apart).LaidOutAs a a.original :=
  ⟨fun _ _ _ h => h.laidOutAs, fun _ _ _ h => h.folds.laidOutAs,
    fun _ nodes => Ast.laidOutAs_of_sound (Ast.folds_extend nodes),
    fun _ apart => Ast.laidOutAs_of_sound (Ast.folds_duplicate apart)⟩

/-- The shared node of `sharedAst` in two copies, numbered in another way, beside a cycle that
leads out of the array. -/
def apartAst : Ast where
  nodes :=
    #[{ kind := some "root", shape := .binary ⟨3⟩ ⟨1⟩ },
      { kind := some "shared", shape := .children [⟨4⟩] }, { shape := .body [⟨2⟩, ⟨9⟩] },
      { kind := some "shared", shape := .children [⟨5⟩] }, { kind := some "leaf" },
      { kind := some "leaf" }]
  root := some ⟨0⟩

def sharedNode : NodeRef → NodeRef
  | ⟨0⟩ => ⟨2⟩
  | ⟨4⟩ | ⟨5⟩ => ⟨1⟩
  | _ => ⟨0⟩

theorem layouts_of_apartAst :
    ∃ layout, (layoutBubbles sharedAst {}).outcome.value = .ok layout
      ∧ ∃ layout', (layoutBubbles apartAst {}).outcome.value = .ok layout'
        ∧ layout'.rename sharedNode = layout := by
  have hfolds : apartAst.Folds sharedAst sharedNode := by
    refine Ast.folds_of_closed (· ∈ [⟨0⟩, ⟨1⟩, ⟨3⟩, ⟨4⟩, ⟨5⟩]) rfl (by decide) fun n hn => ?_
    simp only [List.mem_cons, List.not_mem_nil, or_false] at hn
    rcases hn with rfl | rfl | rfl | rfl | rfl
    all_goals exact ⟨by decide, rfl⟩
  have hvisits : (preorder sharedAst 512 100000).toOption.isSome = true := by
    decide +kernel
  cases hp : preorder sharedAst 512 100000 with
  | error e =>
    rw [hp] at hvisits
    cases hvisits
  | ok visits =>
    obtain ⟨layout, hlayout, -⟩ := @layoutBubbles_ok sharedAst {} _ hp
    exact ⟨layout, hlayout, (layouts_of_folds.1 _ _ _ hfolds).bubbles _ _ hlayout⟩

end TreeAtlas
