import TreeAtlas.Proofs.Ast.DocumentTree
import TreeAtlas.Proofs.Ast.Unfolding

/-!
# Loading a document

The loader numbers siblings together and expands the last of them first, so the order of the array
is not the order of the document.  That does not matter to the references: whatever is expanded
first, a node that is taken from the stack gets references to new positions, which hold its
offspring, and only its own position changes.  So by induction on the run every position that waits
on the stack ends up holding its entry (`expand_expanded`), and the root holds the document
(`Ast.ofJson_holds`).
-/

namespace TreeAtlas

/-! ### Nodes that hold entries -/

/-- References to nodes that hold the entries that count as present, with all that is below. -/
inductive Ast.Holds (ast : Ast) : List NodeRef → List Json → Prop where
  | nil : Holds ast [] []
  | absent {rs : List NodeRef} {v : Json} {vs : List Json} (h : v.isTruthy = false)
      (others : Holds ast rs vs) : Holds ast rs (v :: vs)
  | present {r : NodeRef} {rs : List NodeRef} {node : AstNode} {v : Json} {vs : List Json}
      (h : v.isTruthy = true) (here : ast.get? r = some node) (face : node.face = v.face)
      (children : Holds ast node.children v.offspring) (others : Holds ast rs vs) :
      Holds ast (r :: rs) (v :: vs)

/-- The face of a node. -/
def Ast.face (ast : Ast) (r : NodeRef) : Face :=
  ((ast.get? r).getD {}).face

namespace Ast.Holds

variable {ast : Ast} {rs : List NodeRef} {vs : List Json}

/-- What holds entries unfolds to what they stand for. -/
theorem unfolds (h : ast.Holds rs vs) :
    ∃ f, ast.Unfolds rs f ∧ f.map ast.face = (Json.forest vs).map Json.face := by
  induction h with
  | nil => exact ⟨.nil, .nil, by simp [Forest.map]⟩
  | absent h _ ih => rwa [Json.forest_cons_of_falsy h]
  | present h here face _ _ ihc iho =>
    obtain ⟨below, hbelow, hbmap⟩ := ihc
    obtain ⟨rest, hrest, hrmap⟩ := iho
    refine ⟨.cons _ below rest, .cons here hbelow hrest, ?_⟩
    rw [Json.forest_cons_of_truthy h, Forest.map, Forest.map, hbmap, hrmap, Ast.face, here]
    simp only [Option.getD_some, face]

theorem of_filter (h : ast.Holds rs (vs.filter Json.isTruthy)) : ast.Holds rs vs := by
  induction vs generalizing rs with
  | nil => exact h
  | cons v vs ih =>
    cases hv : v.isTruthy with
    | true =>
      rw [List.filter_cons_of_pos hv] at h
      cases h with
      | absent hv' _ => rw [hv] at hv'; cases hv'
      | present _ here face children others => exact .present hv here face children (ih others)
    | false =>
      rw [List.filter_cons_of_neg (by simp [hv])] at h
      exact .absent hv (ih h)

/-- Entries that are held one by one are held together. -/
theorem of_forall : ∀ ps : List Pending, (∀ p ∈ ps, p.value.isTruthy = true) →
    (∀ p ∈ ps, ast.Holds [p.slot] [p.value]) →
      ast.Holds (ps.map Pending.slot) (ps.map Pending.value)
  | [], _, _ => .nil
  | p :: ps, hp, h => by
    have hrest := of_forall ps (fun q hq => hp q (List.mem_cons_of_mem _ hq))
      (fun q hq => h q (List.mem_cons_of_mem _ hq))
    have hv := hp p List.mem_cons_self
    cases h p List.mem_cons_self with
    | absent hv' _ => rw [hv] at hv'; cases hv'
    | present _ here face children _ => exact .present hv here face children hrest

end Ast.Holds

/-! ### Loading siblings -/

/-- What loading entries adds: nodes past the others, which wait with the last one on top. -/
structure Siblings.Adds (s s' : Siblings) (vs : List Json) (new : List Pending) : Prop where
  values : new.map Pending.value = vs.filter Json.isTruthy
  nodup : (new.map Pending.slot).Nodup
  beyond : ∀ p ∈ new, s.nodes.size ≤ p.slot.index
  fresh : ∀ p ∈ new, s'.nodes[p.slot.index]? = some (nodeOf p.value).1
  kept : ∀ i < s.nodes.size, s'.nodes[i]? = s.nodes[i]?
  size : s'.nodes.size = s.nodes.size + new.length
  refs : s'.refs.reverse = s.refs.reverse ++ new.map Pending.slot
  pending : s'.pending = new.reverse ++ s.pending

/-- Numbers and stacks one entry. -/
def Siblings.push (depth : Nat) (s : Siblings) (v : Json) : Siblings where
  nodes := s.nodes.push (nodeOf v).1
  refs := ⟨s.nodes.size⟩ :: s.refs
  pending := ⟨⟨s.nodes.size⟩, v, depth⟩ :: s.pending
  lines := s.lines ++ (nodeOf v).2

theorem Siblings.load_cons_of_truthy {v : Json} (hv : v.isTruthy = true) (depth : Nat)
    (s : Siblings) (vs : List Json) : s.load depth (v :: vs) = (s.push depth v).load depth vs := by
  rw [load, if_pos hv]
  rfl

theorem Siblings.load_cons_of_falsy {v : Json} (hv : v.isTruthy = false) (depth : Nat)
    (s : Siblings) (vs : List Json) : s.load depth (v :: vs) = s.load depth vs := by
  rw [load, if_neg (by simp [hv])]

namespace Siblings.Adds

variable {s s' : Siblings} {v : Json} {vs : List Json} {new : List Pending} {depth : Nat}

theorem absent (hv : v.isTruthy = false) (h : Adds s s' vs new) : Adds s s' (v :: vs) new :=
  { h with values := by rw [h.values, List.filter_cons_of_neg (by simp [hv])] }

theorem present (hv : v.isTruthy = true) (h : Adds (s.push depth v) s' vs new) :
    Adds s s' (v :: vs) (⟨⟨s.nodes.size⟩, v, depth⟩ :: new) := by
  have hsize : (s.push depth v).nodes.size = s.nodes.size + 1 := Array.size_push _
  have hbeyond : ∀ p ∈ new, s.nodes.size < p.slot.index := by
    intro p hp
    have := h.beyond p hp
    rwa [hsize] at this
  refine ⟨?_, ?_, ?_, ?_, ?_, ?_, ?_, ?_⟩
  · rw [List.map_cons, h.values, List.filter_cons_of_pos hv]
  · refine List.nodup_cons.2 ⟨fun hmem => ?_, h.nodup⟩
    obtain ⟨p, hp, hslot⟩ := List.mem_map.1 hmem
    have := hbeyond p hp
    rw [hslot] at this
    exact Nat.lt_irrefl _ this
  · intro p hp
    rcases List.mem_cons.1 hp with rfl | hp
    · exact Nat.le_refl _
    · exact (hbeyond p hp).le
  · intro p hp
    rcases List.mem_cons.1 hp with rfl | hp
    · rw [h.kept _ (hsize ▸ Nat.lt_succ_self _)]
      exact Array.getElem?_push_size
    · exact h.fresh p hp
  · intro i hi
    rw [h.kept i (hsize ▸ Nat.lt_succ_of_lt hi), push, Array.getElem?_push_lt hi,
      Array.getElem?_eq_getElem hi]
  · rw [h.size, hsize, List.length_cons]
    omega
  · rw [h.refs]
    simp [push]
  · rw [h.pending]
    simp [push]

end Siblings.Adds

theorem Siblings.load_adds (depth : Nat) (s : Siblings) (vs : List Json) :
    ∃ new, s.Adds (s.load depth vs) vs new := by
  induction vs generalizing s with
  | nil => exact ⟨[], by constructor <;> simp [load]⟩
  | cons v vs ih =>
    cases hv : v.isTruthy with
    | true =>
      obtain ⟨new, hnew⟩ := ih (s.push depth v)
      rw [load_cons_of_truthy hv]
      exact ⟨_, hnew.present hv⟩
    | false =>
      obtain ⟨new, hnew⟩ := ih s
      rw [load_cons_of_falsy hv]
      exact ⟨new, hnew.absent hv⟩

/-! ### Expanding -/

section SetShape

variable {nodes : Array AstNode} {r k : NodeRef} {node : AstNode} (shape : ChildShape)

theorem size_setShapeAt : (setShapeAt nodes r shape).size = nodes.size := by
  simp [setShapeAt]

theorem getElem?_setShapeAt_self (h : nodes[r.index]? = some node) :
    (setShapeAt nodes r shape)[r.index]? = some { node with shape } := by
  simp [setShapeAt, Array.getElem?_modify, h]

theorem getElem?_setShapeAt_ne (h : k ≠ r) :
    (setShapeAt nodes r shape)[k.index]? = nodes[k.index]? := by
  have : r.index ≠ k.index := fun e => h (by cases r; cases k; simp_all)
  rw [setShapeAt, Array.getElem?_modify, if_neg this]

end SetShape

/-- The children of a node are the references that were given to it. -/
theorem refs_shape {container : Container} {v : Json} {refs : List NodeRef}
    (h : containerOf? v = some (container, v.offspring))
    (hlen : refs.length = (v.offspring.filter Json.isTruthy).length) :
    (container.shape refs).refs = refs := by
  rcases containerOf?_cases v with ⟨hnone, -⟩ | ⟨container', hsome, hpair⟩
  · rw [h] at hnone
    cases hnone
  · rw [h, Option.some.injEq, Prod.mk.injEq] at hsome
    obtain ⟨rfl, -⟩ := hsome
    cases container with
    | children => rfl
    | body => rfl
    | binary =>
      obtain ⟨left, right, ho, hl, hr⟩ := hpair rfl
      rw [ho, List.filter_cons_of_pos hl, List.filter_cons_of_pos hr] at hlen
      obtain ⟨a, b, rfl⟩ := List.length_eq_two.1 hlen
      rfl

/-- A stack of different nodes that were made from their entries and have no children yet. -/
structure Waiting (nodes : Array AstNode) (pending : List Pending) : Prop where
  nodup : (pending.map Pending.slot).Nodup
  present : ∀ p ∈ pending, p.value.isTruthy = true
  fresh : ∀ p ∈ pending, nodes[p.slot.index]? = some (nodeOf p.value).1

/-- A tree into which a stack was expanded: what was on the stack holds its entry, and the nodes
that were not on it are unchanged. -/
structure Expanded (ast : Ast) (nodes : Array AstNode) (pending : List Pending) : Prop where
  holds : ∀ p ∈ pending, ast.Holds [p.slot] [p.value]
  kept : ∀ r node, r ∉ pending.map Pending.slot → nodes[r.index]? = some node →
    ast.get? r = some node
  size : ast.size + pending.length = nodes.size + (pending.map fun p => p.value.tree.size).sum

section Expand

variable {ast : Ast} {nodes : Array AstNode} {p : Pending} {rest : List Pending}

theorem Waiting.tail (h : Waiting nodes (p :: rest)) : Waiting nodes rest :=
  ⟨(List.nodup_cons.1 h.nodup).2, fun q hq => h.present q (List.mem_cons_of_mem _ hq),
    fun q hq => h.fresh q (List.mem_cons_of_mem _ hq)⟩

theorem Waiting.index_lt (h : Waiting nodes rest) : ∀ q ∈ rest, q.slot.index < nodes.size :=
  fun q hq => (Array.getElem?_eq_some_iff.1 (h.fresh q hq)).1

variable {s : Siblings} {vs : List Json} {new : List Pending}

/-- The stack that remains when the entries of a node were loaded. -/
theorem Waiting.load (h : Waiting nodes (p :: rest))
    (ha : Siblings.Adds { nodes, pending := rest } s vs new) (shape : ChildShape) :
    Waiting (setShapeAt s.nodes p.slot shape) s.pending := by
  have hnew : ∀ q ∈ new, ∀ k ∈ p :: rest, q.slot ≠ k.slot := by
    intro q hq k hk e
    have hlt := h.index_lt k hk
    have hle := ha.beyond q hq
    rw [e] at hle
    simp only [] at hle
    omega
  rw [ha.pending]
  refine ⟨?_, ?_, ?_⟩
  · rw [List.map_append, List.map_reverse, List.nodup_append]
    refine ⟨List.nodup_reverse.2 ha.nodup, h.tail.nodup, fun a ha' b hb e => ?_⟩
    obtain ⟨q, hq, rfl⟩ := List.mem_map.1 (List.mem_reverse.1 ha')
    obtain ⟨k, hk, rfl⟩ := List.mem_map.1 hb
    exact hnew q hq k (List.mem_cons_of_mem _ hk) e
  · intro q hq
    rcases List.mem_append.1 hq with hq | hq
    · have : q.value ∈ vs.filter Json.isTruthy :=
        ha.values ▸ List.mem_map_of_mem (List.mem_reverse.1 hq)
      exact (List.mem_filter.1 this).2
    · exact h.tail.present q hq
  · intro q hq
    rcases List.mem_append.1 hq with hq | hq
    · have hq := List.mem_reverse.1 hq
      rw [getElem?_setShapeAt_ne _ (hnew q hq p List.mem_cons_self)]
      exact ha.fresh q hq
    · have hne : q.slot ≠ p.slot := by
        intro e
        exact (List.nodup_cons.1 h.nodup).1 (e ▸ List.mem_map_of_mem hq)
      rw [getElem?_setShapeAt_ne _ hne, ha.kept _ (h.tail.index_lt q hq)]
      exact h.tail.fresh q hq

/-- What was there before the entries is on the stack only if it waited there. -/
theorem Siblings.Adds.notMem_pending (ha : Siblings.Adds { nodes, pending := rest } s vs new)
    {r : NodeRef} (hlt : r.index < nodes.size) (hr : r ∉ rest.map Pending.slot) :
    r ∉ s.pending.map Pending.slot := by
  rw [ha.pending, List.map_append, List.mem_append, not_or]
  refine ⟨fun hmem => ?_, hr⟩
  obtain ⟨q, hq, rfl⟩ := List.mem_map.1 hmem
  exact absurd (ha.beyond q (List.mem_reverse.1 hq)) (Nat.not_le.2 hlt)

theorem Siblings.Adds.refs_shape {container : Container} {v : Json}
    (hc : containerOf? v = some (container, v.offspring))
    (ha : Siblings.Adds { nodes, pending := rest } s v.offspring new) :
    (container.shape s.refs.reverse).refs = new.map Pending.slot := by
  have hrefs : s.refs.reverse = new.map Pending.slot := ha.refs
  rw [TreeAtlas.refs_shape hc, hrefs]
  rw [hrefs, ← ha.values, List.length_map, List.length_map]

/-- The new nodes hold the entries once all that waits has been expanded. -/
theorem Expanded.holds_new (ha : Siblings.Adds { nodes, pending := rest } s vs new)
    {nodes' : Array AstNode} (hw : Waiting nodes' s.pending) (he : Expanded ast nodes' s.pending) :
    ast.Holds (new.map Pending.slot) vs := by
  have hin : ∀ q ∈ new, q ∈ s.pending := by
    intro q hq
    rw [ha.pending]
    exact List.mem_append_left _ (List.mem_reverse.2 hq)
  have hall := Ast.Holds.of_forall new (fun q hq => hw.present q (hin q hq))
    fun q hq => he.holds q (hin q hq)
  rw [ha.values] at hall
  exact hall.of_filter

theorem Siblings.Adds.sum_pending (ha : Siblings.Adds { nodes, pending := rest } s vs new) :
    (s.pending.map fun q => q.value.tree.size).sum
      = (Json.forest vs).size + (rest.map fun q => q.value.tree.size).sum := by
  rw [ha.pending, List.map_append, List.sum_append, List.map_reverse, List.sum_reverse,
    Json.size_forest, ← ha.values, List.map_map]
  rfl

theorem Json.size_tree {v : Json} (hv : v.isTruthy = true) :
    v.tree.size = 1 + (Json.forest v.offspring).size := by
  rw [Json.tree_of_truthy hv]
  simp

/-- An entry that has no container stays as it was made. -/
theorem Expanded.leaf (h : Waiting nodes (p :: rest)) (ho : p.value.offspring = [])
    (he : Expanded ast nodes rest) : Expanded ast nodes (p :: rest) := by
  have hv := h.present p List.mem_cons_self
  have hslot : p.slot ∉ rest.map Pending.slot := (List.nodup_cons.1 h.nodup).1
  refine ⟨?_, ?_, ?_⟩
  · intro q hq
    rcases List.mem_cons.1 hq with rfl | hq
    · have here := he.kept _ _ hslot (h.fresh q List.mem_cons_self)
      refine .present hv here (face_nodeOf _) ?_ .nil
      rw [ho, children_nodeOf]
      exact .nil
    · exact he.holds q hq
  · intro r node hr hn
    exact he.kept r node (fun hmem => hr (List.mem_cons_of_mem _ hmem)) hn
  · have := he.size
    rw [List.length_cons, List.map_cons, List.sum_cons, Json.size_tree hv, ho, Json.forest_nil,
      Forest.size_nil]
    omega

/-- An entry with a container gets the references to its offspring. -/
theorem Expanded.node {container : Container} (h : Waiting nodes (p :: rest))
    (hc : containerOf? p.value = some (container, p.value.offspring))
    (ha : Siblings.Adds { nodes, pending := rest } s p.value.offspring new)
    (he : Expanded ast (setShapeAt s.nodes p.slot (container.shape s.refs.reverse)) s.pending) :
    Expanded ast nodes (p :: rest) := by
  have hv := h.present p List.mem_cons_self
  have hslot : p.slot ∉ rest.map Pending.slot := (List.nodup_cons.1 h.nodup).1
  refine ⟨?_, ?_, ?_⟩
  · intro q hq
    rcases List.mem_cons.1 hq with rfl | hq
    · have hlt := h.index_lt q List.mem_cons_self
      have hnode := ha.kept _ hlt
      rw [h.fresh q List.mem_cons_self] at hnode
      have here := he.kept _ _ (ha.notMem_pending hlt hslot) (getElem?_setShapeAt_self _ hnode)
      refine .present hv here (face_nodeOf _) ?_ .nil
      rw [AstNode.children, ha.refs_shape hc]
      exact he.holds_new ha (h.load ha _)
    · refine he.holds q ?_
      rw [ha.pending]
      exact List.mem_append_right _ hq
  · intro r node hr hn
    rw [List.map_cons, List.mem_cons, not_or] at hr
    have hlt := (Array.getElem?_eq_some_iff.1 hn).1
    refine he.kept r node (ha.notMem_pending hlt hr.2) ?_
    rw [getElem?_setShapeAt_ne _ hr.1, ha.kept _ hlt]
    exact hn
  · have hs := he.size
    have hsize : s.nodes.size = nodes.size + new.length := ha.size
    have hlength : s.pending.length = new.length + rest.length := by
      rw [ha.pending, List.length_append, List.length_reverse]
    rw [size_setShapeAt, hsize, hlength, ha.sum_pending] at hs
    rw [List.length_cons, List.map_cons, List.sum_cons, Json.size_tree hv]
    omega

/-- A run that succeeds expands the stack. -/
theorem expand_expanded {limit : Nat} {lines : List LogLine} {pending : List Pending}
    (h : Waiting nodes pending) (hex : (expand limit nodes lines pending).1 = .ok ast.nodes) :
    Expanded ast nodes pending := by
  fun_induction expand limit nodes lines pending with
  | case1 nodes lines =>
    have hnodes : nodes = ast.nodes := by
      simpa using hex
    exact ⟨by simp, fun r node _ hn => by rwa [Ast.get?, ← hnodes], by simp [Ast.size, hnodes]⟩
  | case2 nodes lines p rest hc _ ih =>
    rcases containerOf?_cases p.value with ⟨-, ho⟩ | ⟨container, hsome, -⟩
    · exact (ih h.tail hex).leaf h ho
    · rw [hc] at hsome
      cases hsome
  | case3 => cases hex
  | case4 nodes lines p rest container entries hc hd s _ ih =>
    obtain rfl : entries = p.value.offspring := by
      rw [← entriesOf_eq, entriesOf, hc]
    obtain ⟨new, hnew⟩ := Siblings.load_adds (p.depth + 1) { nodes, pending := rest }
      p.value.offspring
    exact (ih (h.load hnew _) hex).node h hc hnew

/-- A document that is loaded is held by the root, and every node is one of its entries. -/
theorem Ast.ofJson_holds {limit : Nat} {v : Json} {ast : Ast}
    (h : (Ast.ofJson limit v).outcome.value = .ok ast) :
    ast.Holds ast.root.toList [v] ∧ ast.size = v.tree.size := by
  cases hv : v.isTruthy with
  | true =>
    rw [Ast.ofJson, if_pos hv] at h
    have hstart : Waiting #[(nodeOf v).1] [⟨⟨0⟩, v, 0⟩] :=
      ⟨List.nodup_singleton _, by simpa using hv, by simp⟩
    change (expand limit #[(nodeOf v).1] (nodeOf v).2 [⟨⟨0⟩, v, 0⟩]).1.map
      (fun nodes => { nodes, root := some ⟨0⟩ }) = .ok ast at h
    cases hex : (expand limit #[(nodeOf v).1] (nodeOf v).2 [⟨⟨0⟩, v, 0⟩]).1 with
    | error e =>
      rw [hex] at h
      cases h
    | ok nodes =>
      rw [hex] at h
      cases h
      have he : Expanded { nodes, root := some ⟨0⟩ } _ _ := expand_expanded hstart hex
      refine ⟨he.holds _ List.mem_cons_self, ?_⟩
      simpa [add_comm] using he.size
  | false =>
    rw [Ast.ofJson, if_neg (by simp [hv]), Attempt.value_pure] at h
    cases h
    exact ⟨.absent hv .nil, by rw [Json.tree_of_falsy hv]; rfl⟩

end Expand

end TreeAtlas
