import TreeAtlas.Proofs.Ast.Loading

/-!
# The array of a loaded document

References can be shared, run in circles or lead nowhere, but the loader writes none that do.  It
gives references only to positions that it has just added, and gives each of them away at once, so
at any time during a run every position but the first has been given away once, and to a node in
front of it (`Numbered`).  That a position is reached from the first then needs no argument about
the run: its parent lies in front of it.
-/

namespace TreeAtlas

/-! ### Runs -/

/-- What is there once the entries of a node were numbered and stacked on top of `rest`. -/
def Pending.load (p : Pending) (nodes : Array AstNode) (rest : List Pending) : Siblings :=
  Siblings.load (p.depth + 1) { nodes, pending := rest } p.value.offspring

/-- What expanding a node keeps is kept by a run that succeeds. -/
theorem expand_keeps (Keeps : Array AstNode → List Pending → Prop)
    (leaf : ∀ {nodes p rest}, Waiting nodes (p :: rest) → containerOf? p.value = none →
      Keeps nodes (p :: rest) → Keeps nodes rest)
    (node : ∀ {nodes p rest container new}, Waiting nodes (p :: rest) →
      containerOf? p.value = some (container, p.value.offspring) →
      Siblings.Adds { nodes, pending := rest } (p.load nodes rest) p.value.offspring new →
      Keeps nodes (p :: rest) →
        Keeps (setShapeAt (p.load nodes rest).nodes p.slot (container.shape (new.map Pending.slot)))
          (p.load nodes rest).pending)
    {limit : Nat} {nodes nodes' : Array AstNode} {lines : List LogLine} {pending : List Pending}
    (hw : Waiting nodes pending) (hk : Keeps nodes pending)
    (h : (expand limit nodes lines pending).1 = .ok nodes') : Keeps nodes' [] := by
  fun_induction expand limit nodes lines pending with
  | case1 nodes lines =>
    cases h
    exact hk
  | case2 nodes lines p rest hc _ ih => exact ih hw.tail (leaf hw hc hk) h
  | case3 => cases h
  | case4 nodes lines p rest container entries hc hd s _ ih =>
    obtain rfl : entries = p.value.offspring := by
      rw [← entriesOf_eq, entriesOf, hc]
    obtain ⟨new, hnew⟩ := Siblings.load_adds (p.depth + 1) { nodes, pending := rest }
      p.value.offspring
    have hrefs : s.refs.reverse = new.map Pending.slot := hnew.refs
    rw [hrefs] at ih h
    exact ih (hw.load hnew _) (node hw hc hnew hk) h

theorem waiting_root {v : Json} (hv : v.isTruthy = true) :
    Waiting #[(nodeOf v).1] [⟨⟨0⟩, v, 0⟩] :=
  ⟨List.nodup_singleton _, by simpa using hv, by simp⟩

/-- A document that counts as present is expanded from its root. -/
theorem Ast.value_ofJson {v : Json} (hv : v.isTruthy = true) (limit : Nat) :
    (Ast.ofJson limit v).outcome.value
      = (expand limit #[(nodeOf v).1] (nodeOf v).2 [⟨⟨0⟩, v, 0⟩]).1.map
          fun nodes => { nodes, root := some ⟨0⟩ } := by
  rw [Ast.ofJson, if_pos hv]
  rfl

theorem Ast.value_ofJson_of_falsy {v : Json} (hv : v.isTruthy = false) (limit : Nat) :
    (Ast.ofJson limit v).outcome.value = .ok .empty := by
  rw [Ast.ofJson, if_neg (by simp [hv]), Attempt.value_pure]

/-- A document that is loaded and counts as present is what its root is expanded to. -/
theorem Ast.exists_expand {limit : Nat} {v : Json} {ast : Ast} (hv : v.isTruthy = true)
    (h : (Ast.ofJson limit v).outcome.value = .ok ast) :
    ∃ nodes, (expand limit #[(nodeOf v).1] (nodeOf v).2 [⟨⟨0⟩, v, 0⟩]).1 = .ok nodes
      ∧ ast = { nodes, root := some ⟨0⟩ } := by
  rw [Ast.value_ofJson hv] at h
  cases hex : (expand limit #[(nodeOf v).1] (nodeOf v).2 [⟨⟨0⟩, v, 0⟩]).1 with
  | error e =>
    rw [hex] at h
    cases h
  | ok nodes =>
    rw [hex] at h
    cases h
    exact ⟨nodes, rfl, rfl⟩

/-! ### References of an array -/

/-- All references to children, node by node. -/
def references (nodes : Array AstNode) : List NodeRef :=
  nodes.toList.flatMap AstNode.children

section References

variable {nodes : Array AstNode} {node : AstNode} {r k : NodeRef}

theorem mem_references :
    k ∈ references nodes
      ↔ ∃ (i : Nat) (node : AstNode), nodes[i]? = some node ∧ k ∈ node.children := by
  simp only [references, List.mem_flatMap, Array.mem_toList_iff, Array.mem_iff_getElem?]
  constructor
  · rintro ⟨node, ⟨i, hi⟩, hk⟩
    exact ⟨i, node, hi, hk⟩
  · rintro ⟨i, node, hi, hk⟩
    exact ⟨node, ⟨i, hi⟩, hk⟩

theorem references_append {leaves : Array AstNode} (h : ∀ node ∈ leaves, node.children = []) :
    references (nodes ++ leaves) = references nodes := by
  have : leaves.toList.flatMap AstNode.children = [] := by
    simpa [List.flatMap_eq_nil_iff] using h
  rw [references, Array.toList_append, List.flatMap_append, this, List.append_nil, references]

/-- A node without children that is given some adds them to the references. -/
theorem count_references_setShapeAt (h : nodes[r.index]? = some node) (hnode : node.children = [])
    (shape : ChildShape) :
    (references (setShapeAt nodes r shape)).count k
      = shape.refs.count k + (references nodes).count k := by
  have hlt : r.index < nodes.toList.length := (Array.getElem?_eq_some_iff.1 h).1
  obtain ⟨before, node', after, hnodes, hbefore, hset⟩ :=
    List.exists_of_modify (fun node : AstNode => { node with shape }) hlt
  obtain rfl : node' = node := by
    rw [← Array.getElem?_toList, hnodes, ← hbefore] at h
    simpa using h
  have hempty : node'.shape.refs = [] := hnode
  rw [references, setShapeAt, Array.toList_modify, hset, references, hnodes]
  simp only [List.flatMap_append, List.flatMap_cons, List.count_append, AstNode.children, hempty,
    List.count_nil]
  omega

end References

/-! ### Numbered arrays -/

/-- Every position but the first has one parent, which lies in front of it. -/
structure Numbered (nodes : Array AstNode) : Prop where
  nonempty : 0 < nodes.size
  once : ∀ i, (references nodes).count ⟨i⟩ = if 1 ≤ i ∧ i < nodes.size then 1 else 0
  ordered : ∀ (i : Nat) node, nodes[i]? = some node → ∀ k ∈ node.children, i < k.index

/-- References stay inside the array. -/
theorem Numbered.index_lt {nodes : Array AstNode} (h : Numbered nodes) {i : Nat} {node : AstNode}
    (hi : nodes[i]? = some node) {k : NodeRef} (hk : k ∈ node.children) :
    k.index < nodes.size := by
  have hcount : (references nodes).count k = _ := h.once k.index
  have hpos := List.count_pos_iff.2 (mem_references.2 ⟨i, node, hi, hk⟩)
  split_ifs at hcount with hin
  · exact hin.2
  · omega

section Loading

variable {nodes : Array AstNode} {s s' : Siblings} {vs : List Json} {new : List Pending}

/-- New siblings have no children yet. -/
theorem Siblings.exists_leaves (depth : Nat) (s : Siblings) (vs : List Json) :
    ∃ leaves, (s.load depth vs).nodes = s.nodes ++ leaves
      ∧ ∀ node ∈ leaves, node.children = [] := by
  induction vs generalizing s with
  | nil => exact ⟨#[], by simp [load], by simp⟩
  | cons v vs ih =>
    cases hv : v.isTruthy with
    | false =>
      rw [load_cons_of_falsy hv]
      exact ih s
    | true =>
      rw [load_cons_of_truthy hv]
      obtain ⟨leaves, hnodes, hleaves⟩ := ih (s.push depth v)
      refine ⟨#[(nodeOf v).1] ++ leaves, ?_, ?_⟩
      · rw [hnodes, ← Array.append_assoc]
        rfl
      · intro node hnode
        rcases Array.mem_append.1 hnode with hnode | hnode
        · rw [Array.mem_singleton.1 hnode]
          exact children_nodeOf v
        · exact hleaves node hnode

/-- New siblings fill the positions past the others. -/
theorem Siblings.Adds.mem_slots (h : s.Adds s' vs new) (i : Nat) :
    ⟨i⟩ ∈ new.map Pending.slot ↔ s.nodes.size ≤ i ∧ i < s.nodes.size + new.length := by
  have hinj : Function.Injective NodeRef.index := by
    rintro ⟨i⟩ ⟨j⟩ rfl
    rfl
  have hsub : (new.map Pending.slot).map NodeRef.index
      ⊆ List.range' s.nodes.size new.length := by
    intro j hj
    rw [List.map_map] at hj
    obtain ⟨p, hp, rfl⟩ := List.mem_map.1 hj
    have hlt := (Array.getElem?_eq_some_iff.1 (h.fresh p hp)).1
    rw [h.size] at hlt
    exact List.mem_range'_1.2 ⟨h.beyond p hp, hlt⟩
  -- as many different positions as there are past the others
  have hperm := ((h.nodup.map hinj).subperm hsub).perm_of_length_le (by simp)
  rw [← List.mem_range'_1, ← hperm.mem_iff, List.mem_map_of_injective hinj]

/-- An entry that is expanded still has its node in place. -/
theorem Siblings.Adds.getElem?_slot {p : Pending} {rest : List Pending}
    (hw : Waiting nodes (p :: rest))
    (ha : Siblings.Adds { nodes, pending := rest } (p.load nodes rest) p.value.offspring new) :
    (p.load nodes rest).nodes[p.slot.index]? = some (nodeOf p.value).1 := by
  rw [ha.kept _ (hw.index_lt p List.mem_cons_self)]
  exact hw.fresh p List.mem_cons_self

/-- The offspring of an entry become the children of its node. -/
theorem Siblings.Adds.refs_shape_load {p : Pending} {rest : List Pending} {container : Container}
    (hc : containerOf? p.value = some (container, p.value.offspring))
    (ha : Siblings.Adds { nodes, pending := rest } (p.load nodes rest) p.value.offspring new) :
    (container.shape (new.map Pending.slot)).refs = new.map Pending.slot := by
  have hrefs : (p.load nodes rest).refs.reverse = new.map Pending.slot := ha.refs
  rw [← hrefs, ha.refs_shape hc, hrefs]

/-- A node that gets the new positions as its children leaves the array numbered. -/
theorem Numbered.node {p : Pending} {rest : List Pending} {container : Container}
    (h : Numbered nodes) (hw : Waiting nodes (p :: rest))
    (hc : containerOf? p.value = some (container, p.value.offspring))
    (ha : Siblings.Adds { nodes, pending := rest } (p.load nodes rest) p.value.offspring new) :
    Numbered
      (setShapeAt (p.load nodes rest).nodes p.slot (container.shape (new.map Pending.slot))) := by
  obtain ⟨leaves, hnodes, hleaves⟩ : ∃ leaves, (p.load nodes rest).nodes = nodes ++ leaves
      ∧ ∀ node ∈ leaves, node.children = [] := Siblings.exists_leaves _ _ _
  have hpos := h.nonempty
  have hlt : p.slot.index < nodes.size := hw.index_lt p List.mem_cons_self
  have hslot := ha.getElem?_slot hw
  have hsize : (p.load nodes rest).nodes.size = nodes.size + new.length := ha.size
  constructor
  · rw [size_setShapeAt, hsize]
    omega
  · intro i
    have hmem : ⟨i⟩ ∈ new.map Pending.slot ↔ nodes.size ≤ i ∧ i < nodes.size + new.length :=
      ha.mem_slots i
    rw [count_references_setShapeAt hslot (children_nodeOf _), ha.refs_shape_load hc,
      ha.nodup.count, hnodes, references_append hleaves, h.once i, size_setShapeAt, ← hnodes,
      hsize]
    simp only [hmem]
    split_ifs <;> omega
  · intro i node hi k hk
    by_cases hip : i = p.slot.index
    · subst hip
      rw [getElem?_setShapeAt_self _ hslot, Option.some.injEq] at hi
      subst hi
      have hk' : k ∈ (container.shape (new.map Pending.slot)).refs := hk
      rw [ha.refs_shape_load hc] at hk'
      obtain ⟨q, hq, rfl⟩ := List.mem_map.1 hk'
      exact Nat.lt_of_lt_of_le hlt (ha.beyond q hq)
    · rw [getElem?_setShapeAt_ne (k := ⟨i⟩) _ fun e => hip (congrArg NodeRef.index e), hnodes,
        Array.getElem?_append] at hi
      split at hi
      · exact h.ordered i node hi k hk
      · rw [hleaves node (Array.mem_of_getElem? hi)] at hk
        cases hk

/-- What a run leaves is numbered. -/
theorem Numbered.expand {limit : Nat} {nodes nodes' : Array AstNode} {lines : List LogLine}
    {pending : List Pending} (h : Numbered nodes) (hw : Waiting nodes pending)
    (hex : (TreeAtlas.expand limit nodes lines pending).1 = .ok nodes') : Numbered nodes' :=
  expand_keeps (fun nodes _ => Numbered nodes) (fun _ _ hk => hk)
    (fun hw hc ha hk => hk.node hw hc ha) hw h hex

end Loading

/-! ### Loaded documents -/

/-- One tree that hangs from the first position. -/
structure Ast.IsTree (ast : Ast) : Prop where
  root : ast.root = some ⟨0⟩
  inside : ∀ r node, ast.get? r = some node → ∀ k ∈ node.children, ast.contains k = true
  once : ∀ i, (references ast.nodes).count ⟨i⟩ = if 1 ≤ i ∧ i < ast.size then 1 else 0
  ordered : ∀ r node, ast.get? r = some node → ∀ k ∈ node.children, r.index < k.index
  reached : ∀ r, ast.contains r = true → ast.Reaches ⟨0⟩ r

section IsTree

variable {ast : Ast}

/-- A position past the first has a parent. -/
theorem Numbered.exists_parent (h : Numbered ast.nodes) {i : Nat} (hi : 1 ≤ i)
    (hlt : i < ast.size) :
    ∃ r node, ast.get? r = some node ∧ ⟨i⟩ ∈ node.children ∧ r.index < i := by
  have hcount : 0 < (references ast.nodes).count ⟨i⟩ := by
    rw [h.once i, if_pos ⟨hi, hlt⟩]
    exact Nat.one_pos
  obtain ⟨j, node, hj, hk⟩ := mem_references.1 (List.count_pos_iff.1 hcount)
  exact ⟨⟨j⟩, node, hj, hk, h.ordered j node hj _ hk⟩

theorem Numbered.reaches (h : Numbered ast.nodes) {i : Nat} (hi : i < ast.size) :
    ast.Reaches ⟨0⟩ ⟨i⟩ := by
  induction i using Nat.strong_induction_on with
  | _ i ih =>
    rcases Nat.eq_zero_or_pos i with rfl | hpos
    · exact .refl
    · obtain ⟨r, node, hr, hk, hlt⟩ := h.exists_parent hpos hi
      refine (ih r.index hlt (hlt.trans hi)).tail ?_
      rw [Ast.Refers, Ast.kids_of_get? hr]
      exact hk

theorem Numbered.isTree (h : Numbered ast.nodes) (hroot : ast.root = some ⟨0⟩) : ast.IsTree := by
  refine ⟨hroot, fun r node hr k hk => ?_, h.once, fun r node hr => h.ordered r.index node hr,
    fun r hr => h.reaches (by simpa [Ast.contains, Ast.size] using hr)⟩
  simpa [Ast.contains] using h.index_lt hr hk

end IsTree

/-- A single node is numbered. -/
theorem numbered_root (v : Json) : Numbered #[(nodeOf v).1] := by
  constructor
  · exact Nat.one_pos
  · intro i
    have hnil : references #[(nodeOf v).1] = [] := by
      simp [references, children_nodeOf]
    rw [hnil, List.count_nil, if_neg]
    simp only [List.size_toArray, List.length_cons, List.length_nil]
    omega
  · intro i node hi k hk
    rw [Array.mem_singleton.1 (Array.mem_of_getElem? hi), children_nodeOf] at hk
    cases hk

theorem Ast.isTree_of_ofJson {limit : Nat} {v : Json} {ast : Ast} (hv : v.isTruthy = true)
    (h : (Ast.ofJson limit v).outcome.value = .ok ast) : ast.IsTree := by
  obtain ⟨nodes, hex, rfl⟩ := Ast.exists_expand hv h
  exact Numbered.isTree ((numbered_root v).expand (waiting_root hv) hex) rfl

/-- What a document is loaded into is empty if the document does not count as present, and else
one tree with a node for each of its entries. -/
theorem ofJson_isTree {limit : Nat} {v : Json} {ast : Ast}
    (h : (Ast.ofJson limit v).outcome.value = .ok ast) :
    (v.isTruthy = false → ast.size = 0 ∧ ast.root = none)
      ∧ (v.isTruthy = true → ast.IsTree) ∧ ast.size = v.tree.size := by
  refine ⟨fun hv => ?_, fun hv => Ast.isTree_of_ofJson hv h, (Ast.ofJson_holds h).2⟩
  rw [Ast.value_ofJson_of_falsy hv] at h
  cases h
  exact ⟨rfl, rfl⟩

/-- A pair with an empty container on one side, among entries that do not count. -/
def sidesDocument : Json :=
  .obj
    [("children", .arr
        [.null,
          .obj
            [("left", .obj [("body", .arr [])]),
              ("right", .obj [("children", .arr [.str "x"])])],
          .bool false, .str "y"])]

def sidesAst : Ast where
  nodes :=
    #[{ shape := .children [⟨1⟩, ⟨2⟩] }, { shape := .binary ⟨3⟩ ⟨4⟩ },
      { attributes := [("value", .str "y")] }, { shape := .body [] }, { shape := .children [⟨5⟩] },
      { attributes := [("value", .str "x")] }]
  root := some ⟨0⟩

theorem isTree_sidesAst :
    (Ast.ofJson 4 sidesDocument).outcome.value = .ok sidesAst ∧ sidesAst.IsTree
      ∧ sidesDocument.tree.size = 6 := by
  have h : (Ast.ofJson 4 sidesDocument).outcome.value = .ok sidesAst := by
    with_unfolding_all rfl
  obtain ⟨-, htree, hsize⟩ := ofJson_isTree h
  exact ⟨h, htree rfl, hsize.symm⟩

end TreeAtlas
