import TreeAtlas.Proofs.Ast.Numbering

/-!
# What a document is loaded into

A run forgets which entry a position was made for, so it is told with the entries written next to
the array (`Origins`): a node that no longer waits on the stack has the content of its entry, and
its children were made for the offspring that counts.  When the stack is empty, the references
unfold to the tree of the document with the contents in place of the entries.  A run fails when it
takes an entry from the stack that has a container and lies too deep.  Such an entry, or one above
it, waits on the stack until then, so it makes no difference which of them is met first
(`expand_eq_error_iff`).
-/

namespace TreeAtlas

/-! ### Contents -/

/-- What is kept of an entry, apart from what is in its container. -/
structure Content where
  id : Option NodeId
  kind : Option String
  container : Option Container
  attributes : String → Option Json

def ChildShape.container? : ChildShape → Option Container
  | .leaf => none
  | .children _ => some .children
  | .body _ => some .body
  | .binary _ _ => some .binary

def AstNode.content (node : AstNode) : Content where
  id := node.id
  kind := node.kind
  container := node.shape.container?
  attributes key := node.attributes.find? key

namespace Json

/-- An array `children`, else an array `body`, else a pair of which both sides count. -/
def container? (v : Json) : Option Container :=
  match (v.field? "children").bind items? with
  | some _ => some .children
  | none =>
    match (v.field? "body").bind items? with
    | some _ => some .body
    | none =>
      if (v.field? "left").any isTruthy ∧ (v.field? "right").any isTruthy then some .binary
      else none

/-- The type of an entry, or the text of a type that is not a string. -/
def kind? (v : Json) : Option String :=
  match v.field? "type" with
  | none | some .null => none
  | some (.str s) => some s
  | some w => some w.write

/-- Keys of an entry that are no attributes. -/
def takenKeys (v : Json) : List String :=
  match v.container? with
  | none => ["id", "type"]
  | some .children => ["id", "type", "children"]
  | some .body => ["id", "type", "body"]
  | some .binary => ["id", "type", "left", "right"]

theorem takenKeys_eq (v : Json) :
    v.takenKeys = "id" :: "type" :: (v.container?.map Container.fields).getD [] := by
  unfold takenKeys
  rcases v.container? with _ | _ | _ | _ <;> rfl

/-- The fields of an object that are not taken; the value itself if it is no object. -/
def attribute? : Json → String → Option Json
  | .obj fields, key =>
    if key ∈ (obj fields).takenKeys then none else Fields.find? key fields
  | v, key => if key = "value" then some v else none

def content (v : Json) : Content where
  id := v.id?
  kind := v.kind?
  container := v.container?
  attributes := v.attribute?

end Json

/-- The content of a node. -/
def Ast.content (ast : Ast) (r : NodeRef) : Content :=
  ((ast.get? r).getD {}).content

section Node

/-- The loader finds the container and its entries. -/
theorem containerOf?_eq (v : Json) :
    containerOf? v = v.container?.map fun container => (container, v.offspring) := by
  cases v with
  | obj fields =>
    have hfield : ∀ key, Json.Fields.find? key fields = (Json.obj fields).field? key :=
      fun _ => rfl
    simp only [containerOf?, findContainer?, hfield]
    unfold Json.container? Json.offspring Json.sides
    split
    · rename_i items h
      simp [h, Json.items?]
    rename_i h
    rw [bind_items?_eq_none h]
    split
    · rename_i items h
      simp [h, Json.items?]
    rename_i h
    rw [bind_items?_eq_none h]
    rcases (Json.obj fields).field? "left" with _ | left
    · simp
    rcases (Json.obj fields).field? "right" with _ | right
    · simp
    by_cases ht : left.isTruthy ∧ right.isTruthy
    · simp [ht]
    · simp [ht]
  | _ => rfl

theorem attributesOf_eq (fields : Json.Fields) :
    attributesOf fields
      = fields.filter fun field => !(Json.obj fields).takenKeys.contains field.1 := by
  have hc := containerOf?_eq (.obj fields)
  rw [containerOf?] at hc
  rw [attributesOf, hc]
  refine List.filter_congr fun field _ => ?_
  rcases h : (Json.obj fields).container? with _ | container
  · simp only [Json.takenKeys_eq, h, Option.map_none, Option.getD_none, List.contains_cons,
      Bool.not_or, bne, Bool.and_assoc]
  · simp only [Json.takenKeys_eq, h, Option.map_some, Option.getD_some, List.contains_cons,
      Bool.not_or, bne, Bool.and_assoc]

theorem find?_filter (taken : List String) (key : String) (fields : Json.Fields) :
    Json.Fields.find? key (fields.filter fun field => !taken.contains field.1)
      = if key ∈ taken then none else Json.Fields.find? key fields := by
  induction fields with
  | nil => simp [Json.Fields.find?]
  | cons field rest ih =>
    obtain ⟨k, w⟩ := field
    unfold Json.Fields.find? at ih ⊢
    by_cases hk : key = k
    · subst hk
      by_cases ht : key ∈ taken
      · rw [List.filter_cons_of_neg (by simpa using ht), ih, if_pos ht, if_pos ht]
      · rw [List.filter_cons_of_pos (by simpa using ht), if_neg ht]
        simp
    · have hne : (key == k) = false := beq_false_of_ne hk
      by_cases ht : k ∈ taken
      · rw [List.filter_cons_of_neg (by simpa using ht), ih, List.lookup_cons, hne]
      · rw [List.filter_cons_of_pos (by simpa using ht), List.lookup_cons, List.lookup_cons, hne,
          ih]

theorem kind_nodeOf (v : Json) : (nodeOf v).1.kind = v.kind? := by
  cases v with
  | obj fields =>
    simp only [nodeOf, Json.kind?, Json.field?]
    rcases Json.Fields.find? "type" fields with _ | w
    · rfl
    · cases w <;> rfl
  | _ => rfl

theorem find?_attributes_nodeOf (v : Json) (key : String) :
    (nodeOf v).1.attributes.find? key = v.attribute? key := by
  cases v with
  | obj fields => rw [nodeOf, attributesOf_eq, find?_filter, Json.attribute?]
  | _ =>
    simp only [nodeOf, Json.Fields.find?, Json.attribute?, List.lookup_cons, List.lookup_nil]
    by_cases hk : key = "value"
    · simp [hk]
    · simp [hk, beq_false_of_ne hk]

/-- A node that was made for an entry has its content once it has its shape. -/
theorem content_nodeOf {v : Json} {shape : ChildShape} (h : shape.container? = v.container?) :
    ({ (nodeOf v).1 with shape } : AstNode).content = v.content := by
  rw [AstNode.content, Json.content, Content.mk.injEq]
  exact ⟨id_nodeOf v, kind_nodeOf v, h, funext (find?_attributes_nodeOf v)⟩

end Node

/-! ### Entries next to the array -/

/-- Entries for the positions of an array, of which those on the stack still lack their shape. -/
structure Origins (nodes : Array AstNode) (pending : List Pending) (origin : NodeRef → Json) :
    Prop where
  waiting : ∀ p ∈ pending, origin p.slot = p.value
  content : ∀ (r : NodeRef) node, nodes[r.index]? = some node → r ∉ pending.map Pending.slot →
    node.content = (origin r).content
  children : ∀ (r : NodeRef) node, nodes[r.index]? = some node → r ∉ pending.map Pending.slot →
    node.children.map origin = (origin r).offspring.filter Json.isTruthy

/-- Values for the positions of a stack, without a change to others. -/
theorem exists_origin {new : List Pending} (h : (new.map Pending.slot).Nodup)
    (origin : NodeRef → Json) :
    ∃ origin' : NodeRef → Json, (∀ p ∈ new, origin' p.slot = p.value)
      ∧ ∀ r, r ∉ new.map Pending.slot → origin' r = origin r := by
  induction new with
  | nil => exact ⟨origin, by simp, fun _ _ => rfl⟩
  | cons p new ih =>
    rw [List.map_cons, List.nodup_cons] at h
    obtain ⟨origin', hnew, hother⟩ := ih h.2
    refine ⟨Function.update origin' p.slot p.value, fun q hq => ?_, fun r hr => ?_⟩
    · rcases List.mem_cons.1 hq with rfl | hq
      · exact Function.update_self ..
      · have hne : q.slot ≠ p.slot := fun e => h.1 (e ▸ List.mem_map_of_mem hq)
        rw [Function.update_of_ne hne, hnew q hq]
    · rw [List.map_cons, List.mem_cons, not_or] at hr
      rw [Function.update_of_ne hr.1, hother r hr.2]

section Origins

variable {nodes : Array AstNode} {p : Pending} {rest new : List Pending}
  {origin : NodeRef → Json} {container : Container}

theorem offspring_of_containerOf?_eq_none {v : Json} (h : containerOf? v = none) :
    v.container? = none ∧ v.offspring = [] := by
  rcases containerOf?_cases v with ⟨-, ho⟩ | ⟨container, hsome, -⟩
  · rw [containerOf?_eq, Option.map_eq_none_iff] at h
    exact ⟨h, ho⟩
  · rw [h] at hsome
    cases hsome

/-- A node without a container is finished as it was made. -/
theorem Origins.leaf (hw : Waiting nodes (p :: rest)) (hc : containerOf? p.value = none)
    (h : Origins nodes (p :: rest) origin) : Origins nodes rest origin := by
  obtain ⟨hcontainer, hoffspring⟩ := offspring_of_containerOf?_eq_none hc
  have hfresh := hw.fresh p List.mem_cons_self
  have hshape : (nodeOf p.value).1.shape.container? = p.value.container? := by
    rw [hcontainer]
    cases p.value <;> rfl
  refine ⟨fun q hq => h.waiting q (List.mem_cons_of_mem _ hq), ?_, ?_⟩
  · intro r node hr hrest
    by_cases hrp : r = p.slot
    · subst hrp
      rw [hfresh, Option.some.injEq] at hr
      rw [h.waiting p List.mem_cons_self, ← hr]
      exact content_nodeOf hshape
    · exact h.content r node hr (by simp_all)
  · intro r node hr hrest
    by_cases hrp : r = p.slot
    · subst hrp
      rw [hfresh, Option.some.injEq] at hr
      rw [h.waiting p List.mem_cons_self, ← hr, children_nodeOf, hoffspring]
      rfl
    · exact h.children r node hr (by simp_all)

/-- The shape that a container gets names the container. -/
theorem container?_shape (hc : containerOf? p.value = some (container, p.value.offspring))
    (ha : Siblings.Adds { nodes, pending := rest } (p.load nodes rest) p.value.offspring new) :
    (container.shape (new.map Pending.slot)).container? = p.value.container? := by
  have hcontainer : p.value.container? = some container := by
    rw [containerOf?_eq] at hc
    obtain ⟨c, hsome, hpair⟩ := Option.map_eq_some_iff.1 hc
    rw [hsome, (Prod.mk.inj hpair).1]
  rw [hcontainer]
  rcases containerOf?_cases p.value with ⟨hnone, -⟩ | ⟨c, hsome, hpair⟩
  · rw [hc] at hnone
    cases hnone
  rw [hc, Option.some.injEq, Prod.mk.injEq] at hsome
  obtain ⟨rfl, -⟩ := hsome
  cases container with
  | children => rfl
  | body => rfl
  | binary =>
    obtain ⟨left, right, ho, hl, hr⟩ := hpair rfl
    have hvalues := ha.values
    rw [ho, List.filter_cons_of_pos hl, List.filter_cons_of_pos hr] at hvalues
    obtain ⟨a, b, rfl⟩ := List.length_eq_two.1 (by simpa using congrArg List.length hvalues)
    rfl

/-- A node that does not wait is the one that was expanded or was finished before. -/
theorem Siblings.Adds.finished {shape : ChildShape} {r : NodeRef} {node : AstNode}
    (hw : Waiting nodes (p :: rest))
    (ha : Siblings.Adds { nodes, pending := rest } (p.load nodes rest) p.value.offspring new)
    (hr : (setShapeAt (p.load nodes rest).nodes p.slot shape)[r.index]? = some node)
    (hwait : r ∉ (p.load nodes rest).pending.map Pending.slot) :
    (r = p.slot ∧ node = { (nodeOf p.value).1 with shape })
      ∨ (nodes[r.index]? = some node ∧ r ∉ (p :: rest).map Pending.slot) := by
  by_cases hrp : r = p.slot
  · subst hrp
    rw [getElem?_setShapeAt_self _ (ha.getElem?_slot hw), Option.some.injEq] at hr
    exact .inl ⟨rfl, hr.symm⟩
  rw [getElem?_setShapeAt_ne _ hrp] at hr
  have hpending : (p.load nodes rest).pending = new.reverse ++ rest := ha.pending
  rw [hpending, List.map_append, List.mem_append, not_or] at hwait
  -- past the others there are only the new siblings, and they wait
  have hin : r.index < nodes.size := by
    by_contra hge
    have hsize : (p.load nodes rest).nodes.size = nodes.size + new.length := ha.size
    have hmem := (ha.mem_slots r.index).2
      ⟨Nat.not_lt.1 hge, hsize ▸ (Array.getElem?_eq_some_iff.1 hr).1⟩
    exact hwait.1 (by simpa using hmem)
  refine .inr ⟨?_, ?_⟩
  · rw [← hr]
    exact (ha.kept _ hin).symm
  · rw [List.map_cons, List.mem_cons, not_or]
    exact ⟨hrp, hwait.2⟩

/-- A node with a container gets its shape, and the new positions get the entries in it. -/
theorem Origins.node (hn : Numbered nodes) (hw : Waiting nodes (p :: rest))
    (hc : containerOf? p.value = some (container, p.value.offspring))
    (ha : Siblings.Adds { nodes, pending := rest } (p.load nodes rest) p.value.offspring new)
    (h : Origins nodes (p :: rest) origin) :
    ∃ origin', (∀ r : NodeRef, r.index < nodes.size → origin' r = origin r) ∧ Origins
      (setShapeAt (p.load nodes rest).nodes p.slot (container.shape (new.map Pending.slot)))
      (p.load nodes rest).pending origin' := by
  obtain ⟨origin', hnew, hother⟩ := exists_origin ha.nodup origin
  have hold : ∀ r : NodeRef, r.index < nodes.size → origin' r = origin r := by
    intro r hlt
    refine hother r fun hr => ?_
    obtain ⟨q, hq, rfl⟩ := List.mem_map.1 hr
    exact absurd (ha.beyond q hq) (Nat.not_le.2 hlt)
  have hlt := hw.index_lt p List.mem_cons_self
  have hvalue : origin' p.slot = p.value := by
    rw [hold _ hlt]
    exact h.waiting p List.mem_cons_self
  refine ⟨origin', hold, fun q hq => ?_, fun r node hr hwait => ?_, fun r node hr hwait => ?_⟩
  · have hpending : (p.load nodes rest).pending = new.reverse ++ rest := ha.pending
    rw [hpending] at hq
    rcases List.mem_append.1 hq with hq | hq
    · exact hnew q (List.mem_reverse.1 hq)
    · rw [hold _ (hw.tail.index_lt q hq)]
      exact h.waiting q (List.mem_cons_of_mem _ hq)
  · rcases ha.finished hw hr hwait with ⟨rfl, rfl⟩ | ⟨hr, hwait⟩
    · rw [hvalue]
      exact content_nodeOf (container?_shape hc ha)
    · rw [hold r (Array.getElem?_eq_some_iff.1 hr).1]
      exact h.content r node hr hwait
  · rcases ha.finished hw hr hwait with ⟨rfl, rfl⟩ | ⟨hr, hwait⟩
    · rw [hvalue, ← ha.values, AstNode.children, ha.refs_shape_load hc, List.map_map]
      exact List.map_congr_left hnew
    · rw [hold r (Array.getElem?_eq_some_iff.1 hr).1, ← h.children r node hr hwait]
      exact List.map_congr_left fun k hk => hold k (hn.index_lt hr hk)

/-- A run that succeeds finishes the entries on its stack, and the first entry stays first. -/
theorem exists_origins_of_expand {limit : Nat} {nodes' : Array AstNode} {lines : List LogLine}
    {pending : List Pending} (hn : Numbered nodes) (hw : Waiting nodes pending)
    (h : Origins nodes pending origin) (hex : (expand limit nodes lines pending).1 = .ok nodes') :
    ∃ origin', origin' ⟨0⟩ = origin ⟨0⟩ ∧ Origins nodes' [] origin' := by
  refine (expand_keeps (fun nodes pending => Numbered nodes
    ∧ ∃ origin', origin' ⟨0⟩ = origin ⟨0⟩ ∧ Origins nodes pending origin')
    ?_ ?_ hw ⟨hn, origin, rfl, h⟩ hex).2
  · rintro nodes p rest hw hc ⟨hn, origin', hfirst, h⟩
    exact ⟨hn, origin', hfirst, h.leaf hw hc⟩
  · rintro nodes p rest container new hw hc ha ⟨hn, origin', hfirst, h⟩
    obtain ⟨origin'', hold, h⟩ := h.node hn hw hc ha
    exact ⟨hn.node hw hc ha, origin'', (hold ⟨0⟩ hn.nonempty).trans hfirst, h⟩

end Origins

/-! ### Contents of the unfolding -/

section Unfolding

variable {ast : Ast} {rs : List NodeRef} {f : Forest NodeRef} {origin : NodeRef → Json}

theorem Json.forest_filter (vs : List Json) :
    Json.forest (vs.filter Json.isTruthy) = Json.forest vs := by
  induction vs with
  | nil => rfl
  | cons v vs ih =>
    by_cases hv : v.isTruthy = true
    · rw [List.filter_cons_of_pos hv, forest_cons_of_truthy hv, forest_cons_of_truthy hv, ih]
    · rw [List.filter_cons_of_neg hv, forest_cons_of_falsy (by simpa using hv), ih]

/-- References to nodes that are finished unfold to the trees of their entries. -/
theorem Origins.unfolds (h : Origins ast.nodes [] origin) (hf : ast.Unfolds rs f) :
    ∀ vs : List Json, rs.map origin = vs.filter Json.isTruthy →
      f.map ast.content = (Json.forest vs).map Json.content := by
  induction hf with
  | nil =>
    intro vs hvs
    rw [← Json.forest_filter, ← hvs, List.map_nil, Json.forest_nil]
    rfl
  | @cons r rs node below rest here _ _ ihc iho =>
    intro vs hvs
    have hr : (origin r).isTruthy = true := by
      have hmem : origin r ∈ vs.filter Json.isTruthy := by
        rw [← hvs]
        exact List.mem_cons_self
      exact (List.mem_filter.1 hmem).2
    have hrest : rs.map origin = (rs.map origin).filter Json.isTruthy := by
      rw [List.map_cons] at hvs
      have := congrArg (List.filter Json.isTruthy) hvs
      rw [List.filter_filter, List.filter_cons_of_pos hr] at this
      simp only [Bool.and_self, ← hvs, List.cons.injEq, true_and] at this
      exact this.symm
    rw [← Json.forest_filter, ← hvs, List.map_cons, Json.forest_cons_of_truthy hr, Forest.map,
      Forest.map, ihc _ (h.children r node here (by simp)), iho _ hrest, Ast.content, here,
      Option.getD_some, h.content r node here (by simp)]

end Unfolding

/-! ### Entries that are too deep -/

/-- An entry that has a container and lies at the limit or below, where `vs` lie at `depth`. -/
def Json.Exceeds (limit depth : Nat) (vs : List Json) : Prop :=
  ∃ e ∈ (Json.forest vs).entries depth, limit ≤ e.depth ∧ e.label.container?.isSome

section Exceeds

variable {limit depth : Nat} {v : Json} {vs : List Json}

theorem not_exceeds_nil : ¬ Json.Exceeds limit depth [] := by
  simp [Json.Exceeds, Forest.entries]

theorem not_exceeds_of_falsy (hv : v.isTruthy = false) : ¬ Json.Exceeds limit depth [v] := by
  unfold Json.Exceeds
  rw [Json.forest_cons_of_falsy hv]
  simp [Forest.entries]

theorem exceeds_cons :
    Json.Exceeds limit depth (v :: vs)
      ↔ Json.Exceeds limit depth [v] ∨ Json.Exceeds limit depth vs := by
  by_cases hv : v.isTruthy = true
  · unfold Json.Exceeds
    rw [Json.forest_cons_of_truthy hv, Json.forest_cons_of_truthy hv]
    simp [Forest.entries, or_and_right, exists_or, or_assoc]
  · have hv : v.isTruthy = false := by simpa using hv
    unfold Json.Exceeds
    rw [Json.forest_cons_of_falsy hv, Json.forest_cons_of_falsy hv]
    simp [Forest.entries]

/-- An entry without a container has nothing below it. -/
theorem not_exceeds_of_leaf (h : containerOf? v = none) : ¬ Json.Exceeds limit depth [v] := by
  obtain ⟨hc, ho⟩ := offspring_of_containerOf?_eq_none h
  by_cases hv : v.isTruthy = true
  · unfold Json.Exceeds
    rw [Json.forest_cons_of_truthy hv, ho]
    simp [Forest.entries, hc]
  · exact not_exceeds_of_falsy (by simpa using hv)

theorem not_exceeds_of_leaves (h : ∀ v ∈ vs, containerOf? v = none) :
    ¬ Json.Exceeds limit depth vs := by
  induction vs with
  | nil => exact not_exceeds_nil
  | cons v vs ih =>
    obtain ⟨hv, hvs⟩ := List.forall_mem_cons.1 h
    rw [exceeds_cons, not_or]
    exact ⟨not_exceeds_of_leaf hv, ih hvs⟩

theorem exceeds_of_container {container : Container}
    (h : containerOf? v = some (container, v.offspring)) :
    Json.Exceeds limit depth [v]
      ↔ limit ≤ depth ∨ Json.Exceeds limit (depth + 1) v.offspring := by
  have hv : v.isTruthy = true := by
    cases v with
    | obj fields => rfl
    | _ => cases h
  have hc : v.container?.isSome = true := by
    rw [containerOf?_eq] at h
    obtain ⟨c, hsome, -⟩ := Option.map_eq_some_iff.1 h
    rw [hsome]
    rfl
  unfold Json.Exceeds
  rw [Json.forest_cons_of_truthy hv]
  simp [Forest.entries, hc]

/-- What was loaded waits on the stack with its depth. -/
theorem exceeds_load (s : Siblings) :
    (∃ p ∈ (s.load depth vs).pending, Json.Exceeds limit p.depth [p.value])
      ↔ Json.Exceeds limit depth vs
        ∨ ∃ p ∈ s.pending, Json.Exceeds limit p.depth [p.value] := by
  induction vs generalizing s with
  | nil => simp [Siblings.load, not_exceeds_nil]
  | cons v vs ih =>
    rw [exceeds_cons]
    by_cases hv : v.isTruthy = true
    · rw [Siblings.load_cons_of_truthy hv, ih]
      simp [Siblings.push, or_left_comm, or_assoc]
    · have hv : v.isTruthy = false := by simpa using hv
      rw [Siblings.load_cons_of_falsy hv, ih]
      simp [not_exceeds_of_falsy hv]

/-- A run fails exactly if something on its stack has an entry that is too deep. -/
theorem expand_eq_error_iff {nodes : Array AstNode} {lines : List LogLine} {pending : List Pending}
    {e : DocumentError} :
    (expand limit nodes lines pending).1 = .error e
      ↔ e = .tooDeep limit ∧ ∃ p ∈ pending, Json.Exceeds limit p.depth [p.value] := by
  fun_induction expand limit nodes lines pending with
  | case1 => simp
  | case2 nodes lines p rest hc _ ih => simp [ih, not_exceeds_of_leaf hc]
  | case3 nodes lines p rest container entries hc hd =>
    obtain rfl : entries = p.value.offspring := by
      rw [← entriesOf_eq, entriesOf, hc]
    simp [exceeds_of_container hc, hd, eq_comm]
  | case4 nodes lines p rest container entries hc hd s _ ih =>
    obtain rfl : entries = p.value.offspring := by
      rw [← entriesOf_eq, entriesOf, hc]
    rw [ih, exceeds_load]
    simp [exceeds_of_container hc, hd]

end Exceeds

/-! ### Documents -/

theorem origins_root (v : Json) : Origins #[(nodeOf v).1] [⟨⟨0⟩, v, 0⟩] fun _ => v := by
  have hnone : ∀ (r : NodeRef) node, #[(nodeOf v).1][r.index]? = some node →
      r ∉ [(⟨⟨0⟩, v, 0⟩ : Pending)].map Pending.slot → False := by
    rintro ⟨i⟩ node hr hne
    have hlt := (Array.getElem?_eq_some_iff.1 hr).1
    simp at hlt hne
    omega
  exact ⟨by simp, fun r node hr hne => (hnone r node hr hne).elim,
    fun r node hr hne => (hnone r node hr hne).elim⟩

/-- A loaded document unfolds to its tree, with the contents of its entries. -/
theorem Ast.map_content_of_ofJson {limit : Nat} {v : Json} {ast : Ast}
    (h : (Ast.ofJson limit v).outcome.value = .ok ast) :
    ∃ f, ast.Unfolds ast.root.toList f ∧ f.map ast.content = v.tree.map Json.content := by
  by_cases hv : v.isTruthy = true
  · obtain ⟨f, hf, -⟩ := (Ast.ofJson_holds h).1.unfolds
    refine ⟨f, hf, ?_⟩
    obtain ⟨nodes, hex, rfl⟩ := Ast.exists_expand hv h
    obtain ⟨origin, hfirst, ho⟩ :=
      exists_origins_of_expand (numbered_root v) (waiting_root hv) (origins_root v) hex
    exact ho.unfolds hf [v] (by simp [hfirst, hv])
  · have hv : v.isTruthy = false := by simpa using hv
    rw [Ast.value_ofJson_of_falsy hv] at h
    cases h
    exact ⟨.nil, .nil, by rw [Json.tree_of_falsy hv]; rfl⟩

theorem ofJson_eq_error_iff {limit : Nat} {v : Json} {e : DocumentError} :
    (Ast.ofJson limit v).outcome.value = .error e
      ↔ e = .tooDeep limit ∧ Json.Exceeds limit 0 [v] := by
  by_cases hv : v.isTruthy = true
  · have hex : (expand limit #[(nodeOf v).1] (nodeOf v).2 [⟨⟨0⟩, v, 0⟩]).1 = .error e ↔ _ :=
      expand_eq_error_iff
    simp only [List.mem_singleton, exists_eq_left] at hex
    rw [← hex, Ast.value_ofJson hv]
    cases (expand limit #[(nodeOf v).1] (nodeOf v).2 [⟨⟨0⟩, v, 0⟩]).1 <;> simp [Except.map]
  · have hv : v.isTruthy = false := by simpa using hv
    rw [Ast.value_ofJson_of_falsy hv]
    simp [not_exceeds_of_falsy hv]

/-- A document is loaded with everything in it, or it has an entry with a container too deep, in
whatever order its entries are met. -/
theorem ofJson_contents (limit : Nat) (v : Json) :
    (Json.Exceeds limit 0 [v]
        ∧ (Ast.ofJson limit v).outcome.value = .error (.tooDeep limit))
      ∨ (¬ Json.Exceeds limit 0 [v]
        ∧ ∃ ast f, (Ast.ofJson limit v).outcome.value = .ok ast
          ∧ ast.Unfolds ast.root.toList f ∧ f.map ast.content = v.tree.map Json.content
          ∧ f.size = ast.size) := by
  cases h : (Ast.ofJson limit v).outcome.value with
  | error e =>
    obtain ⟨rfl, hdeep⟩ := ofJson_eq_error_iff.1 h
    exact .inl ⟨hdeep, rfl⟩
  | ok ast =>
    obtain ⟨f, hf, hmap⟩ := Ast.map_content_of_ofJson h
    refine .inr ⟨fun hdeep => ?_, ast, f, rfl, hf, hmap, ?_⟩
    · rw [ofJson_eq_error_iff.2 ⟨rfl, hdeep⟩] at h
      cases h
    · rw [Forest.size_eq_of_map_eq hmap, (Ast.ofJson_holds h).2]

/-- Entries that are named by a number, by a text and by a list, and two without a name. -/
def namedDocument : Json :=
  .obj [("children", .arr [.obj [("id", .str "a")], .obj [("id", .arr [.bool true])],
      .obj [("id", .null)], .obj []]),
    ("id", .num (.int 7 (by decide)))]

/-- The names are those of the nodes, and with no level at all nothing is loaded. -/
theorem ofJson_contents_of_named :
    (Ast.ofJson 0 namedDocument).outcome.value = .error (.tooDeep 0)
      ∧ ∃ ast f, (Ast.ofJson 1 namedDocument).outcome.value = .ok ast
        ∧ ast.Unfolds ast.root.toList f
        ∧ (f.map ast.content).map Content.id
          = .cons (some (.number (.int 7 (by decide))))
              (.cons (some (.text "a")) .nil
                (.cons (some (.text "[true]")) .nil (.cons none .nil (.cons none .nil .nil))))
              .nil := by
  have hc : containerOf? namedDocument = some (.children, namedDocument.offspring) := rfl
  refine ⟨?_, ?_⟩
  · rcases ofJson_contents 0 namedDocument with ⟨-, h⟩ | ⟨hflat, -⟩
    · exact h
    · exact absurd ((exceeds_of_container hc).2 (.inl (Nat.le_refl 0))) hflat
  · have hleaves : ∀ w ∈ namedDocument.offspring, containerOf? w = none := by
      rw [show namedDocument.offspring = [_, _, _, _] from rfl]
      simp only [List.forall_mem_cons]
      exact ⟨rfl, rfl, rfl, rfl, List.forall_mem_nil _⟩
    rcases ofJson_contents 1 namedDocument with ⟨hdeep, -⟩ | ⟨-, ast, f, h, hf, hmap, -⟩
    · rcases (exceeds_of_container hc).1 hdeep with hlt | hbelow
      · exact absurd hlt (by decide)
      · exact absurd hbelow (not_exceeds_of_leaves hleaves)
    · refine ⟨ast, f, h, hf, ?_⟩
      rw [hmap]
      with_unfolding_all rfl

end TreeAtlas
