import TreeAtlas.Layout.Walk
import TreeAtlas.Proofs.Ast.Unfolding

/-!
# The walk as a recursion

`descend` walks a list of siblings by recursion: it carries the ancestors as a list where the walk
keeps a path that it cuts back, and calls itself for the children where the walk stacks visits.
`run_siblings` says that the two agree for whatever waits on the stack below the siblings: after
them the path may be longer, but not different above their depth.

A descent that succeeds lists the unfolding of the siblings (`descend_ok`).  One that fails says
what is wrong with them (`descend_error`), and cannot have gone deeper than there are nodes
(`descend_depth`).
-/

namespace TreeAtlas

/-- The visits of a forest whose first visit has position `slot` in the walk. -/
def Forest.visits (depth : Nat) (parent : Option Nat) (slot : Nat) : Forest NodeRef → List Visit
  | nil => []
  | cons r below rest =>
    ⟨r, depth, parent⟩ ::
      (below.visits (depth + 1) (some slot) (slot + 1)
        ++ rest.visits depth parent (slot + 1 + below.size))

@[simp] theorem Forest.length_visits (f : Forest NodeRef) (depth : Nat) (parent : Option Nat)
    (slot : Nat) : (f.visits depth parent slot).length = f.size := by
  induction f generalizing depth parent slot with
  | nil => rfl
  | cons r below rest ihb ihr =>
    simp only [visits, List.length_cons, List.length_append, ihb, ihr, size]
    omega

namespace Walk

variable (ast : Ast) (maxDepth maxNodes : Nat)

/-- Walks siblings below the nodes `above`, after the visits so far. -/
def descend (depth : Nat) (parent : Option Nat) (above : List NodeRef) (visits : Array Visit) :
    List NodeRef → Except LayoutError (Array Visit)
  | [] => .ok visits
  | r :: rs =>
    if maxDepth < depth then .error (.depthExceeded maxDepth)
    else if maxNodes ≤ visits.size then .error (.tooManyNodes maxNodes)
    else match ast.get? r with
      | none => .error (.unknownNode r)
      | some node =>
        if r ∈ above then .error (.cycle r)
        else
          match descend (depth + 1) (some visits.size) (r :: above)
            (visits.push ⟨r, depth, parent⟩) node.children with
          | .error e => .error e
          | .ok visits => descend depth parent above visits rs
termination_by rs => (maxDepth + 1 - depth, rs.length)
decreasing_by
  · exact .left _ _ (by omega)
  · exact .right _ (Nat.lt_succ_self _)

/-! ### Agreement with the stack -/

variable {ast maxDepth maxNodes}

/-- One visit of the walk, its path told by the ancestors. -/
theorem run_visit {visits : Array Visit} {path : Array NodeRef} {v : Visit} {rest : List Visit}
    {above : List NodeRef} (hpath : path.toList.take v.depth = above.reverse) :
    run ast maxDepth maxNodes (maxNodes - visits.size) ⟨visits, path, v :: rest⟩
      = if maxDepth < v.depth then .error (.depthExceeded maxDepth)
        else if maxNodes ≤ visits.size then .error (.tooManyNodes maxNodes)
        else match ast.get? v.node with
          | none => .error (.unknownNode v.node)
          | some node =>
            if v.node ∈ above then .error (.cycle v.node)
            else run ast maxDepth maxNodes (maxNodes - (visits.size + 1))
              ⟨visits.push v, (path.shrink v.depth).push v.node,
                below node visits.size v.depth ++ rest⟩ := by
  have hmem : (path.shrink v.depth).contains v.node = true ↔ v.node ∈ above := by
    rw [Array.contains_iff_mem, ← Array.mem_toList_iff, Array.toList_shrink, hpath,
      List.mem_reverse]
  rw [run.eq_def]
  simp only []
  by_cases hd : maxDepth < v.depth
  · rw [if_pos hd, if_pos hd]
  rw [if_neg hd, if_neg hd]
  by_cases hn : maxNodes ≤ visits.size
  · rw [if_pos hn, Nat.sub_eq_zero_of_le hn]
  obtain ⟨budget, hb⟩ : ∃ budget, maxNodes - visits.size = budget + 1 :=
    ⟨maxNodes - visits.size - 1, by omega⟩
  rw [if_neg hn, hb, show maxNodes - (visits.size + 1) = budget by omega]
  simp only [visit]
  cases ast.get? v.node with
  | none => rfl
  | some node =>
    by_cases hc : v.node ∈ above
    · simp only [if_pos hc, if_pos (hmem.2 hc)]
      rfl
    · simp only [if_neg hc, if_neg (mt hmem.1 hc)]
      rfl

theorem take_push_path {path : Array NodeRef} {depth : Nat} {above : List NodeRef} (r : NodeRef)
    (hpath : path.toList.take depth = above.reverse) (hdepth : above.length = depth) :
    ((path.shrink depth).push r).toList.take (depth + 1) = (r :: above).reverse := by
  rw [Array.toList_push, Array.toList_shrink, hpath, List.reverse_cons, List.take_of_length_le]
  simp [hdepth]

theorem take_of_take_succ {path : Array NodeRef} {depth : Nat} {above : List NodeRef}
    {r : NodeRef} (hpath : path.toList.take (depth + 1) = (r :: above).reverse)
    (hdepth : above.length = depth) : path.toList.take depth = above.reverse := by
  have : (path.toList.take (depth + 1)).take depth = above.reverse := by
    rw [hpath, List.reverse_cons, List.take_left' (by rw [List.length_reverse, hdepth])]
  rwa [List.take_take, Nat.min_eq_left (Nat.le_succ _)] at this

/-- The walk of siblings that wait on top of `rest` is their descent, then the walk of `rest`. -/
theorem run_siblings (depth : Nat) (parent : Option Nat) (above : List NodeRef)
    (visits : Array Visit) (rs : List NodeRef) (path : Array NodeRef) (rest : List Visit)
    (hpath : path.toList.take depth = above.reverse) (hdepth : above.length = depth) :
    ∃ path', path'.toList.take depth = above.reverse ∧
      run ast maxDepth maxNodes (maxNodes - visits.size)
          ⟨visits, path, rs.map (⟨·, depth, parent⟩) ++ rest⟩
        = (descend ast maxDepth maxNodes depth parent above visits rs).bind fun visits' =>
            run ast maxDepth maxNodes (maxNodes - visits'.size) ⟨visits', path', rest⟩ := by
  fun_induction descend ast maxDepth maxNodes depth parent above visits rs
    generalizing path rest with
  | case1 => exact ⟨path, hpath, rfl⟩
  | case2 depth parent above visits r rs h =>
    exact ⟨path, hpath, by rw [List.map_cons, List.cons_append, run_visit hpath, if_pos h]; rfl⟩
  | case3 depth parent above visits r rs hd hn =>
    refine ⟨path, hpath, ?_⟩
    rw [List.map_cons, List.cons_append, run_visit hpath, if_neg hd, if_pos hn]
    rfl
  | case4 depth parent above visits r rs hd hn hr =>
    refine ⟨path, hpath, ?_⟩
    rw [List.map_cons, List.cons_append, run_visit hpath, if_neg hd, if_neg hn, hr]
    rfl
  | case5 depth parent above visits r rs hd hn node hr hc =>
    refine ⟨path, hpath, ?_⟩
    rw [List.map_cons, List.cons_append, run_visit hpath, if_neg hd, if_neg hn, hr]
    simp only [hc, if_true]
    rfl
  | case6 depth parent above visits r rs hd hn node hr hc e he ihb =>
    obtain ⟨path', -, hrun⟩ := ihb ((path.shrink depth).push r)
      (rs.map (⟨·, depth, parent⟩) ++ rest) (take_push_path r hpath hdepth) (by simp [hdepth])
    rw [Array.size_push, he] at hrun
    refine ⟨path, hpath, ?_⟩
    rw [List.map_cons, List.cons_append, run_visit hpath, if_neg hd, if_neg hn, hr]
    simp only [hc, if_false]
    exact hrun
  | case7 depth parent above visits r rs hd hn node hr hc visits' he ihb ihr =>
    obtain ⟨path₁, hpath₁, hrun₁⟩ := ihb ((path.shrink depth).push r)
      (rs.map (⟨·, depth, parent⟩) ++ rest) (take_push_path r hpath hdepth) (by simp [hdepth])
    obtain ⟨path₂, hpath₂, hrun₂⟩ := ihr path₁ rest (take_of_take_succ hpath₁ hdepth) hdepth
    rw [Array.size_push, he] at hrun₁
    refine ⟨path₂, hpath₂, ?_⟩
    rw [List.map_cons, List.cons_append, run_visit hpath, if_neg hd, if_neg hn, hr]
    simp only [hc, if_false]
    exact hrun₁.trans hrun₂

/-! ### What a descent says -/

variable {depth : Nat} {parent : Option Nat} {above : List NodeRef} {visits visits' : Array Visit}
  {rs : List NodeRef} {e : LayoutError}

theorem size_of_visits {f : Forest NodeRef} {slot : Nat}
    (h : visits'.toList = visits.toList ++ f.visits depth parent slot) :
    visits'.size = visits.size + f.size := by
  rw [← Array.length_toList, h, List.length_append, Array.length_toList, Forest.length_visits]

/-- A descent that succeeds lists the unfolding of the siblings, which keeps to the limits. -/
theorem descend_ok
    (h : descend ast maxDepth maxNodes depth parent above visits rs = .ok visits') :
    ∃ f, ast.Unfolds rs f ∧ f.levels ≤ maxDepth + 1 - depth ∧ f.size ≤ maxNodes - visits.size
      ∧ visits'.toList = visits.toList ++ f.visits depth parent visits.size := by
  fun_induction descend ast maxDepth maxNodes depth parent above visits rs generalizing visits' with
  | case1 depth parent above visits =>
    cases h
    exact ⟨.nil, .nil, by simp, by simp, by simp [Forest.visits]⟩
  | case2 => cases h
  | case3 => cases h
  | case4 => cases h
  | case5 => cases h
  | case6 => cases h
  | case7 depth parent above visits r rs hd hn node hr hc visits₁ he ihb ihr =>
    obtain ⟨below, hb, hbl, hbs, hbv⟩ := ihb he
    obtain ⟨rest, hu, hl, hs, hv⟩ := ihr h
    have hsize := size_of_visits hbv
    rw [Array.size_push] at hbs hsize
    refine ⟨.cons r below rest, .cons hr hb hu, ?_, ?_, ?_⟩
    · simp only [Forest.levels_cons]
      omega
    · simp only [Forest.size_cons]
      omega
    · rw [hv, hbv, hsize]
      simp [Forest.visits]

variable (ast maxDepth maxNodes) in
/-- What an error says about siblings at `depth` that are met after `count` visits. -/
def Truthful (depth count : Nat) (rs : List NodeRef) : LayoutError → Prop
  | .cycle n => (∃ r ∈ rs, ast.Reaches r n) ∧ ast.Above n n
  | .unknownNode n => (∃ r ∈ rs, ast.Reaches r n) ∧ ast.contains n = false
  | .depthExceeded limit => limit = maxDepth
      ∧ ∃ r ∈ rs, ∃ route ∈ ast.routes r, depth + route.length = maxDepth + 1
  | .tooManyNodes limit => limit = maxNodes ∧ (maxNodes : ℕ∞) < count + (rs.map ast.ways).sum

/-- What is wrong with the children of a sibling is wrong with the siblings. -/
theorem Truthful.of_kids {count : Nat} {r : NodeRef}
    (h : Truthful ast maxDepth maxNodes (depth + 1) (count + 1) (ast.kids r) e) :
    Truthful ast maxDepth maxNodes depth count (r :: rs) e := by
  cases e with
  | cycle n =>
    obtain ⟨⟨k, hk, hkn⟩, hc⟩ := h
    exact ⟨⟨r, List.mem_cons_self, .head hk hkn⟩, hc⟩
  | unknownNode n =>
    obtain ⟨⟨k, hk, hkn⟩, hc⟩ := h
    exact ⟨⟨r, List.mem_cons_self, .head hk hkn⟩, hc⟩
  | depthExceeded limit =>
    obtain ⟨hlimit, k, hk, route, hroute, hlen⟩ := h
    obtain ⟨i, hi⟩ := List.getElem?_of_mem hk
    refine ⟨hlimit, r, List.mem_cons_self, i :: route, ?_, ?_⟩
    · exact Ast.cons_mem_routes.2 ⟨i, route, k, rfl, hi, hroute⟩
    · simp only [List.length_cons]
      omega
  | tooManyNodes limit =>
    refine ⟨h.1, h.2.trans_le ?_⟩
    rw [List.map_cons, List.sum_cons, Ast.ways_eq, Nat.cast_add, Nat.cast_one, add_assoc]
    gcongr (count : ℕ∞) + ?_
    exact le_self_add

/-- What is wrong with later siblings is wrong with the siblings. -/
theorem Truthful.of_rest {count count' : Nat} {r : NodeRef}
    (hcount : (count' : ℕ∞) = count + ast.ways r)
    (h : Truthful ast maxDepth maxNodes depth count' rs e) :
    Truthful ast maxDepth maxNodes depth count (r :: rs) e := by
  cases e with
  | cycle n =>
    obtain ⟨⟨k, hk, hkn⟩, hc⟩ := h
    exact ⟨⟨k, List.mem_cons_of_mem _ hk, hkn⟩, hc⟩
  | unknownNode n =>
    obtain ⟨⟨k, hk, hkn⟩, hc⟩ := h
    exact ⟨⟨k, List.mem_cons_of_mem _ hk, hkn⟩, hc⟩
  | depthExceeded limit =>
    obtain ⟨hlimit, k, hk, hroute⟩ := h
    exact ⟨hlimit, k, List.mem_cons_of_mem _ hk, hroute⟩
  | tooManyNodes limit =>
    refine ⟨h.1, ?_⟩
    rw [List.map_cons, List.sum_cons, ← add_assoc, ← hcount]
    exact h.2

/-- A descent that fails says what is wrong with the siblings. -/
theorem descend_error (h : descend ast maxDepth maxNodes depth parent above visits rs = .error e)
    (hdepth : depth ≤ maxDepth + 1) (habove : ∀ a ∈ above, ∀ r ∈ rs, ast.Above a r) :
    Truthful ast maxDepth maxNodes depth visits.size rs e := by
  fun_induction descend ast maxDepth maxNodes depth parent above visits rs with
  | case1 => cases h
  | case2 depth parent above visits r rs hd =>
    cases h
    refine ⟨rfl, r, List.mem_cons_self, [], Ast.nil_mem_routes r, ?_⟩
    simp only [List.length_nil]
    omega
  | case3 depth parent above visits r rs hd hn =>
    cases h
    have hlt : (maxNodes : ℕ∞) < visits.size + 1 := by
      exact_mod_cast Nat.lt_succ_of_le hn
    refine ⟨rfl, hlt.trans_le ?_⟩
    rw [List.map_cons, List.sum_cons]
    gcongr
    exact (Ast.one_le_ways r).trans le_self_add
  | case4 depth parent above visits r rs hd hn hr =>
    cases h
    exact ⟨⟨r, List.mem_cons_self, .refl⟩, Ast.contains_eq_false_iff.2 hr⟩
  | case5 depth parent above visits r rs hd hn node hr hc =>
    cases h
    exact ⟨⟨r, List.mem_cons_self, .refl⟩, habove r hc r List.mem_cons_self⟩
  | case6 depth parent above visits r rs hd hn node hr hc e' he ihb =>
    cases h
    have habove' : ∀ a ∈ r :: above, ∀ k ∈ node.children, ast.Above a k := by
      intro a ha k hk
      rw [← Ast.kids_of_get? hr] at hk
      rcases List.mem_cons.1 ha with rfl | ha
      · exact .single hk
      · exact (habove a ha r List.mem_cons_self).tail hk
    have := ihb he (by omega) habove'
    rw [Array.size_push, ← Ast.kids_of_get? hr] at this
    exact this.of_kids
  | case7 depth parent above visits r rs hd hn node hr hc visits₁ he ihb ihr =>
    obtain ⟨below, hb, -, -, hv⟩ := descend_ok he
    have hways : ((visits₁.size : Nat) : ℕ∞) = visits.size + ast.ways r := by
      rw [size_of_visits hv, Array.size_push, Ast.ways_eq, Ast.kids_of_get? hr, hb.sum_ways]
      push_cast
      rw [add_assoc]
    exact (ihr h hdepth fun a ha k hk => habove a ha k (List.mem_cons_of_mem _ hk)).of_rest hways

/-- A descent goes no deeper than there are nodes: its ancestors are different nodes. -/
theorem descend_depth {limit : Nat}
    (h : descend ast maxDepth maxNodes depth parent above visits rs = .error (.depthExceeded limit))
    (hdepth : above.length = depth) (hnodup : above.Nodup)
    (hin : ∀ a ∈ above, ast.contains a = true) : maxDepth < ast.size := by
  fun_induction descend ast maxDepth maxNodes depth parent above visits rs with
  | case1 => cases h
  | case2 depth parent above visits r rs hd =>
    have := Ast.length_le_size hnodup hin
    omega
  | case3 => cases h
  | case4 => cases h
  | case5 => cases h
  | case6 depth parent above visits r rs hd hn node hr hc e' he ihb =>
    cases h
    refine ihb he (by rw [List.length_cons, hdepth]) (List.nodup_cons.2 ⟨hc, hnodup⟩) ?_
    intro a ha
    rcases List.mem_cons.1 ha with rfl | ha
    · exact Ast.contains_iff.2 ⟨node, hr⟩
    · exact hin a ha
  | case7 depth parent above visits r rs hd hn node hr hc visits₁ he ihb ihr =>
    exact ihr h hdepth hnodup hin

end Walk

/-- The nodes of a tree in document order are the descent from its root. -/
theorem preorder_eq_descent (ast : Ast) (maxDepth maxNodes : Nat) :
    preorder ast maxDepth maxNodes
      = Walk.descend ast maxDepth maxNodes 0 none [] #[] ast.root.toList := by
  obtain ⟨path, -, h⟩ :=
    @Walk.run_siblings ast maxDepth maxNodes 0 none [] #[] ast.root.toList #[] [] rfl rfl
  have hstack : (ast.root.map (⟨·, 0, none⟩ : NodeRef → Visit)).toList
      = ast.root.toList.map (⟨·, 0, none⟩) ++ [] := by
    cases ast.root <;> rfl
  rw [preorder, hstack]
  refine h.trans ?_
  cases Walk.descend ast maxDepth maxNodes 0 none [] #[] ast.root.toList with
  | error e => rfl
  | ok visits => simp [Except.bind, Walk.run.eq_def]

end TreeAtlas
