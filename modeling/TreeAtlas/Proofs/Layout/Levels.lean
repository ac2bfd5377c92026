import TreeAtlas.Proofs.Layout.Keys

/-!
# Levels of a layout

A visit is one level below the visit it was reached from, so no depth above it is left out
(`exists_visit_at_depth`), and the levels of a layout are the depths of its circles.  Counted along
the layout, the columns of a level are the numbers from zero up (`Ranked.columns`).  While circles
are placed there is a size for each level so far (`Placing.size_sizes`), so the canvas is measured
by the last column and the last level that occur.
-/

namespace TreeAtlas

/-! ### Greatest values of folds -/

section Folds

variable {α : Type} {f : α → Nat} {n : Nat} {as : List α}

theorem foldl_max_le_iff {m : Nat} :
    as.foldl (fun n a => max n (f a)) n ≤ m ↔ n ≤ m ∧ ∀ a ∈ as, f a ≤ m := by
  induction as generalizing n with
  | nil => simp
  | cons a as ih => rw [List.foldl_cons, ih, List.forall_mem_cons, max_le_iff, and_assoc]

theorem foldl_max_eq_or (f : α → Nat) (n : Nat) (as : List α) :
    as.foldl (fun n a => max n (f a)) n = n
      ∨ ∃ a ∈ as, as.foldl (fun n a => max n (f a)) n = f a := by
  induction as generalizing n with
  | nil => exact .inl rfl
  | cons a as ih =>
    rw [List.foldl_cons]
    rcases ih (max n (f a)) with h | ⟨b, hb, h⟩
    · rcases Nat.le_total (f a) n with hle | hle
      · exact .inl (h.trans (max_eq_left hle))
      · exact .inr ⟨a, List.mem_cons_self, h.trans (max_eq_right hle)⟩
    · exact .inr ⟨b, List.mem_cons_of_mem _ hb, h⟩

end Folds

/-! ### Levels -/

section Levels

variable {ast : Ast} {f : Forest NodeRef} {layout : BubbleLayout}

/-- What is visited at some depth lies below visits of all smaller depths. -/
theorem exists_visit_at_depth (hf : ast.Unfolds ast.root.toList f) {v : Visit} {d : Nat}
    (hv : v ∈ f.visits 0 none 0) (hd : d ≤ v.depth) : ∃ u ∈ f.visits 0 none 0, u.depth = d := by
  obtain ⟨above, habove⟩ := Nat.le.dest hd
  induction above generalizing v with
  | zero => exact ⟨v, hv, habove.symm⟩
  | succ above ih =>
    obtain ⟨i, hi⟩ := List.getElem?_of_mem hv
    cases i with
    | zero =>
      obtain ⟨-, hzero, -⟩ := first_visit hf hi
      omega
    | succ i =>
      obtain ⟨s, u, -, -, hu, hdepth, -⟩ := follows_at hf hi
      exact ih (List.mem_of_getElem? hu) (by omega) (by omega)

theorem BubbleLayout.depth_lt_levels {b : Bubble} (hb : b ∈ layout.bubbles) :
    b.depth < layout.levels :=
  (foldl_max_le_iff.1 (Nat.le_refl layout.levels)).2 b hb.val

theorem BubbleLayout.exists_deepest (h : layout.levels ≠ 0) :
    ∃ b ∈ layout.bubbles, b.depth + 1 = layout.levels := by
  rcases foldl_max_eq_or (fun b : Bubble => b.depth + 1) 0 layout.bubbles.toList
    with hzero | ⟨b, hb, hdepth⟩
  · exact absurd hzero h
  · exact ⟨b, Array.mem_toList_iff.1 hb, hdepth.symm⟩

/-- The levels are the depths that occur. -/
theorem lt_levels_iff (hf : ast.Unfolds ast.root.toList f)
    (hshows : List.Forall₂ (Bubble.Shows ast) layout.bubbles.toList (f.visits 0 none 0)) {d : Nat} :
    d < layout.levels ↔ ∃ b ∈ layout.bubbles, b.depth = d := by
  refine ⟨fun hd => ?_, ?_⟩
  · obtain ⟨b, hb, hdepth⟩ := layout.exists_deepest (Nat.ne_zero_of_lt hd)
    obtain ⟨i, hi⟩ := Array.mem_iff_getElem?.1 hb
    obtain ⟨v, hv, hbv⟩ := exists_visit hshows hi
    have hle : d ≤ v.depth := by
      rw [← hbv.depth_eq]
      omega
    obtain ⟨u, hu, hud⟩ := exists_visit_at_depth hf (List.mem_of_getElem? hv) hle
    obtain ⟨j, hj⟩ := List.getElem?_of_mem hu
    obtain ⟨c, hc, hcu⟩ := exists_bubble hshows hj
    exact ⟨c, Array.mem_of_getElem? hc, hcu.depth_eq.trans hud⟩
  · rintro ⟨b, hb, rfl⟩
    exact BubbleLayout.depth_lt_levels hb

end Levels

/-! ### Columns -/

section Columns

variable {bubbles : Array Bubble}

/-- The columns of a row count its circles. -/
theorem Ranked.columns (h : Ranked bubbles) (depth : Nat) :
    (bubbles.toList.filter (·.depth == depth)).map Bubble.index
      = List.range (inRow bubbles.toList depth) := by
  have key : ∀ n, ((bubbles.toList.take n).filter (·.depth == depth)).map Bubble.index
      = List.range (inRow (bubbles.toList.take n) depth) := by
    intro n
    induction n with
    | zero => rfl
    | succ n ih =>
      rw [List.take_add_one, Array.getElem?_toList]
      cases hb : bubbles[n]? with
      | none => rwa [Option.toList_none, List.append_nil]
      | some b =>
        have hindex := h.index n b hb
        rw [Option.toList_some, List.filter_append, List.map_append, ih, inRow_append_singleton]
        by_cases hd : b.depth = depth
        · subst hd
          rw [if_pos rfl, List.range_succ, ← hindex, List.filter_cons_of_pos (by simp)]
          rfl
        · rw [if_neg (Ne.symm hd), List.filter_cons_of_neg (by simpa using hd), List.filter_nil,
            List.map_nil, List.append_nil, Nat.add_zero]
  have := key bubbles.toList.length
  rwa [List.take_length] at this

/-- A circle stands in each column before the end of a row. -/
theorem Ranked.lt_inRow_iff (h : Ranked bubbles) {depth column : Nat} :
    column < inRow bubbles.toList depth
      ↔ ∃ b ∈ bubbles, b.depth = depth ∧ b.index = column := by
  rw [← List.mem_range, ← h.columns depth, List.mem_map]
  simp only [List.mem_filter, Array.mem_toList_iff, beq_iff_eq, and_assoc]

theorem Ranked.nodup_places (h : Ranked bubbles) :
    (bubbles.toList.map fun b => (b.depth, b.index)).Nodup :=
  nodup_map_bubbles fun _ _ _ _ hb hc hplace =>
    h.slot_eq hb hc (congrArg Prod.fst hplace) (congrArg Prod.snd hplace)

/-- Circles without identifier have different keys. -/
theorem Ranked.nodup_keys (h : Ranked bubbles) :
    ((bubbles.toList.filter (·.id.isNone)).map Bubble.key).Nodup := by
  have hkeys : (bubbles.toList.filter (·.id.isNone)).map Bubble.key
      = ((bubbles.toList.filter (·.id.isNone)).map fun b => (b.depth, b.index)).map
          fun place => placeText place.1 place.2 := by
    rw [List.map_map]
    refine List.map_congr_left fun b hb => ?_
    obtain ⟨hb, hid⟩ := List.mem_filter.1 hb
    rw [h.key b (Array.mem_toList_iff.1 hb), Bubble.name, Option.isNone_iff_eq_none.1 hid]
    rfl
  have hinj : Function.Injective fun place : Nat × Nat => placeText place.1 place.2 :=
    fun p q hpq => Prod.ext_iff.2 (placeText_inj hpq)
  rw [hkeys]
  exact (h.nodup_places.sublist (List.filter_sublist.map _)).map hinj

end Columns

/-! ### The canvas -/

theorem LevelSizes.size_push (sizes : LevelSizes) (depth : Nat) :
    (sizes.push depth).size = max sizes.size (depth + 1) := by
  rw [LevelSizes.push, Array.size_modify, Array.size_append, Array.size_replicate]
  omega

section Canvas

variable {ast : Ast} {config : LayoutConfig} {layout : BubbleLayout} {visits : List Visit}
  {p : Placing}

/-- There is a size for each level. -/
theorem Placing.size_sizes
    (h : visits.foldlM (Placing.place ast config) { counter := .ofAst ast } = .ok p) :
    p.sizes.size = p.bubbles.toList.foldl (fun n b => max n (b.depth + 1)) 0 := by
  refine foldlM_keeps (P := fun p : Placing =>
    p.sizes.size = p.bubbles.toList.foldl (fun n b => max n (b.depth + 1)) 0)
    (fun p v p' hp h => ?_) rfl h
  unfold Placing.place at h
  split at h
  · cases h
  split at h
  · cases h
  cases h
  rw [LevelSizes.size_push, hp, Array.toList_push, List.foldl_append]
  rfl

/-- The last column that occurs is one before the largest size. -/
theorem Placing.Counts.isGreatest_index (h : p.Counts) (hp : 0 < p.bubbles.size) :
    IsGreatest {i | ∃ b ∈ p.bubbles, b.index = i} (p.sizes.foldl max 1 - 1) := by
  rw [← Array.foldl_toList]
  obtain ⟨hone, hle⟩ := (foldl_max_le_iff (f := id)).1 (Nat.le_refl (p.sizes.toList.foldl max 1))
  refine ⟨?_, ?_⟩
  · rcases foldl_max_eq_or id 1 p.sizes.toList with hmax | ⟨size, hsize, hmax⟩
    · exact ⟨p.bubbles[0], Array.getElem_mem hp,
        (h.ranked.index 0 _ (Array.getElem?_eq_getElem hp)).trans (congrArg (· - 1) hmax).symm⟩
    · obtain ⟨d, hd⟩ := List.getElem?_of_mem hsize
      have hcount : p.sizes.count d = size := by
        rw [LevelSizes.count, Array.getD_eq_getD_getElem?, ← Array.getElem?_toList, hd]
        rfl
      have hlt : size - 1 < inRow p.bubbles.toList d := by
        rw [← h.sizes, hcount]
        exact Nat.sub_lt (hone.trans_eq hmax) Nat.one_pos
      obtain ⟨b, hb, -, hindex⟩ := h.ranked.lt_inRow_iff.1 hlt
      exact ⟨b, hb, hindex.trans (congrArg (· - 1) hmax).symm⟩
  · rintro _ ⟨b, hb, rfl⟩
    have hlt : b.index < p.sizes.count b.depth := by
      rw [h.sizes]
      exact h.ranked.lt_inRow_iff.2 ⟨b, hb, rfl, rfl⟩
    refine Nat.le_sub_one_of_lt (hlt.trans_le ?_)
    rw [LevelSizes.count, Array.getD_eq_getD_getElem?, ← Array.getElem?_toList]
    cases hd : p.sizes.toList[b.depth]? with
    | none => exact Nat.zero_le _
    | some size => exact hle size (List.mem_of_getElem? hd)

end Canvas

/-! ### The levels of a layout -/

/-- The levels of a layout have no gaps, and neither have the columns of a level. -/
structure BubbleLayout.Levelled (config : LayoutConfig) (layout : BubbleLayout) : Prop where
  /-- The levels are the depths that occur. -/
  levels : ∀ depth, depth < (LayoutDump.ofLayout layout).levels ↔
    ∃ b ∈ layout.bubbles, b.depth = depth
  empty : layout.bubbles = #[] → (LayoutDump.ofLayout layout).levels = 0
  /-- The columns of a level, in order. -/
  columns : ∀ depth, (layout.bubbles.toList.filter (·.depth == depth)).map Bubble.index
    = List.range (inRow layout.bubbles.toList depth)
  places : (layout.bubbles.toList.map fun b => (b.depth, b.index)).Nodup
  keys : ((layout.bubbles.toList.filter (·.id.isNone)).map Bubble.key).Nodup
  /-- The canvas reaches from the padding over the steps to the last column, and to the last level,
  to the padding on the other side, with the slack, and is no smaller than the least size. -/
  canvas : layout.bubbles ≠ #[] → ∃ column row,
    IsGreatest {i | ∃ b ∈ layout.bubbles, b.index = i} column
      ∧ IsGreatest {d | ∃ b ∈ layout.bubbles, b.depth = d} row
      ∧ layout.width = singleMax
          (config.paddingX * 2 + singleOfNat column * config.columnWidth + config.overflowSlack)
          config.minWidth
      ∧ layout.height = singleMax
          (config.paddingY * 2 + singleOfNat row * config.rowHeight + config.overflowSlack)
          config.minHeight

section Layout

variable {ast : Ast} {config : LayoutConfig} {layout : BubbleLayout}

theorem BubbleLayout.isGreatest_depth (hlevels : ∀ d, d < layout.levels ↔
    ∃ b ∈ layout.bubbles, b.depth = d) (h : 0 < layout.bubbles.size) :
    IsGreatest {d | ∃ b ∈ layout.bubbles, b.depth = d} (layout.levels - 1) := by
  have hpos := Nat.zero_lt_of_lt ((hlevels _).2 ⟨layout.bubbles[0], Array.getElem_mem h, rfl⟩)
  exact ⟨(hlevels _).1 (Nat.sub_lt hpos Nat.one_pos),
    fun d hd => Nat.le_sub_one_of_lt ((hlevels d).2 hd)⟩

/-- Columns are ranks in their levels, and levels and columns are counted without gaps. -/
theorem levels_of_layout (h : (layoutBubbles ast config).outcome.value = .ok layout) :
    layout.Levelled config := by
  obtain ⟨f, hf, hshows, -⟩ := layoutBubbles_shows h
  obtain ⟨visits, p, -, hp, hbubbles, hwidth, hheight⟩ := exists_placing h
  have hranked := ranked_of_layout h
  have hlevels : ∀ d, d < layout.levels ↔ ∃ b ∈ layout.bubbles, b.depth = d :=
    fun d => lt_levels_iff hf hshows
  refine ⟨hlevels, fun hempty => ?_, hranked.columns, hranked.nodup_places, hranked.nodup_keys,
    fun hne => ?_⟩
  · rw [LayoutDump.ofLayout, BubbleLayout.levels, hempty]
    rfl
  · have hpos : 0 < layout.bubbles.size := Array.size_pos_iff.2 hne
    refine ⟨p.sizes.foldl max 1 - 1, layout.levels - 1, ?_,
      BubbleLayout.isGreatest_depth hlevels hpos, hwidth, ?_⟩
    · rw [hbubbles] at hpos ⊢
      exact (Placing.counts_of_foldlM hp).isGreatest_index hpos
    · rw [hheight, Placing.size_sizes hp, ← hbubbles]
      rfl

end Layout

/-- The circles of a shared node stand side by side. -/
theorem levels_of_sharedAst :
    ∃ layout, (layoutBubbles sharedAst {}).outcome.value = .ok layout ∧ layout.Levelled {}
      ∧ layout.bubbles.toList.map Bubble.depth = [0, 1, 2, 1, 2]
      ∧ (layout.bubbles.toList.filter (·.depth == 1)).map Bubble.index = [0, 1] := by
  obtain ⟨layout, hlayout, hshows, -⟩ := @layoutBubbles_ok sharedAst {} _ preorder_sharedAst
  have hlevelled := levels_of_layout hlayout
  have hdepths : layout.bubbles.toList.map Bubble.depth = [0, 1, 2, 1, 2] :=
    map_eq_map_of_forall₂ hshows fun _ _ => Bubble.Shows.depth_eq
  have hrow : inRow layout.bubbles.toList 1
      = (layout.bubbles.toList.map Bubble.depth).countP (· == 1) := by
    rw [List.countP_map]
    rfl
  refine ⟨layout, hlayout, hlevelled, hdepths, ?_⟩
  rw [hlevelled.columns 1, hrow, hdepths]
  rfl

end TreeAtlas
