import TreeAtlas.Proofs.Layout.Links

/-!
# Columns of circles

While circles are placed, the level sizes count the circles of each depth.  So the column of a
circle is the number of circles before it in its row (`Ranked`), and no two circles share a row and
a column (`Ranked.slot_eq`).
-/

namespace TreeAtlas

/-! ### Level sizes -/

theorem LevelSizes.count_push (sizes : LevelSizes) (depth d : Nat) :
    (sizes.push depth).count d = sizes.count d + if d = depth then 1 else 0 := by
  have hzeros : ∀ e, (sizes ++ Array.replicate (depth + 1 - sizes.size) 0).getD e 0
      = sizes.count e := by
    intro e
    rw [LevelSizes.count, Array.getD_eq_getD_getElem?, Array.getD_eq_getD_getElem?,
      Array.getElem?_append]
    split
    · rfl
    · rename_i he
      rw [Array.getElem?_replicate, Array.getElem?_eq_none (Nat.le_of_not_lt he)]
      split <;> rfl
  have hroom : depth < (sizes ++ Array.replicate (depth + 1 - sizes.size) 0).size := by
    rw [Array.size_append, Array.size_replicate]
    omega
  rw [LevelSizes.push, LevelSizes.count, Array.getD_eq_getD_getElem?, Array.getElem?_modify,
    ← hzeros d, Array.getD_eq_getD_getElem?]
  by_cases hd : depth = d
  · subst hd
    rw [Array.getElem?_eq_getElem hroom]
    simp
  · rw [if_neg hd, if_neg (Ne.symm hd)]
    rfl

/-! ### Ranks -/

/-- What a circle without identifier is known by. -/
def placeText (row column : Nat) : String :=
  toString row ++ "-" ++ toString column

/-- What a circle is known by: its identifier, or its row and column. -/
def Bubble.name (b : Bubble) : String :=
  (b.id.map NodeId.display).getD (placeText b.depth b.index)

/-- Number of circles in a row. -/
def inRow (bs : List Bubble) (depth : Nat) : Nat :=
  bs.countP (·.depth == depth)

/-- Each circle has the next free column of its row, and the key that goes with it. -/
structure Ranked (bubbles : Array Bubble) : Prop where
  index : ∀ (i : Nat) b, bubbles[i]? = some b → b.index = inRow (bubbles.toList.take i) b.depth
  key : ∀ b ∈ bubbles, b.key = b.name

theorem inRow_append_singleton (bs : List Bubble) (b : Bubble) (depth : Nat) :
    inRow (bs ++ [b]) depth = inRow bs depth + if depth = b.depth then 1 else 0 := by
  simp only [inRow, List.countP_append, List.countP_singleton, beq_iff_eq, Eq.comm (a := depth)]

theorem ranked_empty : Ranked #[] :=
  ⟨by simp, by simp⟩

theorem Ranked.push {bubbles : Array Bubble} (h : Ranked bubbles) {b : Bubble}
    (hindex : b.index = inRow bubbles.toList b.depth) (hkey : b.key = b.name) :
    Ranked (bubbles.push b) := by
  constructor
  · intro i c hc
    rw [Array.getElem?_push] at hc
    rw [Array.toList_push]
    split at hc
    · rename_i hi
      cases hc
      rw [hi, ← Array.length_toList, List.take_left', hindex]
      rfl
    · have hi : i < bubbles.size := (Array.getElem?_eq_some_iff.1 hc).1
      rw [List.take_append_of_le_length (Nat.le_of_lt (by rwa [Array.length_toList]))]
      exact h.index i c hc
  · intro c hc
    rcases Array.mem_push.1 hc with hc | rfl
    · exact h.key c hc
    · exact hkey

/-- A placing whose level sizes count its circles. -/
structure Placing.Counts (p : Placing) : Prop where
  sizes : ∀ depth, p.sizes.count depth = inRow p.bubbles.toList depth
  ranked : Ranked p.bubbles

theorem Placing.Counts.place {ast : Ast} {config : LayoutConfig} (p : Placing) (v : Visit)
    (p' : Placing) (hp : p.Counts) (h : p.place ast config v = .ok p') : p'.Counts := by
  unfold Placing.place at h
  split at h
  · cases h
  split at h
  · cases h
  cases h
  refine ⟨fun depth => ?_, hp.ranked.push (hp.sizes v.depth) ?_⟩
  · rw [LevelSizes.count_push, Array.toList_push, inRow_append_singleton, hp.sizes]
  · rw [Bubble.name]
    split <;> rename_i hid <;> rw [hid] <;> rfl

/-! ### Rows and columns of a layout -/

section Layout

variable {ast : Ast} {config : LayoutConfig} {layout : BubbleLayout}

/-- A layout is what the placing of all visits leaves. -/
theorem exists_placing (h : (layoutBubbles ast config).outcome.value = .ok layout) :
    ∃ (visits : Array Visit) (p : Placing),
      preorder ast config.maxDepth config.maxNodes = .ok visits
      ∧ visits.toList.foldlM (Placing.place ast config) { counter := .ofAst ast } = .ok p
      ∧ layout.bubbles = p.bubbles
      ∧ layout.width = canvasExtent config.paddingX config.columnWidth config.overflowSlack
          config.minWidth (p.sizes.foldl max 1 - 1)
      ∧ layout.height = canvasExtent config.paddingY config.rowHeight config.overflowSlack
          config.minHeight (p.sizes.size - 1) := by
  rw [layoutBubbles, Attempt.value_reported, bubbleLayout] at h
  cases hv : preorder ast config.maxDepth config.maxNodes with
  | error e =>
    rw [hv] at h
    cases h
  | ok visits =>
    rw [hv] at h
    simp only [bind, Except.bind] at h
    cases hp : visits.toList.foldlM (Placing.place ast config) { counter := .ofAst ast } with
    | error e =>
      rw [hp] at h
      cases h
    | ok p =>
      rw [hp] at h
      cases h
      exact ⟨visits, p, rfl, hp, rfl, rfl, rfl⟩

theorem Placing.counts_of_foldlM {visits : List Visit} {p : Placing}
    (h : visits.foldlM (Placing.place ast config) { counter := .ofAst ast } = .ok p) :
    p.Counts := by
  refine foldlM_keeps Placing.Counts.place ⟨fun depth => ?_, ranked_empty⟩ h
  simp [LevelSizes.count, inRow]

theorem ranked_of_layout (h : (layoutBubbles ast config).outcome.value = .ok layout) :
    Ranked layout.bubbles := by
  obtain ⟨visits, p, -, hp, hbubbles, -⟩ := exists_placing h
  rw [hbubbles]
  exact (Placing.counts_of_foldlM hp).ranked

variable {bubbles : Array Bubble} {i j : Nat} {b c : Bubble}

theorem Ranked.index_lt (h : Ranked bubbles) (hb : bubbles[i]? = some b)
    (hc : bubbles[j]? = some c) (hlt : i < j) (hdepth : b.depth = c.depth) : b.index < c.index := by
  rw [h.index i b hb, h.index j c hc, ← hdepth]
  have hnext : bubbles.toList.take (i + 1) = bubbles.toList.take i ++ [b] := by
    rw [List.take_add_one, Array.getElem?_toList, hb]
    rfl
  calc inRow (bubbles.toList.take i) b.depth
      < inRow (bubbles.toList.take (i + 1)) b.depth := by
        rw [hnext, inRow_append_singleton, if_pos rfl]
        exact Nat.lt_succ_self _
    _ ≤ inRow (bubbles.toList.take j) b.depth :=
        (List.take_prefix_take_left hlt).sublist.countP_le

/-- Circles in the same row and column are one. -/
theorem Ranked.slot_eq (h : Ranked bubbles) (hb : bubbles[i]? = some b) (hc : bubbles[j]? = some c)
    (hdepth : b.depth = c.depth) (hindex : b.index = c.index) : i = j := by
  rcases Nat.lt_trichotomy i j with hlt | rfl | hlt
  · exact absurd hindex (Nat.ne_of_lt (h.index_lt hb hc hlt hdepth))
  · rfl
  · exact absurd hindex (Nat.ne_of_gt (h.index_lt hc hb hlt hdepth.symm))

end Layout

end TreeAtlas
