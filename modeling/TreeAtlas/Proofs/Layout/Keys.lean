import TreeAtlas.Proofs.Ast.Numbering
import TreeAtlas.Proofs.Drawing.Written
import TreeAtlas.Proofs.Layout.Columns
import TreeAtlas.Proofs.Layout.OfDocument

/-!
# Keys of circles

The key of a circle is its identifier, or its row and column where there is none.  Two keys of the
second kind are the same only for the same circle, since rows and columns can be read off them
(`placeText_inj`), and two of the first kind only for circles of the same node.  The walk of a
loaded document visits each node once (`nodup_visits_of_document`), so what is left is that an
identifier may read like a row and a column.  The keys tell the circles apart exactly if none does
(`keys_of_document`).
-/

namespace TreeAtlas

open Markup

/-! ### Texts of rows and columns -/

theorem toList_placeText (row column : Nat) :
    (placeText row column).toList = Nat.toDigits 10 row ++ '-' :: Nat.toDigits 10 column := by
  simp [placeText]

theorem takeWhile_toDigits (n : Nat) (rest : List Char) :
    (Nat.toDigits 10 n ++ '-' :: rest).takeWhile Char.isDigit = Nat.toDigits 10 n :=
  ((allDigits_toDigits n).takeWhile_append _ (by rintro c ⟨⟩; rfl)).1

theorem toDigits_inj {m n : Nat} (h : Nat.toDigits 10 m = Nat.toDigits 10 n) : m = n := by
  simpa using congrArg (Nat.ofDigitChars 10 · 0) h

theorem toString_nat_inj {m n : Nat} (h : toString m = toString n) : m = n := by
  rw [← String.toList_inj, Nat.toString_eq_repr, Nat.toString_eq_repr, Nat.toList_repr,
    Nat.toList_repr] at h
  exact toDigits_inj h

/-- Row and column can be read off their text. -/
theorem placeText_inj {row row' column column' : Nat}
    (h : placeText row column = placeText row' column') : row = row' ∧ column = column' := by
  rw [← String.toList_inj, toList_placeText, toList_placeText] at h
  have hrow := congrArg (List.takeWhile Char.isDigit) h
  rw [takeWhile_toDigits, takeWhile_toDigits] at hrow
  rw [hrow] at h
  exact ⟨toDigits_inj hrow, toDigits_inj (List.cons.inj (List.append_cancel_left h)).2⟩

/-! ### Visits of a loaded document -/

section Visits

variable {ast : Ast} {rs : List NodeRef} {f : Forest NodeRef}

/-- What can be reached is visited. -/
theorem Ast.Unfolds.mem_visits_of_reaches (h : ast.Unfolds rs f) {r n : NodeRef} (hr : r ∈ rs)
    (hn : ast.Reaches r n) (depth : Nat) (parent : Option Nat) (slot : Nat) :
    n ∈ (f.visits depth parent slot).map Visit.node := by
  induction h generalizing r depth parent slot with
  | nil => cases hr
  | @cons r' rs node below rest here _ _ ihb ihr =>
    rw [Forest.visits, List.map_cons, List.map_append, List.mem_cons, List.mem_append]
    rcases List.mem_cons.1 hr with rfl | hr
    · rcases Relation.ReflTransGen.cases_head hn with rfl | ⟨k, hk, hkn⟩
      · exact .inl rfl
      · rw [Ast.Refers, Ast.kids_of_get? here] at hk
        exact .inr (.inl (ihb hk hkn _ _ _))
    · exact .inr (.inr (ihr hr hn _ _ _))

/-- The walk of a loaded document visits all nodes. -/
theorem mem_visits_of_document {limit : Nat} {v : Json}
    (h : (Ast.ofJson limit v).outcome.value = .ok ast) (hf : ast.Unfolds ast.root.toList f)
    {r : NodeRef} (hr : ast.contains r = true) : r ∈ (f.visits 0 none 0).map Visit.node := by
  cases hv : v.isTruthy with
  | false =>
    rw [Ast.value_ofJson_of_falsy hv] at h
    cases h
    exact absurd (of_decide_eq_true hr) (Nat.not_lt_zero _)
  | true =>
    have htree := Ast.isTree_of_ofJson hv h
    exact hf.mem_visits_of_reaches (by simp [htree.root]) (htree.reached r hr) _ _ _

/-- The walk of a loaded document visits each node once. -/
theorem nodup_visits_of_document {limit : Nat} {v : Json}
    (h : (Ast.ofJson limit v).outcome.value = .ok ast) (hf : ast.Unfolds ast.root.toList f) :
    ((f.visits 0 none 0).map Visit.node).Nodup := by
  obtain ⟨g, hg, hmap⟩ := Ast.ofJson_unfolds h
  have hsize := (Ast.ofJson_holds h).2
  obtain rfl := hf.unique hg
  have hlength : ((f.visits 0 none 0).map Visit.node).length = ast.size := by
    rw [List.length_map, Forest.length_visits, Forest.size_eq_of_map_eq hmap, hsize]
  have hsub : (List.range ast.size).map NodeRef.mk ⊆ (f.visits 0 none 0).map Visit.node := by
    intro r hr
    obtain ⟨i, hi, rfl⟩ := List.mem_map.1 hr
    exact mem_visits_of_document h hf (decide_eq_true (List.mem_range.1 hi))
  have hnodup : ((List.range ast.size).map NodeRef.mk).Nodup :=
    List.nodup_range.map fun _ _ h => congrArg NodeRef.index h
  -- as many visits as there are nodes, and none is left out
  exact ((hnodup.subperm hsub).perm_of_length_le (by simp [hlength])).nodup_iff.1 hnodup

end Visits

/-! ### Keys -/

/-- No two nodes have identifiers of the same text. -/
def Ast.DistinctIds (ast : Ast) : Prop :=
  ∀ r s a b i j, ast.get? r = some a → ast.get? s = some b → a.id = some i → b.id = some j →
    i.display = j.display → r = s

/-- No identifier reads like the row and column of a circle that has none. -/
def BubbleLayout.Clear (layout : BubbleLayout) : Prop :=
  ∀ b ∈ layout.bubbles, ∀ c ∈ layout.bubbles, ∀ id, b.id = some id → c.id = none →
    id.display ≠ placeText c.depth c.index

/-- Keys tell the circles of a layout apart wherever they stand for them. -/
structure BubbleLayout.Keyed (layout : BubbleLayout) : Prop where
  circles : ∀ (i j : Nat) b c, layout.bubbles[i]? = some b → layout.bubbles[j]? = some c →
    b.key = c.key → i = j
  /-- An edge of a dump names the circles at the ends of its link, and no others. -/
  edges : ∀ (k : Nat) e, (LayoutDump.ofLayout layout).edges[k]? = some e →
    ∃ l, layout.links[k]? = some l ∧ ∀ (i : Nat) b, layout.bubbles[i]? = some b →
      (b.key = e.source ↔ i = l.source) ∧ (b.key = e.target ↔ i = l.target)
  /-- A drawing has a group for each circle, and no two of them have the same key. -/
  groups : ∀ selected theme render,
    (Piece.values "data-key" (Drawing.bubbles layout selected theme render).pieces).length
        = layout.bubbles.size
      ∧ (Piece.values "data-key" (Drawing.bubbles layout selected theme render).pieces).Nodup

section Keys

variable {ast : Ast} {config : LayoutConfig} {layout : BubbleLayout}

theorem escape_inj {s t : String} (h : escape s = escape t) : s = t := by
  rw [← unescaped_escape s, h, unescaped_escape]

/-- What tells circles apart is different at each place. -/
theorem nodup_map_bubbles {bubbles : Array Bubble} {α : Type} {f : Bubble → α}
    (h : ∀ (i j : Nat) b c, bubbles[i]? = some b → bubbles[j]? = some c → f b = f c → i = j) :
    (bubbles.toList.map f).Nodup := by
  rw [List.nodup_iff_getElem?_ne_getElem?]
  intro i j hlt hj heq
  rw [List.getElem?_map, List.getElem?_map, Array.getElem?_toList, Array.getElem?_toList] at heq
  rw [List.length_map, Array.length_toList] at hj
  rw [Array.getElem?_eq_getElem hj, Array.getElem?_eq_getElem (hlt.trans hj), Option.map_some,
    Option.map_some, Option.some.injEq] at heq
  exact absurd (h i j _ _ (Array.getElem?_eq_getElem _) (Array.getElem?_eq_getElem _) heq)
    (Nat.ne_of_lt hlt)

/-- An edge of a dump comes from the link at its place. -/
theorem exists_link_of_edge (hlinks : ∀ l ∈ layout.links,
    l.source < layout.bubbles.size ∧ l.target < layout.bubbles.size) {k : Nat} {e : DumpEdge}
    (he : (LayoutDump.ofLayout layout).edges[k]? = some e) :
    ∃ l b c, layout.links[k]? = some l ∧ layout.bubbles[l.source]? = some b
      ∧ layout.bubbles[l.target]? = some c ∧ e.source = b.key ∧ e.target = c.key := by
  have hsome : ∀ o ∈ layout.links.map (LayoutDump.edge layout), o.isSome = true := by
    intro o ho
    obtain ⟨l, hl, rfl⟩ := List.mem_map.1 ho
    obtain ⟨hs, ht⟩ := hlinks l hl
    rw [LayoutDump.edge, Array.getElem?_eq_getElem hs, Array.getElem?_eq_getElem ht]
    rfl
  have hmap : (LayoutDump.ofLayout layout).edges.map some
      = layout.links.map (LayoutDump.edge layout) := by
    rw [LayoutDump.ofLayout, List.map_filterMap_some_eq_filter_map_isSome,
      List.filter_eq_self.2 hsome]
  have hat : (layout.links[k]?).map (LayoutDump.edge layout) = some (some e) := by
    rw [← List.getElem?_map, ← hmap, List.getElem?_map, he, Option.map_some]
  obtain ⟨l, hl, hedge⟩ := Option.map_eq_some_iff.1 hat
  simp only [LayoutDump.edge, Option.bind_eq_bind, Option.bind_eq_some_iff] at hedge
  obtain ⟨b, hb, c, hc, ⟨⟩⟩ := hedge
  exact ⟨l, b, c, hl, hb, hc, rfl, rfl⟩

/-- Where keys tell circles apart, they do so in dumps and drawings. -/
theorem keyed_of_circles (h : (layoutBubbles ast config).outcome.value = .ok layout)
    (hkeys : ∀ (i j : Nat) b c, layout.bubbles[i]? = some b → layout.bubbles[j]? = some c →
      b.key = c.key → i = j) : layout.Keyed := by
  refine ⟨hkeys, fun k e he => ?_, fun selected theme render => ?_⟩
  · obtain ⟨l, b, c, hl, hb, hc, hsource, htarget⟩ :=
      exists_link_of_edge (inside_links h) he
    refine ⟨l, hl, fun i a ha => ⟨⟨fun hkey => ?_, ?_⟩, ⟨fun hkey => ?_, ?_⟩⟩⟩
    · exact hkeys i l.source a b ha hb (hkey.trans hsource)
    · rintro rfl
      rw [ha, Option.some.injEq] at hb
      rw [hb, hsource]
    · exact hkeys i l.target a c ha hc (hkey.trans htarget)
    · rintro rfl
      rw [ha, Option.some.injEq] at hc
      rw [hc, htarget]
  · rw [Drawing.keys_bubbles]
    refine ⟨by simp, ?_⟩
    have hinj : Function.Injective fun key : String => (escape key).toList :=
      fun s t hst => escape_inj (String.toList_inj.1 hst)
    have := (nodup_map_bubbles hkeys).map hinj
    rwa [List.map_map] at this

/-- Circles of a loaded document whose identifiers read alike are one. -/
theorem slot_eq_of_ids {limit : Nat} {v : Json}
    (h : (Ast.ofJson limit v).outcome.value = .ok ast) (hids : ast.DistinctIds)
    (hlayout : (layoutBubbles ast config).outcome.value = .ok layout) {i j : Nat} {b c : Bubble}
    (hi : layout.bubbles[i]? = some b) (hj : layout.bubbles[j]? = some c) {id id' : NodeId}
    (hb : b.id = some id) (hc : c.id = some id') (heq : id.display = id'.display) : i = j := by
  obtain ⟨f, hf, hshows, -⟩ := layoutBubbles_shows hlayout
  obtain ⟨u, hu, -, -, m, hm, hmid, -⟩ := exists_visit hshows hi
  obtain ⟨w, hw, -, -, n, hn, hnid, -⟩ := exists_visit hshows hj
  have hnode : u.node = w.node := hids _ _ m n id id' hm hn (hmid ▸ hb) (hnid ▸ hc) heq
  have hlt : i < ((f.visits 0 none 0).map Visit.node).length := by
    rw [List.length_map]
    exact (List.getElem?_eq_some_iff.1 hu).1
  refine (List.getElem?_inj hlt (nodup_visits_of_document h hf)).1 ?_
  rw [List.getElem?_map, List.getElem?_map, hu, hw, Option.map_some, Option.map_some, hnode]

/-- Where keys tell circles apart, no identifier reads like a row and a column. -/
theorem clear_of_circles (hlayout : (layoutBubbles ast config).outcome.value = .ok layout)
    (hkeys : ∀ (i j : Nat) b c, layout.bubbles[i]? = some b → layout.bubbles[j]? = some c →
      b.key = c.key → i = j) : layout.Clear := by
  intro b hb c hc id hid hnone hread
  obtain ⟨i, hi⟩ := Array.mem_iff_getElem?.1 hb
  obtain ⟨j, hj⟩ := Array.mem_iff_getElem?.1 hc
  have hranked := ranked_of_layout hlayout
  have hkey : b.key = c.key := by
    rw [hranked.key b hb, hranked.key c hc, Bubble.name, Bubble.name, hid, hnone]
    exact hread
  obtain rfl := hkeys i j b c hi hj hkey
  rw [hi, Option.some.injEq] at hj
  rw [hj, hnone] at hid
  cases hid

/-- The keys of a loaded document tell its circles apart exactly if no identifier reads like the row
and column of a circle that has none. -/
theorem keys_of_document {limit : Nat} {v : Json}
    (h : (Ast.ofJson limit v).outcome.value = .ok ast) (hids : ast.DistinctIds)
    (hlayout : (layoutBubbles ast config).outcome.value = .ok layout) :
    layout.Keyed ↔ layout.Clear := by
  refine ⟨fun hkeyed => clear_of_circles hlayout hkeyed.circles, fun hclear => ?_⟩
  refine keyed_of_circles hlayout fun i j b c hi hj hkey => ?_
  have hranked := ranked_of_layout hlayout
  have hb := Array.mem_of_getElem? hi
  have hc := Array.mem_of_getElem? hj
  rw [hranked.key b hb, hranked.key c hc, Bubble.name, Bubble.name] at hkey
  cases hbid : b.id <;> cases hcid : c.id <;> rw [hbid, hcid] at hkey
  case none.none =>
    obtain ⟨hdepth, hindex⟩ := placeText_inj hkey
    exact hranked.slot_eq hi hj hdepth hindex
  case none.some id => exact absurd hkey.symm (hclear c hc b hb id hcid hbid)
  case some.none id => exact absurd hkey (hclear b hb c hc id hbid hcid)
  case some.some id id' => exact slot_eq_of_ids h hids hlayout hi hj hbid hcid hkey

end Keys

/-- The keys of a layout, told by the visits of the walk. -/
def Ast.visitKeys (ast : Ast) (visits : List Visit) : List String :=
  visits.mapIdx fun i v =>
    (((ast.get? v.node).bind AstNode.id).map NodeId.display).getD
      (placeText v.depth ((visits.take i).countP (·.depth == v.depth)))

theorem exists_keys {ast : Ast} {config : LayoutConfig} {visits : Array Visit}
    (h : preorder ast config.maxDepth config.maxNodes = .ok visits) :
    ∃ layout, (layoutBubbles ast config).outcome.value = .ok layout
      ∧ layout.bubbles.toList.map Bubble.key = ast.visitKeys visits.toList := by
  obtain ⟨layout, hlayout, hshows, -⟩ := layoutBubbles_ok h
  have hranked := ranked_of_layout hlayout
  have hdepths : layout.bubbles.toList.map Bubble.depth = visits.toList.map Visit.depth :=
    map_eq_map_of_forall₂ hshows fun _ _ => Bubble.Shows.depth_eq
  have hrow : ∀ i depth, inRow (layout.bubbles.toList.take i) depth
      = (visits.toList.take i).countP (·.depth == depth) := by
    intro i depth
    have := congrArg (fun ds => (ds.take i).countP (· == depth)) hdepths
    simpa only [← List.map_take, List.countP_map, inRow, Function.comp_def] using this
  refine ⟨layout, hlayout, List.ext_getElem? fun i => ?_⟩
  rw [List.getElem?_map, Ast.visitKeys, List.getElem?_mapIdx, Array.getElem?_toList]
  cases hv : visits.toList[i]? with
  | none =>
    rw [List.getElem?_eq_none_iff, ← hshows.length_eq, Array.length_toList] at hv
    rw [Array.getElem?_eq_none hv]
    rfl
  | some v =>
    obtain ⟨b, hb, -, hdepth, node, hn, hid, -⟩ := exists_bubble hshows hv
    rw [hb, Option.map_some, Option.map_some, hranked.key b (Array.mem_of_getElem? hb),
      Bubble.name, hn, Option.bind_some, ← hid, hranked.index i b hb, hrow, hdepth]

/-- A root with the identifier `id` above a node with none and one that is no object. -/
def dashedDocument (id : String) : Json :=
  .obj [("children", .arr [.obj [], .str "x"]), ("id", .str id)]

def dashedAst (id : String) : Ast where
  nodes :=
    #[{ id := some (.text id), shape := .children [⟨1⟩, ⟨2⟩] }, {},
      { attributes := [("value", .str "x")] }]
  root := some ⟨0⟩

theorem distinctIds_dashedAst (id : String) : (dashedAst id).DistinctIds := by
  have hroot : ∀ r node i, (dashedAst id).get? r = some node → node.id = some i → r = ⟨0⟩ := by
    rintro ⟨_ | _ | _ | n⟩ node i hr hi
    · rfl
    all_goals cases hr
    all_goals cases hi
  intro r s a b i j hr hs hi hj _
  rw [hroot r a i hr hi, hroot s b j hs hj]

theorem keys_of_dashedAst {id : String} (h : preorder (dashedAst id) 512 100000
      = .ok #[⟨⟨0⟩, 0, none⟩, ⟨⟨1⟩, 1, some 0⟩, ⟨⟨2⟩, 1, some 0⟩]) :
    ∃ layout, (layoutBubbles (dashedAst id) {}).outcome.value = .ok layout
      ∧ layout.bubbles.toList.map Bubble.key = [id, "1-0", "1-1"] := by
  obtain ⟨layout, hlayout, hkeys⟩ := @exists_keys _ {} _ h
  have hfirst : placeText 1 0 = "1-0" := by decide +kernel
  have hsecond : placeText 1 1 = "1-1" := by decide +kernel
  refine ⟨layout, hlayout, hkeys.trans ?_⟩
  simp [Ast.visitKeys, Ast.get?, dashedAst, hfirst, hsecond, NodeId.display]

/-- An identifier that reads like a row and a column that nothing stands at. -/
theorem keys_of_dashedDocument :
    (Ast.ofJson 1 (dashedDocument "1-2")).outcome.value = .ok (dashedAst "1-2")
      ∧ (dashedAst "1-2").DistinctIds
      ∧ ∃ layout, (layoutBubbles (dashedAst "1-2") {}).outcome.value = .ok layout
        ∧ layout.bubbles.toList.map Bubble.key = ["1-2", "1-0", "1-1"] ∧ layout.Keyed := by
  have h : (Ast.ofJson 1 (dashedDocument "1-2")).outcome.value = .ok (dashedAst "1-2") := by
    with_unfolding_all rfl
  obtain ⟨layout, hlayout, hkeys⟩ := @keys_of_dashedAst "1-2" (by decide +kernel)
  have hnodup : (layout.bubbles.toList.map Bubble.key).Nodup := by
    rw [hkeys]
    decide
  refine ⟨h, distinctIds_dashedAst _, layout, hlayout, hkeys, ?_⟩
  refine (keys_of_document h (distinctIds_dashedAst _) hlayout).2 (clear_of_circles hlayout ?_)
  intro i j b c hi hj hkey
  refine (List.getElem?_inj ?_ hnodup).1 ?_
  · simpa using (Array.getElem?_eq_some_iff.1 hi).1
  · rw [List.getElem?_map, List.getElem?_map, Array.getElem?_toList, Array.getElem?_toList, hi, hj,
      Option.map_some, Option.map_some, hkey]

/-- An identifier that reads like the row and column of a circle below. -/
theorem keys_clash :
    (Ast.ofJson 1 (dashedDocument "1-0")).outcome.value = .ok (dashedAst "1-0")
      ∧ (dashedAst "1-0").DistinctIds
      ∧ ∃ layout, (layoutBubbles (dashedAst "1-0") {}).outcome.value = .ok layout
        ∧ layout.bubbles.toList.map Bubble.key = ["1-0", "1-0", "1-1"] ∧ ¬ layout.Keyed := by
  have h : (Ast.ofJson 1 (dashedDocument "1-0")).outcome.value = .ok (dashedAst "1-0") := by
    with_unfolding_all rfl
  obtain ⟨layout, hlayout, hkeys⟩ := @keys_of_dashedAst "1-0" (by decide +kernel)
  refine ⟨h, distinctIds_dashedAst _, layout, hlayout, hkeys, fun hkeyed => ?_⟩
  have hat : ∀ i : Nat, (layout.bubbles[i]?).map Bubble.key = ["1-0", "1-0", "1-1"][i]? := by
    intro i
    rw [← hkeys, List.getElem?_map, Array.getElem?_toList]
  obtain ⟨b, hb, hbkey⟩ := Option.map_eq_some_iff.1 (hat 0)
  obtain ⟨c, hc, hckey⟩ := Option.map_eq_some_iff.1 (hat 1)
  exact absurd (hkeyed.circles 0 1 b c hb hc (hbkey.trans hckey.symm)) (by decide)

end TreeAtlas
