import TreeAtlas.Layout.Descendants
import TreeAtlas.Proofs.Ast.Unfolding
import Mathlib.Data.ENat.Lattice

/-!
# What a counter answers

A search leaves its marks behind, also where it fails.  Between searches every count that was set is
right and every node left open is unsound (`Exact`), so what an earlier question left behind neither
changes nor prevents an answer.

Inside a search an open node may also be one that is still to be left (`Searching`).  What lies
above it on the stack is below it in the tree, so where the search fails at a node, all that it is
about to leave reaches that node and is unsound too.  The children of a node to be left are counted
or lie above it on the stack, so when its turn comes they are all counted.
-/

namespace TreeAtlas

def Frame.node : Frame → NodeRef
  | .enter n => n
  | .leave n => n

namespace DescendantCounter

/-- The greatest count. -/
def cap : Nat :=
  UInt64.size - 1

/-- A node whose count is set. -/
def Counted (c : DescendantCounter) (n : NodeRef) : Prop :=
  ∃ k, c.mark? n = some (.done k)

variable {ast : Ast} {c c' : DescendantCounter} {n r start : NodeRef} {rest stack : List Frame}
  {frame : Frame}

/-! ### Marks -/

theorem mark?_setMark_self {m : Mark} (hr : r.index < c.marks.size) :
    (c.setMark r m).mark? r = some m := by
  simp [mark?, setMark, hr]

theorem mark?_setMark_ne {m : Mark} (h : n ≠ r) : (c.setMark r m).mark? n = c.mark? n := by
  have : r.index ≠ n.index := by
    obtain ⟨i⟩ := n
    obtain ⟨j⟩ := r
    rintro rfl
    exact h rfl
  simp [mark?, setMark, Array.getElem?_setIfInBounds_ne this]

theorem Counted.setMark_opened (h : c.Counted n) (hr : c.mark? r = some .unvisited) :
    (c.setMark r .opened).Counted n := by
  obtain ⟨k, hk⟩ := h
  have hne : n ≠ r := by
    rintro rfl
    rw [hk] at hr
    cases hr
  exact ⟨k, by rwa [mark?_setMark_ne hne]⟩

theorem Counted.setMark_done {k : Nat} (h : c.Counted n) (hr : r.index < c.marks.size) :
    (c.setMark r (.done k)).Counted n := by
  by_cases hne : n = r
  · exact ⟨k, by rw [hne, mark?_setMark_self hr]⟩
  · obtain ⟨j, hj⟩ := h
    exact ⟨j, by rwa [mark?_setMark_ne hne]⟩

/-! ### One step -/

theorem enterKids_ok {kids : List NodeRef} (h : c.enterKids stack kids = .ok rest) :
    ∃ us : List NodeRef, rest = us.map .enter ++ stack ∧ (∀ k ∈ us, k ∈ kids)
      ∧ ∀ k ∈ kids, c.Counted k ∨ k ∈ us := by
  induction kids generalizing stack with
  | nil =>
    cases h
    exact ⟨[], by simp⟩
  | cons kid kids ih =>
    simp only [enterKids] at h
    split at h
    · cases h
    · cases h
    · rename_i k hk
      obtain ⟨us, rfl, hus, hkids⟩ := ih h
      refine ⟨us, rfl, fun k hk => List.mem_cons_of_mem _ (hus k hk), fun l hl => ?_⟩
      rcases List.mem_cons.1 hl with rfl | hl
      · exact .inl ⟨k, hk⟩
      · exact hkids l hl
    · obtain ⟨us, rfl, hus, hkids⟩ := ih h
      refine ⟨us ++ [kid], by simp, fun k hk => ?_, fun l hl => ?_⟩
      · rcases List.mem_append.1 hk with hk | hk
        · exact List.mem_cons_of_mem _ (hus k hk)
        · exact List.mem_cons.2 (.inl (List.mem_singleton.1 hk))
      · rcases List.mem_cons.1 hl with rfl | hl
        · exact .inr (by simp)
        · exact (hkids l hl).imp_right (List.mem_append_left _)

theorem enterKids_error {kids : List NodeRef} {e : LayoutError}
    (h : c.enterKids stack kids = .error e) :
    ∃ k ∈ kids, c.mark? k = none ∧ e = .unknownNode k
      ∨ c.mark? k = some .opened ∧ e = .cycle k := by
  induction kids generalizing stack with
  | nil => cases h
  | cons kid kids ih =>
    simp only [enterKids] at h
    split at h
    · cases h
      exact ⟨kid, List.mem_cons_self, .inl ⟨‹_›, rfl⟩⟩
    · cases h
      exact ⟨kid, List.mem_cons_self, .inr ⟨‹_›, rfl⟩⟩
    · obtain ⟨k, hk, hm⟩ := ih h
      exact ⟨k, List.mem_cons_of_mem _ hk, hm⟩
    · obtain ⟨k, hk, hm⟩ := ih h
      exact ⟨k, List.mem_cons_of_mem _ hk, hm⟩

/-- The steps that go on: a node is left with its count, passed by as counted, or opened. -/
theorem step_cases (h : c.step ast rest frame = (c', .ok stack)) :
    (∃ n node k, frame = .leave n ∧ ast.get? n = some node ∧ c.total 0 node.children = .ok k
        ∧ c' = c.setMark n (.done k) ∧ stack = rest)
    ∨ (∃ n, frame = .enter n ∧ c.Counted n ∧ c' = c ∧ stack = rest)
    ∨ (∃ n node, frame = .enter n ∧ ast.get? n = some node ∧ c.mark? n = some .unvisited
        ∧ c' = c.setMark n .opened
        ∧ c'.enterKids (.leave n :: rest) node.children = .ok stack) := by
  unfold step at h
  split at h
  · rename_i n
    split at h
    · cases h
    · rename_i node hn
      split at h
      · rename_i k hk
        cases h
        exact .inl ⟨n, node, k, rfl, hn, hk, rfl, rfl⟩
      · cases h
  · rename_i n
    split at h
    · cases h
    · rename_i node k hn hk
      cases h
      exact .inr (.inl ⟨n, rfl, ⟨k, hk⟩, rfl, rfl⟩)
    · cases h
    · rename_i node hn hm
      cases hc : (c.setMark n .opened).enterKids (.leave n :: rest) node.children with
      | ok stack' =>
        simp only [hc, Prod.mk.injEq, Except.ok.injEq] at h
        obtain ⟨rfl, rfl⟩ := h
        exact .inr (.inr ⟨n, node, rfl, hn, hm, rfl, hc⟩)
      | error e => simp [hc] at h
    · cases h

/-- The steps that fail. -/
theorem step_error_cases {e : LayoutError} (h : c.step ast rest frame = (c', .error e)) :
    (c' = c ∧ ast.get? frame.node = none ∧ e = .unknownNode frame.node)
    ∨ (∃ n node, frame = .leave n ∧ ast.get? n = some node ∧ c' = c
        ∧ c.total 0 node.children = .error e)
    ∨ (∃ n node, frame = .enter n ∧ ast.get? n = some node ∧ c' = c
        ∧ (c.mark? n = some .opened ∧ e = .cycle n ∨ c.mark? n = none))
    ∨ (∃ n node, frame = .enter n ∧ ast.get? n = some node ∧ c.mark? n = some .unvisited
        ∧ c' = c.setMark n .opened
        ∧ c'.enterKids (.leave n :: rest) node.children = .error e) := by
  unfold step at h
  split at h
  · rename_i n
    split at h
    · rename_i hn
      cases h
      exact .inl ⟨rfl, hn, rfl⟩
    · rename_i node hn
      split at h
      · cases h
      · rename_i e' he
        cases h
        exact .inr (.inl ⟨n, node, rfl, hn, rfl, he⟩)
  · rename_i n
    split at h
    · rename_i hn
      cases h
      exact .inl ⟨rfl, hn, rfl⟩
    · cases h
    · rename_i node hn hm
      cases h
      exact .inr (.inr (.inl ⟨n, node, rfl, hn, rfl, .inl ⟨hm, rfl⟩⟩))
    · rename_i node hn hm
      simp only [Prod.mk.injEq] at h
      obtain ⟨rfl, h⟩ := h
      exact .inr (.inr (.inr ⟨n, node, rfl, hn, hm, rfl, h⟩))
    · rename_i node hn hm
      cases h
      exact .inr (.inr (.inl ⟨n, node, rfl, hn, rfl, .inr hm⟩))

/-! ### Between searches -/

/-- A count that is set is right. -/
def Right (ast : Ast) (c : DescendantCounter) : Prop :=
  ∀ n k, c.mark? n = some (.done k) →
    ∃ below, ast.Unfolds (ast.kids n) below ∧ k = min below.size cap

structure Exact (ast : Ast) (c : DescendantCounter) : Prop where
  size : c.marks.size = ast.size
  right : c.Right ast
  opened : ∀ n, c.mark? n = some .opened → ¬ ast.Sound n

theorem contains_of_mark? {m : Mark} (hsize : c.marks.size = ast.size) (h : c.mark? n = some m) :
    ast.contains n = true := by
  have := (Array.getElem?_eq_some_iff.1 h).1
  rw [hsize] at this
  simpa [Ast.contains, Ast.size] using this

theorem not_contains_of_mark? (hsize : c.marks.size = ast.size) (h : c.mark? n = none) :
    ast.contains n = false := by
  have := Array.getElem?_eq_none_iff.1 h
  rw [hsize] at this
  simpa [Ast.contains, Ast.size] using this

theorem Counted.exists_unfolds (h : c.Counted n) (hsize : c.marks.size = ast.size)
    (hright : c.Right ast) : ∃ f, ast.Unfolds [n] f := by
  obtain ⟨k, hk⟩ := h
  obtain ⟨below, hb, -⟩ := hright n k hk
  exact ⟨_, Ast.unfolds_singleton_iff.2 ⟨below, contains_of_mark? hsize hk, hb, rfl⟩⟩

theorem addCount_addCount (s b : Nat) :
    addCount (addCount (min s cap) (min b cap)) 1 = min (s + (1 + b)) cap := by
  unfold addCount
  change min (min (min s cap + min b cap) cap + 1) cap = _
  omega

/-- Sums that stop at the cap are the cap of the sum. -/
theorem total_eq {kids : List NodeRef} {f : Forest NodeRef} (hright : c.Right ast)
    (hf : ast.Unfolds kids f) (hc : ∀ k ∈ kids, c.Counted k) (s : Nat) :
    c.total (min s cap) kids = .ok (min (s + f.size) cap) := by
  induction kids generalizing f s with
  | nil =>
    cases hf
    rfl
  | cons k ks ih =>
    cases hf with
    | @cons _ _ node below rest here children others =>
      obtain ⟨m, hm⟩ := hc k List.mem_cons_self
      obtain ⟨below', hb', rfl⟩ := hright k m hm
      rw [Ast.kids_of_get? here] at hb'
      cases hb'.unique children
      simp only [total, hm]
      rw [addCount_addCount, ih others fun l hl => hc l (List.mem_cons_of_mem _ hl),
        Forest.size_cons, Nat.add_assoc]

theorem mark?_ofAst {m : Mark} (h : (ofAst ast).mark? n = some m) : m = .unvisited := by
  simp only [ofAst, mark?, Array.getElem?_replicate] at h
  split at h
  · exact (Option.some.inj h).symm
  · cases h

theorem exact_ofAst (ast : Ast) : Exact ast (ofAst ast) := by
  refine ⟨by simp [ofAst], fun n k h => ?_, fun n h => ?_⟩
  · cases mark?_ofAst h
  · cases mark?_ofAst h

/-- A node may be left open if it is unsound. -/
theorem Exact.setMark_opened (h : Exact ast c) (hr : ¬ ast.Sound r) :
    Exact ast (c.setMark r .opened) := by
  have hmark : ∀ n m, n ≠ r → (c.setMark r .opened).mark? n = some m → c.mark? n = some m := by
    intro n m hne hm
    rwa [mark?_setMark_ne hne] at hm
  refine ⟨by simpa [setMark] using h.size, fun n k hk => ?_, fun n hn => ?_⟩
  · by_cases hne : n = r
    · subst hne
      have hlt := (Array.getElem?_eq_some_iff.1 hk).1
      rw [mark?_setMark_self (by simpa [setMark] using hlt)] at hk
      cases hk
    · exact h.right n k (hmark n _ hne hk)
  · by_cases hne : n = r
    · rwa [hne]
    · exact h.opened n (hmark n _ hne hn)

/-! ### During a search -/

variable (ast) in
/-- The children of each node to be left are counted or lie above it on the stack. -/
def Covered (c : DescendantCounter) : List NodeRef → List Frame → Prop
  | _, [] => True
  | above, .enter n :: rest => Covered c (n :: above) rest
  | above, .leave n :: rest =>
    (∀ k ∈ ast.kids n, c.Counted k ∨ k ∈ above) ∧ Covered c (n :: above) rest

theorem Covered.mono {above above' : List NodeRef} (h : c.Covered ast above stack)
    (hc : ∀ n, c.Counted n → c'.Counted n) (ha : ∀ n ∈ above, c'.Counted n ∨ n ∈ above') :
    c'.Covered ast above' stack := by
  have hcons : ∀ {as as' : List NodeRef} (m : NodeRef), (∀ n ∈ as, c'.Counted n ∨ n ∈ as') →
      ∀ n ∈ m :: as, c'.Counted n ∨ n ∈ m :: as' := by
    intro as as' m has n hn
    rcases List.mem_cons.1 hn with rfl | hn
    · exact .inr List.mem_cons_self
    · exact (has n hn).imp_right (List.mem_cons_of_mem _)
  induction stack generalizing above above' with
  | nil => trivial
  | cons f rest ih =>
    cases f with
    | enter m => exact ih (show c.Covered ast (m :: above) rest from h) (hcons m ha)
    | leave m =>
      refine ⟨fun k hk => ?_, ih h.2 (hcons m ha)⟩
      rcases h.1 k hk with hk | hk
      · exact .inl (hc k hk)
      · exact ha k hk

theorem covered_enter {us above : List NodeRef} :
    c.Covered ast above (us.map .enter ++ stack) ↔ c.Covered ast (us.reverse ++ above) stack := by
  induction us generalizing above with
  | nil => rfl
  | cons u us ih =>
    simp only [List.map_cons, List.cons_append, Covered, ih, List.reverse_cons, List.append_assoc,
      List.nil_append]

/-- What holds while a search that began at `start` has `stack` still to do. -/
structure Searching (ast : Ast) (start : NodeRef) (c : DescendantCounter) (stack : List Frame) :
    Prop where
  size : c.marks.size = ast.size
  right : c.Right ast
  opened : ∀ n, c.mark? n = some .opened → ¬ ast.Sound n ∨ .leave n ∈ stack
  below : stack.Pairwise fun upper lower => ∀ n, lower = .leave n → ast.Above n upper.node
  covered : c.Covered ast [] stack
  reached : ∀ f ∈ stack, ast.Reaches start f.node
  kept : c.Counted start ∨ start ∈ stack.map Frame.node

theorem Exact.searching (h : Exact ast c) (start : NodeRef) :
    Searching ast start c [.enter start] where
  size := h.size
  right := h.right
  opened n hn := .inl (h.opened n hn)
  below := List.pairwise_singleton _ _
  covered := trivial
  reached f hf := by
    cases List.mem_singleton.1 hf
    exact .refl
  kept := .inr (by simp [Frame.node])

theorem Searching.exact (h : Searching ast start c []) : Exact ast c :=
  ⟨h.size, h.right, fun n hn => (h.opened n hn).resolve_right List.not_mem_nil⟩

/-- Where the top of the stack is unsound, all that is open is. -/
theorem Searching.exact_of_unsound (h : Searching ast start c (frame :: rest))
    (hf : ¬ ast.Sound frame.node) : Exact ast c ∧ ¬ ast.Sound start := by
  refine ⟨⟨h.size, h.right, fun n hn hsound => ?_⟩, fun hsound => ?_⟩
  · rcases h.opened n hn with hu | hl
    · exact hu hsound
    · rcases List.mem_cons.1 hl with rfl | hl
      · exact hf hsound
      · have := List.rel_of_pairwise_cons h.below hl n rfl
        exact hf (hsound.of_reaches this.to_reflTransGen)
  · exact hf (hsound.of_reaches (h.reached frame List.mem_cons_self))

section Steps

variable {node : AstNode}

theorem Searching.index_lt (h : Searching ast start c stack) (hn : ast.get? n = some node) :
    n.index < c.marks.size := by
  rw [h.size]
  exact (Array.getElem?_eq_some_iff.1 hn).1

theorem Searching.pass (h : Searching ast start c (.enter n :: rest)) (hn : c.Counted n) :
    Searching ast start c rest where
  size := h.size
  right := h.right
  opened m hm := (h.opened m hm).imp_right fun hl => by simpa using hl
  below := h.below.of_cons
  covered := by
    have hcov : c.Covered ast [n] rest := h.covered
    refine hcov.mono (fun _ => id) fun m hm => ?_
    cases List.mem_singleton.1 hm
    exact .inl hn
  reached f hf := h.reached f (List.mem_cons_of_mem _ hf)
  kept := by
    rcases h.kept with hs | hs
    · exact .inl hs
    · rcases List.mem_cons.1 hs with rfl | hs
      · exact .inl hn
      · exact .inr hs

theorem Searching.kids_counted (h : Searching ast start c (.leave n :: rest)) :
    ∀ k ∈ ast.kids n, c.Counted k :=
  fun k hk => (h.covered.1 k hk).resolve_right List.not_mem_nil

/-- The children of a node to be left are counted, so it gets its count. -/
theorem Searching.total_children (h : Searching ast start c (.leave n :: rest))
    (hn : ast.get? n = some node) :
    ∃ below, ast.Unfolds (ast.kids n) below
      ∧ c.total 0 node.children = .ok (min below.size cap) := by
  obtain ⟨below, hb⟩ := Ast.exists_unfolds_of_forall (ast.kids n) fun k hk =>
    (h.kids_counted k hk).exists_unfolds h.size h.right
  have := total_eq h.right hb h.kids_counted 0
  rw [Nat.zero_min, Nat.zero_add, Ast.kids_of_get? hn] at this
  exact ⟨below, hb, this⟩

theorem Searching.leave {k : Nat} (h : Searching ast start c (.leave n :: rest))
    (hn : ast.get? n = some node) (hk : c.total 0 node.children = .ok k) :
    Searching ast start (c.setMark n (.done k)) rest := by
  have hlt := h.index_lt hn
  have hself : (c.setMark n (.done k)).mark? n = some (.done k) := mark?_setMark_self hlt
  obtain ⟨below, hb, htotal⟩ := h.total_children hn
  rw [hk, Except.ok.injEq] at htotal
  refine ⟨by simpa [setMark] using h.size, fun m j hj => ?_, fun m hm => ?_, h.below.of_cons, ?_,
    fun f hf => h.reached f (List.mem_cons_of_mem _ hf), ?_⟩
  · by_cases hne : m = n
    · rw [hne, hself] at hj
      cases hj
      exact ⟨below, hne ▸ hb, htotal⟩
    · rw [mark?_setMark_ne hne] at hj
      exact h.right m j hj
  · have hne : m ≠ n := by
      rintro rfl
      rw [hself] at hm
      cases hm
    rw [mark?_setMark_ne hne] at hm
    exact (h.opened m hm).imp_right fun hl => by simpa [hne] using hl
  · refine h.covered.2.mono (fun m hm => hm.setMark_done hlt) fun m hm => ?_
    cases List.mem_singleton.1 hm
    exact .inl ⟨k, hself⟩
  · rcases h.kept with hs | hs
    · exact .inl (hs.setMark_done hlt)
    · rcases List.mem_cons.1 hs with rfl | hs
      · exact .inl ⟨k, hself⟩
      · exact .inr hs

theorem Searching.enter (h : Searching ast start c (.enter n :: rest))
    (hn : ast.get? n = some node) (hm : c.mark? n = some .unvisited)
    (hk : (c.setMark n .opened).enterKids (.leave n :: rest) node.children = .ok stack) :
    Searching ast start (c.setMark n .opened) stack := by
  obtain ⟨us, rfl, hus, hkids⟩ := enterKids_ok hk
  rw [← Ast.kids_of_get? hn] at hus hkids
  have hself : (c.setMark n .opened).mark? n = some .opened := mark?_setMark_self (h.index_lt hn)
  have habove : ∀ f ∈ rest, ∀ m, f = .leave m → ast.Above m n := fun f hf =>
    List.rel_of_pairwise_cons h.below hf
  have hreach : ast.Reaches start n := h.reached _ List.mem_cons_self
  refine ⟨by simpa [setMark] using h.size, fun m j hj => ?_, fun m hm' => ?_, ?_, ?_, ?_, ?_⟩
  · by_cases hne : m = n
    · rw [hne, hself] at hj
      cases hj
    · rw [mark?_setMark_ne hne] at hj
      exact h.right m j hj
  · by_cases hne : m = n
    · exact .inr (by simp [hne])
    · rw [mark?_setMark_ne hne] at hm'
      refine (h.opened m hm').imp_right fun hl => ?_
      have : .leave m ∈ rest := by simpa using hl
      simp [this]
  · refine List.pairwise_append.2 ⟨?_, List.pairwise_cons.2 ⟨habove, h.below.of_cons⟩, ?_⟩
    · refine List.pairwise_map.2 (List.pairwise_of_forall fun u v m hm => ?_)
      cases hm
    · intro f hf g hg m hgm
      obtain ⟨u, hu, rfl⟩ := List.mem_map.1 hf
      rcases List.mem_cons.1 hg with rfl | hg
      · cases hgm
        exact .single (hus u hu)
      · exact (habove g hg m hgm).tail (hus u hu)
  · rw [covered_enter]
    refine ⟨fun k hk => (hkids k hk).imp_right fun hu => by simpa using hu, ?_⟩
    have hcov : c.Covered ast [n] rest := h.covered
    refine hcov.mono (fun m hm' => hm'.setMark_opened hm) fun m hm' => ?_
    cases List.mem_singleton.1 hm'
    exact .inr List.mem_cons_self
  · intro f hf
    rcases List.mem_append.1 hf with hf | hf
    · obtain ⟨u, hu, rfl⟩ := List.mem_map.1 hf
      exact hreach.tail (hus u hu)
    · rcases List.mem_cons.1 hf with rfl | hf
      · exact hreach
      · exact h.reached f (List.mem_cons_of_mem _ hf)
  · rcases h.kept with hs | hs
    · exact .inl (hs.setMark_opened hm)
    · refine .inr ?_
      rcases List.mem_cons.1 hs with rfl | hs
      · simp [Frame.node]
      · simp [hs]

/-- A step that goes on keeps what holds during the search. -/
theorem Searching.step_ok (h : Searching ast start c (frame :: rest))
    (hs : c.step ast rest frame = (c', .ok stack)) : Searching ast start c' stack := by
  rcases step_cases hs with ⟨n, node, k, rfl, hn, hk, rfl, rfl⟩ | ⟨n, rfl, hn, rfl, rfl⟩ |
    ⟨n, node, rfl, hn, hm, rfl, hk⟩
  · exact h.leave hn hk
  · exact h.pass hn
  · exact h.enter hn hm hk

theorem Searching.not_sound_of_opened (h : Searching ast start c (.enter n :: rest))
    (hm : c.mark? r = some .opened) (hr : ast.Refers n r ∨ n = r) : ¬ ast.Sound n := by
  have hreach : ast.Reaches n r := by
    rcases hr with hr | rfl
    · exact .single hr
    · exact .refl
  intro hsound
  rcases h.opened r hm with hu | hl
  · exact hu (hsound.of_reaches hreach)
  · have hl' : .leave r ∈ rest := by simpa using hl
    have habove := List.rel_of_pairwise_cons h.below hl' r rfl
    exact (hsound n .refl).2 (Relation.TransGen.trans_right hreach habove)

/-- A step that fails does so at an unsound node. -/
theorem Searching.step_error {e : LayoutError} (h : Searching ast start c (frame :: rest))
    (hs : c.step ast rest frame = (c', .error e)) : Exact ast c' ∧ ¬ ast.Sound start := by
  rcases step_error_cases hs with ⟨rfl, hn, -⟩ | ⟨n, node, rfl, hn, rfl, he⟩ |
    ⟨n, node, rfl, hn, rfl, hm⟩ | ⟨n, node, rfl, hn, hm, rfl, he⟩
  · exact h.exact_of_unsound (Ast.not_sound_of_contains (Ast.contains_eq_false_iff.2 hn))
  · obtain ⟨below, -, htotal⟩ := h.total_children hn
    rw [he] at htotal
    cases htotal
  · rcases hm with ⟨hm, -⟩ | hm
    · exact h.exact_of_unsound (h.not_sound_of_opened hm (.inr rfl))
    · have := not_contains_of_mark? h.size hm
      rw [Ast.contains_iff.2 ⟨node, hn⟩] at this
      cases this
  · obtain ⟨k, hk, hmark⟩ := enterKids_error he
    rw [← Ast.kids_of_get? hn] at hk
    have hsize : (c.setMark n .opened).marks.size = ast.size := by
      simpa [setMark] using h.size
    have hunsound : ¬ ast.Sound n := by
      rcases hmark with ⟨hmark, -⟩ | ⟨hmark, -⟩
      · exact fun hsound => Ast.not_sound_of_contains (not_contains_of_mark? hsize hmark)
          (hsound.of_reaches (.single hk))
      · by_cases hne : k = n
        · exact fun hsound => (hsound n .refl).2 (.single (hne ▸ hk))
        · rw [mark?_setMark_ne hne] at hmark
          exact h.not_sound_of_opened hmark (.inl hk)
    obtain ⟨hexact, hstart⟩ := h.exact_of_unsound hunsound
    exact ⟨hexact.setMark_opened hunsound, hstart⟩

end Steps

/-! ### Whole searches -/

theorem Searching.search_ok {stack : List Frame} (h : Searching ast start c stack)
    (hs : c.search ast stack = (c', .ok ())) : Searching ast start c' [] := by
  fun_induction search ast c stack with
  | case1 c =>
    cases hs
    exact h
  | case2 c frame rest c₁ e he => cases hs
  | case3 c frame rest c₁ stack hstep _ ih => exact ih (h.step_ok hstep) hs

theorem Searching.search_error {stack : List Frame} {e : LayoutError}
    (h : Searching ast start c stack) (hs : c.search ast stack = (c', .error e)) :
    Exact ast c' ∧ ¬ ast.Sound start := by
  fun_induction search ast c stack with
  | case1 c => cases hs
  | case2 c frame rest c₁ e' hstep =>
    cases hs
    exact h.step_error hstep
  | case3 c frame rest c₁ stack hstep _ ih => exact ih (h.step_ok hstep) hs

/-- A question is answered with the size of what is below a sound node, and with an error for any
other node.  Either way the counter stays exact. -/
theorem Exact.count (h : Exact ast c) (n : NodeRef) :
    Exact ast (c.count ast n).1
      ∧ ((∃ below, ast.contains n = true ∧ ast.Unfolds (ast.kids n) below
            ∧ (c.count ast n).2 = .ok (min below.size cap))
        ∨ ∃ e, ¬ ast.Sound n ∧ (c.count ast n).2 = .error e) := by
  unfold DescendantCounter.count
  rcases hs : c.search ast [.enter n] with ⟨c', e | ⟨⟩⟩
  · obtain ⟨hexact, hunsound⟩ := (h.searching n).search_error hs
    exact ⟨hexact, .inr ⟨e, hunsound, rfl⟩⟩
  · have hdone := (h.searching n).search_ok hs
    obtain ⟨k, hk⟩ := hdone.kept.resolve_right List.not_mem_nil
    obtain ⟨below, hb, rfl⟩ := hdone.right n k hk
    simp only [hk]
    exact ⟨hdone.exact, .inl ⟨below, contains_of_mark? hdone.size hk, hb, rfl⟩⟩

/-- The counter after some questions. -/
def asked (ast : Ast) (questions : List NodeRef) : DescendantCounter :=
  questions.foldl (fun c n => (c.count ast n).1) (ofAst ast)

theorem exact_asked (ast : Ast) (questions : List NodeRef) : Exact ast (asked ast questions) := by
  unfold asked
  generalize hc : ofAst ast = c
  have h : Exact ast c := hc ▸ exact_ofAst ast
  clear hc
  induction questions generalizing c with
  | nil => exact h
  | cons n ns ih => exact ih _ (h.count n).1

/-- The answer to a question is what the unfolding of the node says, whatever was asked before. -/
theorem Exact.count_ok_iff (h : Exact ast c) {n : NodeRef} {k : Nat} :
    (c.count ast n).2 = .ok k
      ↔ ∃ below, ast.contains n = true ∧ ast.Unfolds (ast.kids n) below
          ∧ k = min below.size cap := by
  constructor
  · intro hk
    rcases (h.count n).2 with ⟨below, hn, hb, hc⟩ | ⟨e, -, he⟩
    · rw [hk, Except.ok.injEq] at hc
      exact ⟨below, hn, hb, hc⟩
    · rw [hk] at he
      cases he
  · rintro ⟨below, hn, hb, rfl⟩
    rcases (h.count n).2 with ⟨below', -, hb', hc⟩ | ⟨e, hunsound, -⟩
    · rw [hc, hb.unique hb']
    · have := Ast.unfolds_singleton_iff.2 ⟨below, hn, hb, rfl⟩
      exact absurd (this.sound n List.mem_cons_self) hunsound

/-- Whatever was asked before, the answer for a sound node is the number of routes that go
somewhere, capped, which a new counter gives too and which is the size of what unfolds below. -/
theorem count_asked (ast : Ast) (questions : List NodeRef) (n : NodeRef) (k : Nat) :
    (((asked ast questions).count ast n).2 = .ok k
        ↔ ast.Sound n ∧ (k : ℕ∞) = min {route ∈ ast.routes n | route ≠ []}.encard cap)
      ∧ (((asked ast questions).count ast n).2 = .ok k ↔ descendantCount ast n = .ok k)
      ∧ (((asked ast questions).count ast n).2 = .ok k
          ↔ ∃ below, ast.contains n = true ∧ ast.Unfolds (ast.kids n) below
              ∧ k = min below.size cap) := by
  have hiff := (exact_asked ast questions).count_ok_iff (n := n) (k := k)
  refine ⟨?_, ?_, hiff⟩
  · rw [hiff, Ast.routes_diff_nil, Ast.encard_branches]
    constructor
    · rintro ⟨below, hn, hb, rfl⟩
      have := Ast.unfolds_singleton_iff.2 ⟨below, hn, hb, rfl⟩
      refine ⟨this.sound n List.mem_cons_self, ?_⟩
      rw [hb.sum_ways, Nat.mono_cast.map_min]
    · rintro ⟨hsound, hk⟩
      obtain ⟨f, hf⟩ := hsound.exists_unfolds
      obtain ⟨below, hn, hb, -⟩ := Ast.unfolds_singleton_iff.1 hf
      refine ⟨below, hn, hb, ?_⟩
      rw [hb.sum_ways, ← Nat.mono_cast.map_min] at hk
      exact_mod_cast hk
  · rw [hiff]
    exact (exact_ofAst ast).count_ok_iff.symm

end DescendantCounter

end TreeAtlas
