import TreeAtlas.Proofs.Ast.Numbering
import TreeAtlas.Proofs.Layout.Blame
import Mathlib.Algebra.BigOperators.Fin
import Mathlib.Algebra.Order.BigOperators.Group.Finset

/-!
# The steps of a search

A step takes a frame off the stack, and only the first entry of a node puts frames there: one to
leave the node and at most one for each of its children.  So what is on the stack and what unvisited
nodes may still put there grows less with each step (`work_lt`), and a search takes no more steps
than there are nodes and references.

A mark is looked up for a node that is in the array, or for a child whose mark was found when its
parent was entered.  On a new counter what is open is still to be left, and what is to be entered
above it on the stack is another node (`Guarded`).  So an open node is only met among the children
of a node that is entered.
-/

namespace TreeAtlas

/-- The nodes whose marks a step on a frame looks up or sets without asking if there are any. -/
def Frame.touched (ast : Ast) : Frame → List NodeRef
  | .enter n => if ast.contains n then [n] else []
  | .leave n => if ast.contains n then n :: ast.kids n else []

namespace DescendantCounter

/-- A search under way. -/
structure Search where
  counter : DescendantCounter
  stack : List Frame

namespace Search

/-- From one state to the next. -/
def Next (ast : Ast) (s t : Search) : Prop :=
  ∃ frame rest, s.stack = frame :: rest
    ∧ s.counter.step ast rest frame = (t.counter, .ok t.stack)

/-- From one state to another in a number of steps. -/
inductive Steps (ast : Ast) : Nat → Search → Search → Prop where
  | refl (s : Search) : Steps ast 0 s s
  | tail {k : Nat} {s t u : Search} (h : Steps ast k s t) (hnext : Next ast t u) :
    Steps ast (k + 1) s u

/-- The state in which a search for a node begins. -/
def start (c : DescendantCounter) (n : NodeRef) : Search :=
  ⟨c, [.enter n]⟩

/-- A search that ends here, with what comes of it. -/
def Ends (ast : Ast) (s : Search) (c : DescendantCounter) : Except LayoutError Unit → Prop
  | .ok () => s.stack = [] ∧ s.counter = c
  | .error e => ∃ frame rest, s.stack = frame :: rest
    ∧ s.counter.step ast rest frame = (c, .error e)

end Search

open Search

variable {ast : Ast} {c c' : DescendantCounter} {m n : NodeRef} {k : Nat}
  {rest stack : List Frame} {frame : Frame} {s t u : Search}

theorem Search.Steps.head (hnext : Next ast s t) (h : Steps ast k t u) : Steps ast (k + 1) s u := by
  induction h with
  | refl => exact .tail (.refl s) hnext
  | tail _ hlast ih => exact .tail (ih hnext) hlast

/-- What each step keeps holds from the start to the end. -/
theorem Search.Steps.keeps {P : Search → Prop} (h : Steps ast k s t) (hs : P s)
    (hstep : ∀ {c c' frame rest stack}, P ⟨c, frame :: rest⟩ →
      c.step ast rest frame = (c', .ok stack) → P ⟨c', stack⟩) : P t := by
  induction h with
  | refl => exact hs
  | @tail k s t u _ hnext ih =>
    obtain ⟨c, stack⟩ := t
    obtain ⟨frame, rest, rfl, hnext⟩ := hnext
    exact hstep (ih hs) hnext

/-- A search is a row of steps up to the one where it ends. -/
theorem exists_ends (ast : Ast) (c : DescendantCounter) (stack : List Frame) :
    ∃ k t, Steps ast k ⟨c, stack⟩ t ∧ t.Ends ast (c.search ast stack).1 (c.search ast stack).2 := by
  fun_induction search ast c stack with
  | case1 c => exact ⟨0, _, .refl _, rfl, rfl⟩
  | case2 c frame rest c₁ e hstep => exact ⟨0, _, .refl _, frame, rest, rfl, hstep⟩
  | case3 c frame rest c₁ stack hstep _ ih =>
    obtain ⟨k, t, hsteps, hends⟩ := ih
    exact ⟨k + 1, t, hsteps.head ⟨frame, rest, rfl, hstep⟩, hends⟩

/-! ### The work that is left -/

/-- The frames that entering a node puts on the stack, at most. -/
def share (ast : Ast) (c : DescendantCounter) (i : Nat) : Nat :=
  if c.mark? ⟨i⟩ = some .unvisited then (ast.kids ⟨i⟩).length + 1 else 0

/-- The frames on the stack and those that unvisited nodes may put there. -/
def work (ast : Ast) (s : Search) : Nat :=
  ∑ i ∈ Finset.range ast.size, share ast s.counter i + s.stack.length

/-- The frames of the children that are still to be entered. -/
theorem enterKids_unvisited {kids : List NodeRef} (h : c.enterKids stack kids = .ok rest) :
    ∃ us : List NodeRef, rest = us.map .enter ++ stack ∧ us.length ≤ kids.length
      ∧ ∀ k ∈ us, c.mark? k = some .unvisited := by
  induction kids generalizing stack with
  | nil =>
    cases h
    exact ⟨[], rfl, le_rfl, nofun⟩
  | cons kid kids ih =>
    simp only [enterKids] at h
    split at h
    · cases h
    · cases h
    · obtain ⟨us, rfl, hlen, hus⟩ := ih h
      exact ⟨us, rfl, hlen.trans (Nat.le_succ _), hus⟩
    · rename_i hkid
      obtain ⟨us, rfl, hlen, hus⟩ := ih h
      refine ⟨us ++ [kid], by simp, by simpa using hlen, fun k hk => ?_⟩
      rcases List.mem_append.1 hk with hk | hk
      · exact hus k hk
      · rwa [List.mem_singleton.1 hk]

theorem share_setMark_le {mark : Mark} (hmark : mark ≠ .unvisited) (i : Nat) :
    share ast (c.setMark n mark) i ≤ share ast c i := by
  unfold share
  by_cases hi : c.mark? ⟨i⟩ = some .unvisited
  · rw [if_pos hi]
    split_ifs <;> omega
  · rw [if_neg (setMark_visited hmark hi n)]
    exact Nat.zero_le _

/-- A node that is opened has put its frames. -/
theorem sum_share_opened (hn : n.index < ast.size) (hm : c.mark? n = some .unvisited) :
    ∑ i ∈ Finset.range ast.size, share ast (c.setMark n .opened) i + (ast.kids n).length + 1
      ≤ ∑ i ∈ Finset.range ast.size, share ast c i := by
  have hmem : n.index ∈ Finset.range ast.size := Finset.mem_range.2 hn
  have hbefore : share ast c n.index = (ast.kids n).length + 1 := if_pos hm
  have hafter : share ast (c.setMark n .opened) n.index = 0 := by
    have hself : (c.setMark n .opened).mark? n = some .opened :=
      mark?_setMark_self (Array.getElem?_eq_some_iff.1 hm).1
    exact if_neg (by rw [hself]; decide)
  have hothers : ∑ i ∈ (Finset.range ast.size).erase n.index, share ast (c.setMark n .opened) i
      ≤ ∑ i ∈ (Finset.range ast.size).erase n.index, share ast c i :=
    Finset.sum_le_sum fun i _ => share_setMark_le (by decide) i
  rw [← Finset.add_sum_erase _ _ hmem, ← Finset.add_sum_erase _ (share ast c) hmem, hbefore, hafter]
  omega

theorem step_work_lt (hs : c.step ast rest frame = (c', .ok stack)) :
    work ast ⟨c', stack⟩ < work ast ⟨c, frame :: rest⟩ := by
  unfold work
  simp only [List.length_cons]
  rcases step_cases hs with ⟨n, node, k, rfl, -, -, rfl, rfl⟩ | ⟨n, rfl, -, rfl, rfl⟩ |
    ⟨n, node, rfl, hn, hm, rfl, hkids⟩
  · have hsum : ∑ i ∈ Finset.range ast.size, share ast (c.setMark n (.done k)) i
        ≤ ∑ i ∈ Finset.range ast.size, share ast c i :=
      Finset.sum_le_sum fun i _ => share_setMark_le (by simp) i
    omega
  · omega
  · obtain ⟨us, rfl, hlen, -⟩ := enterKids_unvisited hkids
    have hsum := sum_share_opened (Array.getElem?_eq_some_iff.1 hn).1 hm
    rw [Ast.kids_of_get? hn] at hsum
    rw [List.length_append, List.length_map, List.length_cons]
    omega

theorem work_lt (h : Next ast s t) : work ast t < work ast s := by
  obtain ⟨c, stack⟩ := s
  obtain ⟨frame, rest, rfl, hstep⟩ := h
  exact step_work_lt hstep

theorem add_work_le (h : Steps ast k s t) : k + work ast t ≤ work ast s := by
  induction h with
  | refl => omega
  | tail _ hnext ih =>
    have := work_lt hnext
    omega

theorem sum_length_kids (ast : Ast) :
    ∑ i ∈ Finset.range ast.size, (ast.kids ⟨i⟩).length = (references ast.nodes).length := by
  have hkids : ∀ i : Fin ast.nodes.toList.length,
      (ast.kids ⟨i⟩).length = ast.nodes.toList[i].children.length := fun i => by
    have hi : ast.get? ⟨i⟩ = some ast.nodes.toList[i] := Array.getElem?_eq_getElem i.isLt
    rw [Ast.kids_of_get? hi]
  rw [references, List.length_flatMap, Finset.sum_range]
  exact (Finset.sum_congr rfl fun i _ => hkids i).trans
    (Fin.sum_univ_fun_getElem ast.nodes.toList fun node => node.children.length)

/-- A search begins with no more work than there are nodes and references, and one frame. -/
theorem work_start_le (ast : Ast) (c : DescendantCounter) (n : NodeRef) :
    work ast (start c n) ≤ ast.size + (references ast.nodes).length + 1 := by
  have hshare : ∑ i ∈ Finset.range ast.size, share ast c i
      ≤ ∑ i ∈ Finset.range ast.size, ((ast.kids ⟨i⟩).length + 1) := by
    refine Finset.sum_le_sum fun i _ => ?_
    unfold share
    split_ifs <;> omega
  rw [Finset.sum_add_distrib, sum_length_kids, Finset.sum_const, Finset.card_range, smul_eq_mul,
    mul_one] at hshare
  have hwork : work ast (start c n) = ∑ i ∈ Finset.range ast.size, share ast c i + 1 := rfl
  omega

/-! ### What is looked up -/

theorem searching_of_steps (hc : Exact ast c) (h : Steps ast k (start c n) t) :
    Searching ast n t.counter t.stack :=
  h.keeps (P := fun s => Searching ast n s.counter s.stack) (hc.searching n)
    fun hsearching hstep => hsearching.step_ok hstep

theorem Counted.index_lt (h : c.Counted n) : n.index < c.marks.size := by
  obtain ⟨k, hk⟩ := h
  exact (Array.getElem?_eq_some_iff.1 hk).1

theorem Searching.touched_lt {start : NodeRef} (h : Searching ast start c (frame :: rest)) :
    ∀ r ∈ frame.touched ast, r.index < c.marks.size := by
  intro r hr
  cases frame with
  | enter n =>
    simp only [Frame.touched] at hr
    split_ifs at hr with hn
    · obtain ⟨node, hn⟩ := Ast.contains_iff.1 hn
      rw [List.mem_singleton.1 hr]
      exact h.index_lt hn
    · cases hr
  | leave n =>
    simp only [Frame.touched] at hr
    split_ifs at hr with hn
    · obtain ⟨node, hn⟩ := Ast.contains_iff.1 hn
      rcases List.mem_cons.1 hr with rfl | hr
      · exact h.index_lt hn
      · exact (h.kids_counted r hr).index_lt
    · cases hr

/-! ### Open nodes -/

/-- What is to be left was visited, and it is not to be entered above that. -/
structure Guarded (c : DescendantCounter) (stack : List Frame) : Prop where
  visited : ∀ n, .leave n ∈ stack → c.mark? n ≠ some .unvisited
  apart : stack.Pairwise fun upper lower => ∀ n, lower = .leave n → upper ≠ .enter n

theorem guarded_start (c : DescendantCounter) (n : NodeRef) : Guarded c [.enter n] where
  visited m hm := by simp at hm
  apart := List.pairwise_singleton _ _

theorem Guarded.step_ok (h : Guarded c (frame :: rest))
    (hs : c.step ast rest frame = (c', .ok stack)) : Guarded c' stack := by
  have hvisited : ∀ m, .leave m ∈ rest → c'.mark? m ≠ some .unvisited := fun m hm =>
    step_visited (h.visited m (List.mem_cons_of_mem _ hm)) (congrArg Prod.fst hs)
  rcases step_cases hs with ⟨n, node, k, rfl, -, -, rfl, rfl⟩ | ⟨n, rfl, -, rfl, rfl⟩ |
    ⟨n, node, rfl, -, hm, rfl, hk⟩
  · exact ⟨hvisited, h.apart.of_cons⟩
  · exact ⟨hvisited, h.apart.of_cons⟩
  · obtain ⟨us, rfl, -, hus⟩ := enterKids_unvisited hk
    have hself : (c.setMark n .opened).mark? n = some .opened :=
      mark?_setMark_self (Array.getElem?_eq_some_iff.1 hm).1
    have hleave : ∀ m, .leave m ∈ Frame.leave n :: rest →
        (c.setMark n .opened).mark? m ≠ some .unvisited := by
      intro m hmem
      rcases List.mem_cons.1 hmem with heq | hmem
      · cases heq
        rw [hself]
        decide
      · exact hvisited m hmem
    refine ⟨fun m hmem => ?_, List.pairwise_append.2 ⟨?_, ?_, ?_⟩⟩
    · refine hleave m ((List.mem_append.1 hmem).resolve_left fun hmem => ?_)
      simp at hmem
    · exact List.pairwise_map.2 (List.pairwise_of_forall fun u v m hm => by cases hm)
    · exact List.pairwise_cons.2 ⟨fun _ _ _ _ => nofun, h.apart.of_cons⟩
    · rintro f hf g hg m rfl rfl
      obtain ⟨u, hu, heq⟩ := List.mem_map.1 hf
      cases heq
      exact hleave m hg (hus m hu)

theorem guarded_of_steps (h : Steps ast k (start c n) t) : Guarded t.counter t.stack :=
  h.keeps (P := fun s => Guarded s.counter s.stack) (guarded_start c n)
    fun hguarded hstep => hguarded.step_ok hstep

theorem openSince_of_steps (hc : Exact ast c) (h : Steps ast k (start c n) t) :
    OpenSince c t.counter t.stack := by
  have hboth := h.keeps
    (P := fun s => Searching ast n s.counter s.stack ∧ OpenSince c s.counter s.stack)
    ⟨hc.searching n, openSince_self c _⟩
    fun h hstep => ⟨h.1.step_ok hstep, h.2.step_ok h.1 hstep⟩
  exact hboth.2

/-- On a new counter no node to be entered is open. -/
theorem not_opened_of_steps (h : Steps ast k (start (ofAst ast) n) t)
    (hstack : t.stack = .enter m :: rest) : t.counter.mark? m ≠ some .opened := by
  intro hm
  have hguard := guarded_of_steps h
  rw [hstack] at hguard
  rcases openSince_of_steps (exact_ofAst ast) h m hm with hbefore | hleave
  · cases mark?_ofAst hbefore
  · rw [hstack] at hleave
    have hrest : .leave m ∈ rest := by simpa using hleave
    exact List.rel_of_pairwise_cons hguard.apart hrest m rfl rfl

/-- What a question on a new counter may meet: no node to be entered is open, all children of a node
to be left are counted, and a cycle is found among the children of a node that is entered. -/
structure Search.Scans (ast : Ast) (s : Search) : Prop where
  enter : ∀ m rest, s.stack = .enter m :: rest → s.counter.mark? m ≠ some .opened
  leave : ∀ m rest, s.stack = .leave m :: rest → ∀ kid ∈ ast.kids m, s.counter.Counted kid
  cycle : ∀ frame rest c m, s.stack = frame :: rest →
    s.counter.step ast rest frame = (c, .error (.cycle m)) →
      ∃ n, frame = .enter n ∧ s.counter.mark? n = some .unvisited ∧ m ∈ ast.kids n
        ∧ c = s.counter.setMark n .opened ∧ c.mark? m = some .opened

theorem scans_of_steps (h : Steps ast k (start (ofAst ast) n) t) : t.Scans ast := by
  have hsearching := searching_of_steps (exact_ofAst ast) h
  have henter : ∀ m rest, t.stack = .enter m :: rest → t.counter.mark? m ≠ some .opened :=
    fun m rest hstack => not_opened_of_steps h hstack
  have hleave : ∀ m rest, t.stack = .leave m :: rest → ∀ kid ∈ ast.kids m, t.counter.Counted kid :=
    fun m rest hstack => by
      rw [hstack] at hsearching
      exact hsearching.kids_counted
  refine ⟨henter, hleave, fun frame rest c m hstack hstep => ?_⟩
  rw [hstack] at hsearching
  rcases step_error_cases hstep with ⟨-, -, he⟩ | ⟨n, node, rfl, hn, -, he⟩ |
    ⟨n, node, rfl, hn, -, hm⟩ | ⟨n, node, rfl, hn, hm, rfl, he⟩
  · cases he
  · obtain ⟨below, -, htotal⟩ := hsearching.total_children hn
    rw [he] at htotal
    cases htotal
  · rcases hm with ⟨hm, -⟩ | hm
    · exact absurd hm (henter n rest hstack)
    · have := not_contains_of_mark? hsearching.size hm
      rw [Ast.contains_iff.2 ⟨node, hn⟩] at this
      cases this
  · obtain ⟨kid, hkid, ⟨-, he⟩ | ⟨hopen, he⟩⟩ := enterKids_error he
    · cases he
    · cases he
      exact ⟨n, rfl, hm, Ast.kids_of_get? hn ▸ hkid, rfl, hopen⟩

/-- A question takes no more steps than there are nodes and references, whatever was asked before,
and then it is answered, with the mark of its node or at the step that fails.  The marks that it
looks up or sets are all there.  On a new counter cycles are only found among the children of a node
that is entered. -/
theorem count_by_steps (ast : Ast) (questions : List NodeRef) (n : NodeRef) :
    (∀ k t, Steps ast k (start (asked ast questions) n) t →
        k ≤ ast.size + (references ast.nodes).length + 1
          ∧ t.counter.marks.size = ast.size
          ∧ (∀ frame rest, t.stack = frame :: rest →
            ∀ r ∈ frame.touched ast, r.index < t.counter.marks.size)
          ∧ (questions = [] → t.Scans ast))
      ∧ ∃ k t, Steps ast k (start (asked ast questions) n) t
        ∧ ((t.stack = [] ∧ n.index < t.counter.marks.size
            ∧ ∃ below, t.counter.mark? n = some (.done below)
              ∧ (asked ast questions).count ast n = (t.counter, .ok below))
          ∨ ∃ frame rest c e, t.stack = frame :: rest
            ∧ t.counter.step ast rest frame = (c, .error e)
            ∧ (asked ast questions).count ast n = (c, .error e)) := by
  have hexact := exact_asked ast questions
  refine ⟨fun k t h => ⟨?_, ?_, ?_, ?_⟩, ?_⟩
  · exact (Nat.le_add_right k _).trans ((add_work_le h).trans (work_start_le ast _ n))
  · exact (searching_of_steps hexact h).size
  · intro frame rest hstack
    have hsearching := searching_of_steps hexact h
    rw [hstack] at hsearching
    exact hsearching.touched_lt
  · rintro rfl
    exact scans_of_steps h
  · obtain ⟨k, t, h, hends⟩ := exists_ends ast (asked ast questions) [.enter n]
    have hsearching := searching_of_steps hexact h
    refine ⟨k, t, h, ?_⟩
    unfold count
    rcases hsearch : (asked ast questions).search ast [.enter n] with ⟨c, e | ⟨⟩⟩
    · rw [hsearch] at hends
      obtain ⟨frame, rest, hstack, hstep⟩ := hends
      exact .inr ⟨frame, rest, c, e, hstack, hstep, rfl⟩
    · rw [hsearch] at hends
      obtain ⟨hstack, rfl⟩ := hends
      rw [hstack] at hsearching
      have hcounted := hsearching.kept.resolve_right List.not_mem_nil
      obtain ⟨below, hbelow⟩ := hcounted
      exact .inl ⟨hstack, Counted.index_lt ⟨below, hbelow⟩, below, hbelow, by simp only [hbelow]⟩

end DescendantCounter

end TreeAtlas
