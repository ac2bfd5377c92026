import TreeAtlas.Proofs.Layout.Counting

/-!
# What a counter blames

An error of a counter names a node and says what is wrong with it (`Warrants`).  A search that
begins with a new counter is right about that.  A later one may run into a node that an earlier
search left open when it failed, and then it says that this node is its own ancestor
(`Exact.count_error`), which nothing supports if the earlier search failed for another reason.

Open nodes are never closed again, so a node in the array that was asked for in vain is from then on
said to be its own ancestor (`count_of_asked`).  Hence all errors of all histories are warranted
exactly if each unsound node of the array does lie on a cycle (`count_blames`).
-/

namespace TreeAtlas

/-- What an error says of the node that was asked for. -/
def Ast.Warrants (ast : Ast) (n : NodeRef) : LayoutError → Prop
  | .cycle m => ast.Reaches n m ∧ ast.Above m m
  | .unknownNode m => ast.Reaches n m ∧ ast.contains m = false
  | .depthExceeded _ => False
  | .tooManyNodes _ => False

namespace DescendantCounter

variable {ast : Ast} {before c c' : DescendantCounter} {n m start : NodeRef}
  {rest stack : List Frame} {frame : Frame} {e : LayoutError}

/-! ### Nodes left open -/

/-- Nodes that are open were so before, or are still to be left. -/
def OpenSince (before c : DescendantCounter) (stack : List Frame) : Prop :=
  ∀ m, c.mark? m = some .opened → before.mark? m = some .opened ∨ .leave m ∈ stack

theorem OpenSince.step_ok (ho : OpenSince before c (frame :: rest))
    (h : Searching ast start c (frame :: rest)) (hs : c.step ast rest frame = (c', .ok stack)) :
    OpenSince before c' stack := by
  intro m hm
  rcases step_cases hs with ⟨n, node, k, rfl, hn, -, rfl, rfl⟩ | ⟨n, rfl, -, rfl, rfl⟩ |
    ⟨n, node, rfl, -, -, rfl, hk⟩
  · by_cases hne : m = n
    · rw [hne, mark?_setMark_self (h.index_lt hn)] at hm
      cases hm
    · rw [mark?_setMark_ne hne] at hm
      exact (ho m hm).imp_right fun hl => by simpa [hne] using hl
  · exact (ho m hm).imp_right fun hl => by simpa using hl
  · obtain ⟨us, rfl, -, -⟩ := enterKids_ok hk
    by_cases hne : m = n
    · exact .inr (by simp [hne])
    · rw [mark?_setMark_ne hne] at hm
      refine (ho m hm).imp_right fun hl => ?_
      have : .leave m ∈ rest := by simpa using hl
      simp [this]

/-- An error is warranted, or names a node that was open before the search began. -/
def Blamed (ast : Ast) (before : DescendantCounter) (start : NodeRef) (e : LayoutError) : Prop :=
  ast.Warrants start e ∨ ∃ m, e = .cycle m ∧ ast.Reaches start m ∧ before.mark? m = some .opened

/-- What is open below a node to be entered was so before, or lies above itself. -/
theorem OpenSince.blamed (ho : OpenSince before c (.enter n :: rest))
    (h : Searching ast start c (.enter n :: rest)) (hm : c.mark? m = some .opened)
    (hreach : ast.Reaches n m) : Blamed ast before start (.cycle m) := by
  have hstart : ast.Reaches start m := (h.reached _ List.mem_cons_self).trans hreach
  rcases ho m hm with hb | hl
  · exact .inr ⟨m, rfl, hstart, hb⟩
  · have hl' : .leave m ∈ rest := by simpa using hl
    have habove := List.rel_of_pairwise_cons h.below hl' m rfl
    exact .inl ⟨hstart, habove.trans_left hreach⟩

theorem OpenSince.step_error (ho : OpenSince before c (frame :: rest))
    (h : Searching ast start c (frame :: rest)) (hs : c.step ast rest frame = (c', .error e)) :
    Blamed ast before start e := by
  rcases step_error_cases hs with ⟨rfl, hn, rfl⟩ | ⟨n, node, rfl, hn, rfl, he⟩ |
    ⟨n, node, rfl, hn, rfl, hm⟩ | ⟨n, node, rfl, hn, hm, rfl, he⟩
  · exact .inl ⟨h.reached _ List.mem_cons_self, Ast.contains_eq_false_iff.2 hn⟩
  · obtain ⟨below, -, htotal⟩ := h.total_children hn
    rw [he] at htotal
    cases htotal
  · rcases hm with ⟨hm, rfl⟩ | hm
    · exact ho.blamed h hm .refl
    · have := not_contains_of_mark? h.size hm
      rw [Ast.contains_iff.2 ⟨node, hn⟩] at this
      cases this
  · obtain ⟨k, hk, hmark⟩ := enterKids_error he
    rw [← Ast.kids_of_get? hn] at hk
    have hreach : ast.Reaches start n := h.reached _ List.mem_cons_self
    rcases hmark with ⟨hmark, rfl⟩ | ⟨hmark, rfl⟩
    · have hsize : (c.setMark n .opened).marks.size = ast.size := by
        simpa [setMark] using h.size
      exact .inl ⟨hreach.tail hk, not_contains_of_mark? hsize hmark⟩
    · by_cases hne : k = n
      · subst hne
        exact .inl ⟨hreach, .single hk⟩
      · rw [mark?_setMark_ne hne] at hmark
        exact ho.blamed h hmark (.single hk)

/-- A step that fails leaves open what was so before and what its search reached. -/
theorem OpenSince.opened_of_error (ho : OpenSince before c (frame :: rest))
    (h : Searching ast start c (frame :: rest)) (hs : c.step ast rest frame = (c', .error e))
    (hm : c'.mark? m = some .opened) :
    before.mark? m = some .opened ∨ ast.Reaches start m := by
  have hopen : c.mark? m = some .opened → before.mark? m = some .opened ∨ ast.Reaches start m :=
    fun hm => (ho m hm).imp_right fun hl => h.reached (.leave m) hl
  rcases step_error_cases hs with ⟨rfl, -⟩ | ⟨n, node, rfl, -, rfl, -⟩ |
    ⟨n, node, rfl, -, rfl, -⟩ | ⟨n, node, rfl, -, -, rfl, -⟩
  · exact hopen hm
  · exact hopen hm
  · exact hopen hm
  · by_cases hne : m = n
    · rw [hne]
      exact .inr (h.reached _ List.mem_cons_self)
    · rw [mark?_setMark_ne hne] at hm
      exact hopen hm

theorem OpenSince.search_ok (ho : OpenSince before c stack) (h : Searching ast start c stack)
    (hs : c.search ast stack = (c', .ok ())) : OpenSince before c' [] := by
  fun_induction search ast c stack with
  | case1 c =>
    cases hs
    exact ho
  | case2 c frame rest c₁ e he => cases hs
  | case3 c frame rest c₁ stack hstep _ ih =>
    exact ih (ho.step_ok h hstep) (h.step_ok hstep) hs

theorem OpenSince.search_error (ho : OpenSince before c stack) (h : Searching ast start c stack)
    (hs : c.search ast stack = (c', .error e)) :
    Blamed ast before start e ∧ ∀ m, c'.mark? m = some .opened →
      before.mark? m = some .opened ∨ ast.Reaches start m := by
  fun_induction search ast c stack with
  | case1 c => cases hs
  | case2 c frame rest c₁ e' hstep =>
    cases hs
    exact ⟨ho.step_error h hstep, fun m => ho.opened_of_error h hstep⟩
  | case3 c frame rest c₁ stack hstep _ ih =>
    exact ih (ho.step_ok h hstep) (h.step_ok hstep) hs

theorem openSince_self (c : DescendantCounter) (stack : List Frame) : OpenSince c c stack :=
  fun _ => .inl

/-- An error is warranted, or names a node that an earlier search left open. -/
theorem Exact.count_error (h : Exact ast c) (he : (c.count ast n).2 = .error e) :
    Blamed ast c n e := by
  unfold DescendantCounter.count at he
  rcases hs : c.search ast [.enter n] with ⟨c', e' | ⟨⟩⟩
  · rw [hs] at he
    cases he
    exact ((openSince_self c _).search_error (h.searching n) hs).1
  · obtain ⟨k, hk⟩ := ((h.searching n).search_ok hs).kept.resolve_right List.not_mem_nil
    simp only [hs, hk] at he
    cases he

/-- What is open after a question was so before, or is reached by a node that is not sound. -/
theorem Exact.opened_count (h : Exact ast c) (hm : (c.count ast n).1.mark? m = some .opened) :
    c.mark? m = some .opened ∨ ¬ ast.Sound n ∧ ast.Reaches n m := by
  unfold DescendantCounter.count at hm
  rcases hs : c.search ast [.enter n] with ⟨c', e' | ⟨⟩⟩
  · rw [hs] at hm
    have hunsound := ((h.searching n).search_error hs).2
    exact (((openSince_self c _).search_error (h.searching n) hs).2 m hm).imp_right
      fun hreach => ⟨hunsound, hreach⟩
  · obtain ⟨k, hk⟩ := ((h.searching n).search_ok hs).kept.resolve_right List.not_mem_nil
    simp only [hs, hk] at hm
    exact .inl (((openSince_self c _).search_ok (h.searching n) hs m hm).resolve_right
      List.not_mem_nil)

/-! ### Marks that stay -/

/-- A step keeps all marks, or sets one. -/
theorem step_marks (ast : Ast) (c : DescendantCounter) (rest : List Frame) (frame : Frame) :
    (c.step ast rest frame).1 = c
      ∨ ∃ n mark, mark ≠ .unvisited ∧ (c.step ast rest frame).1 = c.setMark n mark := by
  rcases hs : c.step ast rest frame with ⟨c', e | stack⟩
  · rcases step_error_cases hs with ⟨rfl, -⟩ | ⟨n, node, -, -, rfl, -⟩ |
      ⟨n, node, -, -, rfl, -⟩ | ⟨n, node, -, -, -, rfl, -⟩
    · exact .inl rfl
    · exact .inl rfl
    · exact .inl rfl
    · exact .inr ⟨n, .opened, by decide, rfl⟩
  · rcases step_cases hs with ⟨n, node, k, -, -, -, rfl, -⟩ | ⟨n, -, -, rfl, -⟩ |
      ⟨n, node, -, -, -, rfl, -⟩
    · exact .inr ⟨n, .done k, by simp, rfl⟩
    · exact .inl rfl
    · exact .inr ⟨n, .opened, by decide, rfl⟩

theorem setMark_visited {mark : Mark} (hmark : mark ≠ .unvisited) (h : c.mark? m ≠ some .unvisited)
    (n : NodeRef) : (c.setMark n mark).mark? m ≠ some .unvisited := by
  by_cases hne : m = n
  · subst hne
    rcases Nat.lt_or_ge m.index c.marks.size with hlt | hge
    · rw [mark?_setMark_self hlt]
      simpa using hmark
    · rwa [setMark, Array.setIfInBounds_eq_of_size_le hge]
  · rwa [mark?_setMark_ne hne]

theorem step_visited (h : c.mark? m ≠ some .unvisited) (hs : (c.step ast rest frame).1 = c') :
    c'.mark? m ≠ some .unvisited := by
  rcases step_marks ast c rest frame with hc | ⟨n, mark, hmark, hc⟩
  · rwa [← hs, hc]
  · rw [← hs, hc]
    exact setMark_visited hmark h n

theorem search_visited (h : c.mark? m ≠ some .unvisited) (stack : List Frame) :
    (c.search ast stack).1.mark? m ≠ some .unvisited := by
  fun_induction search ast c stack with
  | case1 c => exact h
  | case2 c frame rest c₁ e hstep => exact step_visited h (congrArg Prod.fst hstep)
  | case3 c frame rest c₁ stack hstep _ ih => exact ih (step_visited h (congrArg Prod.fst hstep))

theorem count_fst (c : DescendantCounter) (n : NodeRef) :
    (c.count ast n).1 = (c.search ast [.enter n]).1 := by
  unfold DescendantCounter.count
  split
  · rename_i hs
    rw [hs]
  · rename_i hs
    rw [hs]
    split <;> rfl

theorem step_enter_visited (hn : ast.contains n = true) (rest : List Frame) :
    (c.step ast rest (.enter n)).1.mark? n ≠ some .unvisited := by
  obtain ⟨node, hn⟩ := Ast.contains_iff.1 hn
  cases hm : c.mark? n with
  | none => simp [step, hn, hm]
  | some mark =>
    cases mark with
    | unvisited =>
      simp only [step, hn, hm]
      rw [mark?_setMark_self (Array.getElem?_eq_some_iff.1 hm).1]
      decide
    | opened => simp [step, hn, hm]
    | done k => simp [step, hn, hm]

theorem count_visited (hn : ast.contains n = true) :
    (c.count ast n).1.mark? n ≠ some .unvisited := by
  have hstep := step_enter_visited (c := c) hn []
  rw [count_fst, search]
  split
  · rename_i hs
    rwa [hs] at hstep
  · rename_i hs
    rw [hs] at hstep
    exact search_visited hstep _

/-- A question whose first step fails is answered at once. -/
theorem count_of_step_error (hs : c.step ast [] (.enter n) = (c', .error e)) :
    c.count ast n = (c', .error e) := by
  have hsearch : c.search ast [.enter n] = (c', .error e) := by
    rw [search]
    split <;> rename_i h <;> rw [hs] at h <;> cases h
    rfl
  rw [DescendantCounter.count, hsearch]

theorem count_of_opened (hn : ast.contains n = true) (hm : c.mark? n = some .opened) :
    c.count ast n = (c, .error (.cycle n)) := by
  obtain ⟨node, hn⟩ := Ast.contains_iff.1 hn
  exact count_of_step_error (by simp only [step, hn, hm])

/-! ### Histories -/

section Histories

variable {questions : List NodeRef} {q : NodeRef}

theorem asked_append_singleton (ast : Ast) (questions : List NodeRef) (n : NodeRef) :
    asked ast (questions ++ [n]) = ((asked ast questions).count ast n).1 := by
  rw [asked, List.foldl_append]
  rfl

theorem asked_visited (hn : ast.contains q = true) (hq : q ∈ questions) :
    (asked ast questions).mark? q ≠ some .unvisited := by
  induction questions using List.reverseRecOn with
  | nil => cases hq
  | append_singleton questions n ih =>
    rw [asked_append_singleton]
    rcases List.mem_append.1 hq with hq | hq
    · rw [count_fst]
      exact search_visited (ih hq) _
    · cases List.mem_singleton.1 hq
      exact count_visited hn

/-- What is open was reached from a question that failed. -/
theorem exists_of_opened (hm : (asked ast questions).mark? m = some .opened) :
    ∃ q ∈ questions, ¬ ast.Sound q ∧ ast.Reaches q m := by
  induction questions using List.reverseRecOn with
  | nil => cases mark?_ofAst hm
  | append_singleton questions n ih =>
    rw [asked_append_singleton] at hm
    rcases (exact_asked ast questions).opened_count hm with hm | ⟨hn, hreach⟩
    · obtain ⟨q, hq, hunsound⟩ := ih hm
      exact ⟨q, List.mem_append_left _ hq, hunsound⟩
    · exact ⟨n, by simp, hn, hreach⟩

/-- A node of the array that was asked for in vain is from then on said to be its own ancestor. -/
theorem count_of_asked (hn : ast.contains q = true) (hs : ¬ ast.Sound q) (hq : q ∈ questions) :
    ((asked ast questions).count ast q).2 = .error (.cycle q) := by
  have hexact := exact_asked ast questions
  cases hm : (asked ast questions).mark? q with
  | none =>
    rw [not_contains_of_mark? hexact.size hm] at hn
    cases hn
  | some mark =>
    cases mark with
    | unvisited => exact absurd hm (asked_visited hn hq)
    | opened => rw [count_of_opened hn hm]
    | done k =>
      obtain ⟨f, hf⟩ := Counted.exists_unfolds ⟨k, hm⟩ hexact.size hexact.right
      exact absurd (hf.sound q List.mem_cons_self) hs

/-- An error is warranted unless an earlier question failed and the error is that a node it reached
lies above itself.  A node of the array that was asked for in vain is said to do so from then on.
So all errors are warranted, whatever was asked before, exactly if each unsound node of the array
does lie above itself. -/
theorem count_blames (ast : Ast) :
    (∀ questions n e, ((asked ast questions).count ast n).2 = .error e →
        ast.Warrants n e
          ∨ ∃ m, e = .cycle m ∧ ast.Reaches n m ∧ ast.contains m = true ∧ ¬ ast.Sound m
            ∧ ∃ q ∈ questions, ¬ ast.Sound q ∧ ast.Reaches q m)
      ∧ (∀ questions q, q ∈ questions → ast.contains q = true → ¬ ast.Sound q →
        ((asked ast questions).count ast q).2 = .error (.cycle q))
      ∧ ((∀ questions n e, ((asked ast questions).count ast n).2 = .error e → ast.Warrants n e)
        ↔ ∀ r, ast.contains r = true → ¬ ast.Sound r → ast.Above r r) := by
  have hblamed : ∀ questions n e, ((asked ast questions).count ast n).2 = .error e →
      ast.Warrants n e
        ∨ ∃ m, e = .cycle m ∧ ast.Reaches n m ∧ ast.contains m = true ∧ ¬ ast.Sound m
          ∧ ∃ q ∈ questions, ¬ ast.Sound q ∧ ast.Reaches q m := by
    intro questions n e he
    have hexact := exact_asked ast questions
    refine (hexact.count_error he).imp_right fun ⟨m, hcycle, hreach, hm⟩ => ?_
    exact ⟨m, hcycle, hreach, contains_of_mark? hexact.size hm, hexact.opened m hm,
      exists_of_opened hm⟩
  refine ⟨hblamed, fun questions q hq hn hs => count_of_asked hn hs hq, fun h r hr hs => ?_,
    fun h questions n e he => ?_⟩
  · exact (h [r] r _ (count_of_asked hr hs List.mem_cons_self)).2
  · rcases hblamed questions n e he with hw | ⟨m, rfl, hreach, hm, hs, -⟩
    · exact hw
    · exact ⟨hreach, h m hm hs⟩

end Histories

/-- A node whose child is outside of the array. -/
def strayAst : Ast where
  nodes := #[{ shape := .children [⟨7⟩] }]
  root := some ⟨0⟩

/-- The first answer names the child outside, the second one says that the node is its own
ancestor. -/
theorem count_strayAst :
    ((asked strayAst []).count strayAst ⟨0⟩).2 = .error (.unknownNode ⟨7⟩)
      ∧ ((asked strayAst [⟨0⟩]).count strayAst ⟨0⟩).2 = .error (.cycle ⟨0⟩)
      ∧ ¬ strayAst.Warrants ⟨0⟩ (.cycle ⟨0⟩) := by
  have hkids : strayAst.kids ⟨0⟩ = [⟨7⟩] := rfl
  have hstray : ∀ m, ¬ strayAst.Refers ⟨7⟩ m := fun m hm => List.not_mem_nil hm
  have hfirst : (ofAst strayAst).count strayAst ⟨0⟩ = (⟨#[.opened]⟩, .error (.unknownNode ⟨7⟩)) :=
    count_of_step_error rfl
  have hasked : asked strayAst [⟨0⟩] = ⟨#[.opened]⟩ := by
    change ((ofAst strayAst).count strayAst ⟨0⟩).1 = _
    rw [hfirst]
  refine ⟨?_, ?_, fun h => ?_⟩
  · change ((ofAst strayAst).count strayAst ⟨0⟩).2 = _
    rw [hfirst]
  · rw [hasked, count_of_opened rfl rfl]
  · obtain ⟨k, hk, habove⟩ := Relation.TransGen.head'_iff.1 h.2
    rw [Ast.Refers, hkids, List.mem_singleton] at hk
    subst hk
    rcases Relation.ReflTransGen.cases_head habove with heq | ⟨m, hm, -⟩
    · cases heq
    · exact hstray m hm

end DescendantCounter

end TreeAtlas
