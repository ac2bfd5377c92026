import TreeAtlas.Layout.Walk

/-!
# Counting descendants

How many nodes there are below a node, a shared one counted once for every way to reach it. A
counter keeps a mark for each node, so that it can be asked again and again: a node is unvisited,
open while the nodes below it are counted, or done with its count. A search that fails leaves its
path open.

A search keeps a stack of nodes to enter and nodes to leave. It ends because entering turns an
unvisited mark, of which there are finitely many, and any other step shortens the stack.
-/

namespace TreeAtlas

inductive Mark where
  | unvisited
  | opened
  | done (count : Nat)
  deriving DecidableEq, Repr

inductive Frame where
  | enter (node : NodeRef)
  | leave (node : NodeRef)
  deriving DecidableEq, Repr

structure DescendantCounter where
  marks : Array Mark
  deriving DecidableEq, Repr

namespace DescendantCounter

def ofAst (ast : Ast) : DescendantCounter :=
  ⟨Array.replicate ast.size .unvisited⟩

def mark? (c : DescendantCounter) (r : NodeRef) : Option Mark :=
  c.marks[r.index]?

def setMark (c : DescendantCounter) (r : NodeRef) (mark : Mark) : DescendantCounter :=
  ⟨c.marks.setIfInBounds r.index mark⟩

/-- Sums that stop at the greatest word of 64 bits. -/
def addCount (a b : Nat) : Nat :=
  min (a + b) (UInt64.size - 1)

/-- The count of a node from the counts of its children. -/
def total (c : DescendantCounter) : Nat → List NodeRef → Except LayoutError Nat
  | sum, [] => .ok sum
  | sum, kid :: kids =>
    match c.mark? kid with
    | some (.done n) => c.total (addCount (addCount sum n) 1) kids
    | _ => .error (.cycle kid)

/-- The frames of the children still to be entered, the last child on top. -/
def enterKids (c : DescendantCounter) : List Frame → List NodeRef → Except LayoutError (List Frame)
  | stack, [] => .ok stack
  | stack, kid :: kids =>
    match c.mark? kid with
    | none => .error (.unknownNode kid)
    | some .opened => .error (.cycle kid)
    | some (.done _) => c.enterKids stack kids
    | some .unvisited => c.enterKids (.enter kid :: stack) kids

/-- One step of a search: the top frame is taken from above `rest`. -/
def step (ast : Ast) (c : DescendantCounter) (rest : List Frame) :
    Frame → DescendantCounter × Except LayoutError (List Frame)
  | .leave node =>
    match ast.get? node with
    | none => (c, .error (.unknownNode node))
    | some n =>
      match c.total 0 n.children with
      | .ok sum => (c.setMark node (.done sum), .ok rest)
      | .error e => (c, .error e)
  | .enter node =>
    match ast.get? node, c.mark? node with
    | none, _ => (c, .error (.unknownNode node))
    | some _, some (.done _) => (c, .ok rest)
    | some _, some .opened => (c, .error (.cycle node))
    | some n, some .unvisited =>
      let c := c.setMark node .opened
      (c, c.enterKids (.leave node :: rest) n.children)
    | some _, none => (c, .error (.unknownNode node))

def unvisitedCount (c : DescendantCounter) : Nat :=
  c.marks.toList.count .unvisited

theorem count_set_le {marks : List Mark} {i : Nat} {mark : Mark} (h : mark ≠ .unvisited) :
    (marks.set i mark).count .unvisited ≤ marks.count .unvisited := by
  induction marks generalizing i with
  | nil => simp
  | cons m ms ih =>
    cases i with
    | zero => simp only [List.set_cons_zero, List.count_cons, beq_iff_eq, h, if_false]; omega
    | succ i => have := @ih i; simp only [List.set_cons_succ, List.count_cons]; omega

theorem count_set_lt {marks : List Mark} {i : Nat} {mark : Mark} (h : mark ≠ .unvisited)
    (hi : marks[i]? = some .unvisited) :
    (marks.set i mark).count .unvisited < marks.count .unvisited := by
  induction marks generalizing i with
  | nil => cases hi
  | cons m ms ih =>
    cases i with
    | zero =>
      simp only [List.getElem?_cons_zero, Option.some.injEq] at hi
      subst hi
      simp only [List.set_cons_zero, List.count_cons, beq_iff_eq, h, if_false]
      simp
    | succ i =>
      have := @ih i (by simpa using hi)
      simp only [List.set_cons_succ, List.count_cons]
      omega

theorem unvisitedCount_setMark_le (c : DescendantCounter) (r : NodeRef) {mark : Mark}
    (h : mark ≠ .unvisited) : (c.setMark r mark).unvisitedCount ≤ c.unvisitedCount := by
  simp only [unvisitedCount, setMark, Array.toList_setIfInBounds]
  exact count_set_le h

theorem unvisitedCount_setMark_lt {c : DescendantCounter} {r : NodeRef} {mark : Mark}
    (h : mark ≠ .unvisited) (hr : c.mark? r = some .unvisited) :
    (c.setMark r mark).unvisitedCount < c.unvisitedCount := by
  simp only [unvisitedCount, setMark, Array.toList_setIfInBounds]
  exact count_set_lt h (by simpa [mark?] using hr)

/-- Every step makes the unvisited marks fewer, or keeps them and shortens the stack. -/
theorem step_decreases {ast : Ast} {c c' : DescendantCounter} {rest stack : List Frame}
    {frame : Frame} (h : c.step ast rest frame = (c', .ok stack)) :
    c'.unvisitedCount < c.unvisitedCount
      ∨ c'.unvisitedCount = c.unvisitedCount ∧ stack.length < rest.length + 1 := by
  unfold step at h
  split at h
  · split at h
    · cases h
    · split at h
      · simp only [Prod.mk.injEq, Except.ok.injEq] at h
        obtain ⟨rfl, rfl⟩ := h
        exact (Nat.lt_or_eq_of_le (unvisitedCount_setMark_le c _ (by simp))).imp id
          fun e => ⟨e, Nat.lt_succ_self _⟩
      · cases h
  · split at h
    · cases h
    · simp only [Prod.mk.injEq, Except.ok.injEq] at h
      obtain ⟨rfl, rfl⟩ := h
      exact .inr ⟨rfl, Nat.lt_succ_self _⟩
    · cases h
    · rename_i hm
      simp only [Prod.mk.injEq] at h
      obtain ⟨rfl, -⟩ := h
      exact .inl (unvisitedCount_setMark_lt (by simp) hm)
    · cases h

/-- Runs a search to its end. -/
def search (ast : Ast) (c : DescendantCounter) :
    (stack : List Frame) → DescendantCounter × Except LayoutError Unit
  | [] => (c, .ok ())
  | frame :: rest =>
    match h : c.step ast rest frame with
    | (c', .error e) => (c', .error e)
    | (c', .ok stack) =>
      have := step_decreases h
      search ast c' stack
termination_by stack => (c.unvisitedCount, stack.length)
decreasing_by
  rcases this with h | ⟨e, h⟩
  · exact .left _ _ h
  · rw [e]
    exact .right _ h

/-- The number of nodes below `start`, and the counter for the next question. -/
def count (ast : Ast) (c : DescendantCounter) (start : NodeRef) :
    DescendantCounter × Except LayoutError Nat :=
  match c.search ast [.enter start] with
  | (c, .error e) => (c, .error e)
  | (c, .ok ()) =>
    match c.mark? start with
    | some (.done n) => (c, .ok n)
    | _ => (c, .error (.cycle start))

end DescendantCounter

def descendantCount (ast : Ast) (r : NodeRef) : Except LayoutError Nat :=
  ((DescendantCounter.ofAst ast).count ast r).2

end TreeAtlas
