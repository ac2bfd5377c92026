import TreeAtlas.Ast.Basic
import Mathlib.Algebra.BigOperators.Group.List.Basic
import Mathlib.Data.Set.Card
import Mathlib.Logic.Relation

/-!
# Routes through a tree of references

A route leads down from a node by a position among the children at each step, so two references to
one child are two routes.  Routes from a node are the empty one and, for each child, the routes from
there: their number `ways` satisfies that recursion even where it is infinite (`ways_eq`).

What a route stops at is ordered from above to below (`pairwise_of_stops`).  A node is sound when
all it reaches lies in the array and nothing it reaches is above itself.
-/

namespace TreeAtlas.Ast

open Relation

variable (ast : Ast)

/-- The children of a node, none for a node that is not there. -/
def kids (r : NodeRef) : List NodeRef :=
  match ast.get? r with
  | some node => node.children
  | none => []

def Refers (a b : NodeRef) : Prop :=
  b ∈ ast.kids a

/-- Down from `a` to `b` in any number of steps. -/
abbrev Reaches : NodeRef → NodeRef → Prop :=
  ReflTransGen ast.Refers

/-- Down from `a` to `b` in at least one step. -/
abbrev Above : NodeRef → NodeRef → Prop :=
  TransGen ast.Refers

/-- Neither a cycle nor a reference out of the array is reached. -/
def Sound (r : NodeRef) : Prop :=
  ∀ n, ast.Reaches r n → ast.contains n = true ∧ ¬ ast.Above n n

/-- The nodes on a route, its ends included. -/
def stops : NodeRef → List Nat → Option (List NodeRef)
  | r, [] => some [r]
  | r, i :: route =>
    match (ast.kids r)[i]? with
    | some k => (stops k route).map (r :: ·)
    | none => none

def routes (r : NodeRef) : Set (List Nat) :=
  {route | (ast.stops r route).isSome}

/-- Routes that begin with a step to one of `rs`. -/
def branches (rs : List NodeRef) : Set (List Nat) :=
  {route | ∃ i p k, route = i :: p ∧ rs[i]? = some k ∧ p ∈ ast.routes k}

/-- The number of routes. -/
noncomputable def ways (r : NodeRef) : ℕ∞ :=
  (ast.routes r).encard

variable {ast} {r n : NodeRef} {route : List Nat} {ns : List NodeRef}

theorem kids_of_get? {node : AstNode} (h : ast.get? r = some node) :
    ast.kids r = node.children := by
  simp only [kids, h]

theorem contains_iff : ast.contains r = true ↔ ∃ node, ast.get? r = some node := by
  simp only [contains, get?, decide_eq_true_eq]
  constructor
  · intro h
    exact ⟨_, Array.getElem?_eq_getElem h⟩
  · rintro ⟨node, h⟩
    exact (Array.getElem?_eq_some_iff.1 h).1

theorem contains_eq_false_iff : ast.contains r = false ↔ ast.get? r = none := by
  simp [contains, get?]

theorem Sound.contains (h : ast.Sound r) : ast.contains r = true :=
  (h r .refl).1

theorem not_sound_of_contains (h : ast.contains r = false) : ¬ ast.Sound r := by
  intro hs
  rw [hs.contains] at h
  cases h

theorem Sound.of_reaches (h : ast.Sound r) (hn : ast.Reaches r n) : ast.Sound n :=
  fun m hm => h m (hn.trans hm)

/-- Different nodes of the array are no more than there are. -/
theorem length_le_size (h : ns.Nodup) (hin : ∀ n ∈ ns, ast.contains n = true) :
    ns.length ≤ ast.size := by
  have hinj : Function.Injective NodeRef.index := by
    rintro ⟨i⟩ ⟨j⟩ rfl
    rfl
  have hsub : ns.map NodeRef.index ⊆ List.range ast.size := by
    intro i hi
    obtain ⟨n, hn, rfl⟩ := List.mem_map.1 hi
    simpa [Ast.contains, size] using hin n hn
  simpa using ((h.map hinj).subperm hsub).length_le

/-! ### Stops -/

theorem stops_nil (r : NodeRef) : ast.stops r [] = some [r] := rfl

theorem stops_cons {i : Nat} (h : ast.stops r (i :: route) = some ns) :
    ∃ k ms, (ast.kids r)[i]? = some k ∧ ast.stops k route = some ms ∧ ns = r :: ms := by
  simp only [stops] at h
  split at h
  · rename_i k hk
    obtain ⟨ms, hms, rfl⟩ := Option.map_eq_some_iff.1 h
    exact ⟨k, ms, hk, hms, rfl⟩
  · cases h

theorem stops_cons_of {i : Nat} {k : NodeRef} {ms : List NodeRef} (hk : (ast.kids r)[i]? = some k)
    (h : ast.stops k route = some ms) : ast.stops r (i :: route) = some (r :: ms) := by
  simp only [stops, hk, h, Option.map_some]

theorem refers_of_getElem? {i : Nat} {k : NodeRef} (h : (ast.kids r)[i]? = some k) :
    ast.Refers r k :=
  List.mem_of_getElem? h

theorem length_of_stops (h : ast.stops r route = some ns) : ns.length = route.length + 1 := by
  induction route generalizing r ns with
  | nil => cases h; rfl
  | cons i route ih =>
    obtain ⟨k, ms, -, hms, rfl⟩ := stops_cons h
    simp only [List.length_cons, ih hms]

/-- The first stop is above the others. -/
theorem stops_head (h : ast.stops r route = some ns) :
    ∃ ms, ns = r :: ms ∧ ∀ n ∈ ms, ast.Above r n := by
  induction route generalizing r ns with
  | nil =>
    cases h
    exact ⟨[], rfl, by simp⟩
  | cons i route ih =>
    obtain ⟨k, ms, hk, hms, rfl⟩ := stops_cons h
    obtain ⟨ls, rfl, hls⟩ := ih hms
    refine ⟨_, rfl, fun n hn => ?_⟩
    rcases List.mem_cons.1 hn with rfl | hn
    · exact .single (refers_of_getElem? hk)
    · exact .head (refers_of_getElem? hk) (hls n hn)

theorem pairwise_of_stops (h : ast.stops r route = some ns) : ns.Pairwise ast.Above := by
  induction route generalizing r ns with
  | nil =>
    cases h
    exact List.pairwise_singleton _ _
  | cons i route ih =>
    obtain ⟨ms, hms, ha⟩ := stops_head h
    obtain ⟨k, ls, -, hls, rfl⟩ := stops_cons h
    cases hms
    exact List.pairwise_cons.2 ⟨ha, ih hls⟩

theorem reaches_of_stops (h : ast.stops r route = some ns) (hn : n ∈ ns) : ast.Reaches r n := by
  obtain ⟨ms, rfl, ha⟩ := stops_head h
  rcases List.mem_cons.1 hn with rfl | hn
  · exact .refl
  · exact (ha n hn).to_reflTransGen

/-- What a node reaches ends a route. -/
theorem exists_stops_of_reaches (h : ast.Reaches r n) :
    ∃ route ns, ast.stops r route = some (ns ++ [n]) := by
  induction h using ReflTransGen.head_induction_on with
  | refl => exact ⟨[], [], rfl⟩
  | @head a k hak _ ih =>
    obtain ⟨route, ns, hns⟩ := ih
    obtain ⟨i, hi⟩ := List.getElem?_of_mem hak
    exact ⟨i :: route, a :: ns, stops_cons_of hi hns⟩

/-- A route goes on below its end. -/
theorem exists_stops_append {k : NodeRef} {ms : List NodeRef} {tail : List Nat}
    (h : ast.stops r route = some (ns ++ [n])) (hk : ast.Refers n k)
    (ht : ast.stops k tail = some ms) : ∃ p, ast.stops r p = some (ns ++ n :: ms) := by
  induction route generalizing r ns with
  | nil =>
    obtain ⟨rfl, rfl⟩ : ns = [] ∧ r = n := by
      rw [stops_nil, Option.some.injEq] at h
      rcases ns with _ | ⟨a, as⟩
      · simpa using h
      · simp at h
    obtain ⟨i, hi⟩ := List.getElem?_of_mem hk
    exact ⟨i :: tail, stops_cons_of hi ht⟩
  | cons i route ih =>
    obtain ⟨l, ls, hl, hls, he⟩ := stops_cons h
    rcases ns with _ | ⟨a, as⟩
    · simp only [List.nil_append, List.cons.injEq] at he
      have := length_of_stops hls
      rw [← he.2] at this
      simp at this
    · simp only [List.cons_append, List.cons.injEq] at he
      obtain ⟨rfl, rfl⟩ := he
      obtain ⟨p, hp⟩ := ih hls
      exact ⟨i :: p, stops_cons_of hl hp⟩

/-- Routes meet no node twice exactly where there is no cycle to meet. -/
theorem nodup_stops_iff :
    (∀ route ns, ast.stops r route = some ns → ns.Nodup)
      ↔ ∀ n, ast.Reaches r n → ¬ ast.Above n n := by
  constructor
  · intro h n hn hc
    obtain ⟨k, hk, hkn⟩ := TransGen.head'_iff.1 hc
    obtain ⟨p, ns, hp⟩ := exists_stops_of_reaches hn
    obtain ⟨q, ms, hq⟩ := exists_stops_of_reaches hkn
    obtain ⟨route, hroute⟩ := exists_stops_append hp hk hq
    have := h _ _ hroute
    simp [List.nodup_append] at this
  · intro h route ns hns
    refine (pairwise_of_stops hns).imp_of_mem fun ha _ hab e => ?_
    subst e
    exact h _ (reaches_of_stops hns ha) hab

theorem sound_iff_stops :
    ast.Sound r ↔ ∀ route ns, ast.stops r route = some ns →
      ns.Nodup ∧ ∀ n ∈ ns, ast.contains n = true := by
  constructor
  · intro h route ns hns
    exact ⟨nodup_stops_iff.2 (fun n hn => (h n hn).2) route ns hns,
      fun n hn => (h n (reaches_of_stops hns hn)).1⟩
  · intro h n hn
    obtain ⟨p, ns, hp⟩ := exists_stops_of_reaches hn
    exact ⟨(h p _ hp).2 n (by simp),
      nodup_stops_iff.1 (fun route ns hns => (h route ns hns).1) n hn⟩

/-! ### Counting routes -/

theorem nil_mem_routes (r : NodeRef) : [] ∈ ast.routes r :=
  rfl

theorem cons_mem_routes {i : Nat} {p : List Nat} :
    i :: p ∈ ast.routes r ↔ i :: p ∈ ast.branches (ast.kids r) := by
  simp only [routes, branches, Set.mem_ofPred_eq, List.cons.injEq, stops]
  cases hk : (ast.kids r)[i]? with
  | none => simp [hk]
  | some k =>
    constructor
    · intro h
      exact ⟨i, p, k, ⟨rfl, rfl⟩, hk, by simpa using h⟩
    · rintro ⟨_, _, l, ⟨rfl, rfl⟩, hl, h⟩
      rw [hk] at hl
      cases hl
      simpa using h

theorem nil_notMem_branches (rs : List NodeRef) : [] ∉ ast.branches rs := by
  simp [branches]

theorem routes_eq (r : NodeRef) : ast.routes r = insert [] (ast.branches (ast.kids r)) := by
  ext route
  cases route with
  | nil => simp [nil_mem_routes]
  | cons i p => simp [cons_mem_routes]

/-- The routes that go somewhere. -/
theorem routes_diff_nil (r : NodeRef) :
    {route ∈ ast.routes r | route ≠ []} = ast.branches (ast.kids r) := by
  ext route
  cases route with
  | nil => simp [nil_notMem_branches]
  | cons i p => simp [cons_mem_routes]

/-- Moves a route past one more sibling on the left. -/
def pastSibling : List Nat → List Nat
  | [] => []
  | i :: p => (i + 1) :: p

theorem branches_cons (k : NodeRef) (ks : List NodeRef) :
    ast.branches (k :: ks)
      = (List.cons 0 '' ast.routes k) ∪ (pastSibling '' ast.branches ks) := by
  ext route
  simp only [branches, Set.mem_ofPred_eq, Set.mem_union, Set.mem_image]
  constructor
  · rintro ⟨i, p, l, rfl, hl, hp⟩
    cases i with
    | zero =>
      cases hl
      exact .inl ⟨p, hp, rfl⟩
    | succ i => exact .inr ⟨i :: p, ⟨i, p, l, rfl, hl, hp⟩, rfl⟩
  · rintro (⟨p, hp, rfl⟩ | ⟨_, ⟨i, p, l, rfl, hl, hp⟩, rfl⟩)
    · exact ⟨0, p, k, rfl, rfl, hp⟩
    · exact ⟨i + 1, p, l, rfl, hl, hp⟩

theorem encard_branches (ks : List NodeRef) :
    (ast.branches ks).encard = (ks.map ast.ways).sum := by
  induction ks with
  | nil => simp [branches]
  | cons k ks ih =>
    have hdisj : Disjoint (List.cons 0 '' ast.routes k) (pastSibling '' ast.branches ks) := by
      rw [Set.disjoint_left]
      rintro _ ⟨p, -, rfl⟩ ⟨_, ⟨i, q, l, rfl, -⟩, hq⟩
      simp [pastSibling] at hq
    have hinj : Set.InjOn pastSibling (ast.branches ks) := by
      rintro _ ⟨i, p, _, rfl, -⟩ _ ⟨j, q, _, rfl, -⟩ h
      simpa [pastSibling] using h
    rw [branches_cons, Set.encard_union_eq hdisj, List.cons_injective.encard_image,
      hinj.encard_image, ih, List.map_cons, List.sum_cons, ways]

theorem ways_eq (r : NodeRef) : ast.ways r = 1 + ((ast.kids r).map ast.ways).sum := by
  rw [ways, routes_eq, Set.encard_insert_of_notMem (nil_notMem_branches _), encard_branches,
    add_comm]

theorem one_le_ways (r : NodeRef) : 1 ≤ ast.ways r := by
  rw [ways_eq]
  exact le_self_add

end TreeAtlas.Ast
